import TexecomBridge.Texecom.Basic
import TexecomBridge.Library.Missing

/-!
# Reading a trace

The bytes that crossed each boundary, the session transitions, and the sessions with what each of
them received, sent and handed to the capture sink.
-/

namespace TexecomBridge

/-! ### Bytes and transitions -/

/-- Bytes handed to `write_byte()`. -/
def Obs.panelTx : Obs → List UInt8
  | .uartTx b => [b]
  | _ => []

/-- Bytes read from the panel. -/
def Obs.panelRx : Obs → List UInt8
  | .uartRx batch _ => batch
  | _ => []

/-- Bytes read from a client. -/
def Obs.clientRx : Obs → List UInt8
  | .read _ _ (.data bytes) => bytes
  | _ => []

/-- Calls to a client's `read()`, each with how many bytes are wanted. -/
def Obs.readCalls : Obs → List (Conn × ℕ)
  | .read conn want _ => [(conn, want)]
  | _ => []

/-- Bytes a client's `write()` reported as sent. -/
def Obs.clientTx : Obs → List UInt8
  | .write _ offered (.sent n) => offered.take n
  | _ => []

/-- Panel-bound bytes whose push failed. -/
def Obs.refusals : Obs → List UInt8
  | .refused b => [b]
  | _ => []

/-- A batch that is offered to the capture sink: direction 0 from the panel, 1 from the client. -/
def Obs.batches : Obs → List (UInt8 × List UInt8)
  | .uartRx batch _ => if batch = [] then [] else [(0, batch)]
  | .read _ _ (.data bytes) => [(1, bytes)]
  | _ => []

/-- Session transitions, each with the client it is for. -/
def Obs.transitions : Obs → List (Transition × ClientId)
  | .accepted transition id _ _ => [(transition, id)]
  | .ended transition id _ => [(transition, id)]
  | _ => []

def panelTx (io : List Obs) : List UInt8 := io.flatMap Obs.panelTx

def panelRx (io : List Obs) : List UInt8 := io.flatMap Obs.panelRx

def clientRx (io : List Obs) : List UInt8 := io.flatMap Obs.clientRx

def readCalls (io : List Obs) : List (Conn × ℕ) := io.flatMap Obs.readCalls

def clientTx (io : List Obs) : List UInt8 := io.flatMap Obs.clientTx

def refusals (io : List Obs) : List UInt8 := io.flatMap Obs.refusals

def batches (io : List Obs) : List (UInt8 × List UInt8) := io.flatMap Obs.batches

def transitions (io : List Obs) : List (Transition × ClientId) := io.flatMap Obs.transitions

@[simp] lemma panelTx_append (io io' : List Obs) :
    panelTx (io ++ io') = panelTx io ++ panelTx io' :=
  List.flatMap_append

@[simp] lemma panelRx_append (io io' : List Obs) :
    panelRx (io ++ io') = panelRx io ++ panelRx io' :=
  List.flatMap_append

@[simp] lemma clientRx_append (io io' : List Obs) :
    clientRx (io ++ io') = clientRx io ++ clientRx io' :=
  List.flatMap_append

@[simp] lemma clientTx_append (io io' : List Obs) :
    clientTx (io ++ io') = clientTx io ++ clientTx io' :=
  List.flatMap_append

@[simp] lemma refusals_append (io io' : List Obs) :
    refusals (io ++ io') = refusals io ++ refusals io' :=
  List.flatMap_append

@[simp] lemma batches_append (io io' : List Obs) :
    batches (io ++ io') = batches io ++ batches io' :=
  List.flatMap_append

@[simp] lemma transitions_append (io io' : List Obs) :
    transitions (io ++ io') = transitions io ++ transitions io' :=
  List.flatMap_append

/-- Bridge and Monitor are entered in turn, each return to Monitor for the client that entered
Bridge before it. The first argument is the client that is connected at the end. -/
inductive Alternating : Option ClientId → List (Transition × ClientId) → Prop
  | nil : Alternating none []
  | bridge {cs : List (Transition × ClientId)} (h : Alternating none cs) (id : ClientId) :
    Alternating (some id) (cs ++ [(.enteredBridge, id)])
  | monitor {cs : List (Transition × ClientId)} {id : ClientId} (h : Alternating (some id) cs) :
    Alternating none (cs ++ [(.enteredMonitor, id)])

/-- The bytes of the batches of one direction. -/
def payloads (direction : UInt8) (bs : List (UInt8 × List UInt8)) : List UInt8 :=
  (bs.filter (·.1 = direction)).flatMap (·.2)

@[simp] lemma payloads_append (direction : UInt8) (bs bs' : List (UInt8 × List UInt8)) :
    payloads direction (bs ++ bs') = payloads direction bs ++ payloads direction bs' := by
  simp [payloads]

/-- Batches lose no byte of what is read, and no byte its direction. -/
lemma payloads_batches (io : List Obs) :
    payloads 0 (batches io) = panelRx io ∧ payloads 1 (batches io) = clientRx io := by
  induction io with
  | nil => exact ⟨rfl, rfl⟩
  | cons o io ih =>
    have hfirst : payloads 0 o.batches = o.panelRx ∧ payloads 1 o.batches = o.clientRx := by
      cases o with
      | uartRx batch reads =>
        by_cases h : batch = [] <;> simp [payloads, Obs.batches, Obs.panelRx, Obs.clientRx, h]
      | read conn want answer =>
        cases answer <;> simp [payloads, Obs.batches, Obs.panelRx, Obs.clientRx]
      | _ => exact ⟨rfl, rfl⟩
    have hsplit : batches (o :: io) = o.batches ++ batches io := List.flatMap_cons
    rw [hsplit, payloads_append, payloads_append, ih.1, ih.2, hfirst.1, hfirst.2]
    exact ⟨List.flatMap_cons.symm, List.flatMap_cons.symm⟩

/-! ### Sessions -/

/-- One session: its client, the drop counters when it began, the batches read during it, the bytes
its client was sent, and the drop counters when it ended, if it has. -/
structure Session where
  id : ClientId
  conn : Conn
  began : DropCounters
  batches : List (UInt8 × List UInt8)
  sent : List UInt8
  ended : Option DropCounters

namespace Session

/-- A session that goes on takes in what is observed. -/
def extend (io : List Obs) (s : Session) : Session :=
  { s with batches := s.batches ++ TexecomBridge.batches io, sent := s.sent ++ clientTx io }

/-- The bytes that were read from the panel (direction 0) or from the client (direction 1). -/
def received (direction : UInt8) (s : Session) : List UInt8 := payloads direction s.batches

end Session

/-- One observation's effect on the sessions, newest first. -/
def sessionStep : List Session → Obs → List Session
  | ss, .accepted _ id conn drops => ⟨id, conn, drops, [], [], none⟩ :: ss
  | [], _ => []
  | s :: ss, .ended _ _ drops =>
    (if s.ended.isNone then { s with ended := some drops } else s) :: ss
  | s :: ss, o => (if s.ended.isNone then s.extend [o] else s) :: ss

/-- The sessions of a run, newest first. -/
def sessions (io : List Obs) : List Session := io.foldl sessionStep []

/-- No session begins or ends with this observation. -/
def Obs.inSession : Obs → Prop
  | .accepted _ _ _ _ => False
  | .ended _ _ _ => False
  | _ => True

lemma transitions_eq_nil {io : List Obs} (h : ∀ o ∈ io, o.inSession) : transitions io = [] := by
  rw [transitions, List.flatMap_eq_nil_iff]
  intro o ho
  have hin := h o ho
  cases o with
  | accepted => exact hin.elim
  | ended => exact hin.elim
  | _ => rfl

lemma sessions_append (io io' : List Obs) :
    sessions (io ++ io') = io'.foldl sessionStep (sessions io) := by
  simp [sessions]

lemma Session.extend_append (io io' : List Obs) (s : Session) :
    s.extend (io ++ io') = (s.extend io).extend io' := by
  simp [extend]

lemma Session.received_extend (io : List Obs) (s : Session) :
    (s.extend io).received 0 = s.received 0 ++ panelRx io ∧
      (s.extend io).received 1 = s.received 1 ++ clientRx io := by
  simp [extend, received, payloads_batches]

lemma Session.extend_nil (s : Session) : s.extend [] = s := by
  simp [extend, TexecomBridge.batches, clientTx]

/-- Between its first and last observation a session takes in all of them. -/
lemma sessions_append_live {io io' : List Obs} {s : Session} {past : List Session}
    (h : sessions io = s :: past) (hlive : s.ended = none) (hio' : ∀ o ∈ io', o.inSession) :
    sessions (io ++ io') = s.extend io' :: past := by
  rw [sessions_append, h]
  clear h
  induction io' generalizing s with
  | nil => rw [List.foldl_nil, s.extend_nil]
  | cons o io' ih =>
    have hstep : sessionStep (s :: past) o = s.extend [o] :: past := by
      have ho := hio' o List.mem_cons_self
      cases o with
      | accepted => exact ho.elim
      | ended => exact ho.elim
      | _ => simp [sessionStep, hlive]
    have hsplit := s.extend_append [o] io'
    rw [List.singleton_append] at hsplit
    rw [List.foldl_cons, hstep, hsplit]
    exact ih (by exact hlive) fun o' ho' => hio' o' (List.mem_cons_of_mem _ ho')

/-- Once all sessions have ended, nothing is added to them. -/
lemma sessions_append_ended {io io' : List Obs} (hended : ∀ s ∈ sessions io, s.ended.isSome = true)
    (hio' : ∀ o ∈ io', o.inSession) : sessions (io ++ io') = sessions io := by
  rw [sessions_append]
  induction io' with
  | nil => rfl
  | cons o io' ih =>
    have hstep : sessionStep (sessions io) o = sessions io := by
      have ho := hio' o List.mem_cons_self
      cases hss : sessions io with
      | nil =>
        cases o with
        | accepted => exact ho.elim
        | _ => rfl
      | cons s past =>
        have hs : s.ended.isNone = false := by
          rw [← Option.not_isSome, hended s (by rw [hss]; exact List.mem_cons_self)]
          rfl
        cases o with
        | accepted => exact ho.elim
        | ended => exact ho.elim
        | _ => simp [sessionStep, hs]
    rw [List.foldl_cons, hstep]
    exact ih fun o' ho' => hio' o' (List.mem_cons_of_mem _ ho')

/-- A session begins. -/
lemma sessions_append_accepted (io : List Obs) (transition : Transition) (id : ClientId)
    (conn : Conn) (drops : DropCounters) :
    sessions (io ++ [.accepted transition id conn drops])
      = ⟨id, conn, drops, [], [], none⟩ :: sessions io := by
  rw [sessions_append, List.foldl_cons, List.foldl_nil, sessionStep]

/-- The last observations of a session. -/
lemma sessions_append_closed {io : List Obs} {s : Session} {past : List Session}
    (h : sessions io = s :: past) (hlive : s.ended = none) (conn : Conn) (transition : Transition)
    (id : ClientId) (drops : DropCounters) :
    sessions (io ++ [.closed conn, .ended transition id drops])
      = { s with ended := some drops } :: past := by
  rw [sessions_append, h]
  simp [sessionStep, hlive, Session.extend, batches, Obs.batches, clientTx, Obs.clientTx]

end TexecomBridge
