import TexecomBridge.Library.Pipe
import TexecomBridge.Texecom.Interruptions

/-!
# The component as a shared line

The component refines a line that clients share one at a time, with the UART as the line and the
connected client as its owner. What the rings and the send stage hold is what is on its way.
-/

namespace TexecomBridge

/-! ### Abstraction -/

/-- What an observation is for the line. A call that moves no byte is a transfer of none. -/
def Obs.pipeEvents : Obs → List (PipeEvent Conn UInt8)
  | .accepted _ _ conn _ => [.opened conn]
  | .rejected conn => [.turnedAway conn]
  | .uartRx batch _ => [.fromLine batch]
  | .write conn offered answer => [.toOwner conn (Obs.clientTx (.write conn offered answer))]
  | .read conn want answer => [.fromOwner conn (Obs.clientRx (.read conn want answer))]
  | .closed conn => [.closed conn]
  | .uartTx b => [.toLine [b]]
  | _ => []

def pipeEvents (io : List Obs) : List (PipeEvent Conn UInt8) := io.flatMap Obs.pipeEvents

lemma pipeEvents_append (io io' : List Obs) :
    pipeEvents (io ++ io') = pipeEvents io ++ pipeEvents io' :=
  List.flatMap_append

lemma pipeEvents_cons (o : Obs) (io : List Obs) :
    pipeEvents (o :: io) = o.pipeEvents ++ pipeEvents io :=
  List.flatMap_cons

/-- Nothing that the component does itself resets the line. -/
lemma reset_not_mem_pipeEvents (io : List Obs) : PipeEvent.reset ∉ pipeEvents io := by
  intro hmem
  obtain ⟨o, -, ho⟩ := List.mem_flatMap.mp hmem
  cases o <;> simp [Obs.pipeEvents] at ho

/-- The client that is connected after a trace. -/
def connected (io : List Obs) : Option Conn := Pipe.ownerAfter (pipeEvents io)

namespace Texecom

/-- What the component is as a line. Without a client, nothing is on its way to one. -/
def pipe (t : Texecom) : Pipe Conn UInt8 where
  owner := t.clientSocket
  lineBound := t.tcpToUart.toList
  ownerBound := if t.clientSocket.isSome then t.sendState.pending else []
  cutOff := none

/-- The client that is served. -/
def served (t : Texecom) : Option Conn := if t.isBridgeMode then t.clientSocket else none

/-- A socket that was left over when a second setup interrupted its session. -/
def leftOver (t : Texecom) : Option Conn := if t.isBridgeMode then none else t.clientSocket

/-- What the component is as a line of the client that is served. -/
def line (t : Texecom) : Pipe Conn UInt8 where
  owner := t.served
  lineBound := t.tcpToUart.toList
  ownerBound := if t.served.isSome then t.sendState.pending else []
  cutOff := t.leftOver

/-- From `t` to `t'` the component does what a line can do. -/
def LineSteps (t t' : Texecom) : Prop :=
  ∃ io, t'.io = t.io ++ io ∧ Steps Pipe.Step t.line (pipeEvents io) t'.line

end Texecom

/-! ### The loops of the pumps -/

section Loops

variable {p : Pipe Conn UInt8} {conn : Conn} {io : List Obs} {bs rest : List UInt8}

/-- Writes to the owner take what they sent from what is on its way. -/
lemma steps_writes (howner : p.owner = some conn)
    (hio : ∀ o ∈ io, ∃ offered answer, o = .write conn offered answer)
    (hbound : p.ownerBound = clientTx io ++ rest) :
    Steps Pipe.Step p (pipeEvents io) { p with ownerBound := rest } := by
  induction io generalizing p with
  | nil =>
    rw [← show p.ownerBound = rest from hbound]
    rfl
  | cons o io ih =>
    obtain ⟨⟨offered, answer, rfl⟩, hwrites⟩ := List.forall_mem_cons.mp hio
    rw [clientTx, List.flatMap_cons, List.append_assoc] at hbound
    have hrest := @ih { p with ownerBound := clientTx io ++ rest } howner hwrites rfl
    exact ⟨_, .toOwner howner hbound, hrest⟩

/-- What is read from the owner is on its way to the line. -/
lemma steps_reads (howner : p.owner = some conn)
    (hio : ∀ o ∈ io, ∃ want answer, o = .read conn want answer) :
    Steps Pipe.Step p (pipeEvents io) { p with lineBound := p.lineBound ++ clientRx io } := by
  induction io generalizing p with
  | nil =>
    rw [show clientRx [] = [] from rfl, List.append_nil]
    rfl
  | cons o io ih =>
    obtain ⟨⟨want, answer, rfl⟩, hreads⟩ := List.forall_mem_cons.mp hio
    refine ⟨_, .fromOwner howner (Obs.clientRx (.read conn want answer)), ?_⟩
    have hrest := @ih { p with lineBound := p.lineBound ++ Obs.clientRx (.read conn want answer) }
      howner hreads
    rwa [List.append_assoc] at hrest

/-- Bytes handed to the panel are the first on their way to the line. -/
lemma steps_uartTx (hbound : p.lineBound = bs) :
    Steps Pipe.Step p (pipeEvents (bs.map .uartTx)) { p with lineBound := [] } := by
  induction bs generalizing p with
  | nil =>
    obtain ⟨owner, lineBound, ownerBound⟩ := p
    cases hbound
    rfl
  | cons b bs ih => exact ⟨_, .toLine (show p.lineBound = [b] ++ bs from hbound), ih rfl⟩

end Loops

namespace Texecom

variable {t t' : Texecom} {conn : Conn} {interrupted : Bool} {inp : Tick}

lemma LineSteps.refl (t : Texecom) : t.LineSteps t := ⟨[], (List.append_nil _).symm, rfl⟩

lemma LineSteps.trans {t'' : Texecom} (h : t.LineSteps t') (h' : t'.LineSteps t'') :
    t.LineSteps t'' := by
  obtain ⟨io, hio, hsteps⟩ := h
  obtain ⟨io', hio', hsteps'⟩ := h'
  refine ⟨io ++ io', ?_, ?_⟩
  · rw [hio', hio, List.append_assoc]
  · rw [pipeEvents_append]
    exact steps_append.mpr ⟨_, hsteps, hsteps'⟩

lemma served_of_session (hsession : t.session = ⟨.bridge, t.activeClientId⟩)
    (hclient : t.clientSocket = some conn) : t.served = some conn := by
  rw [served, isBridgeMode_of_bridge hsession, if_pos rfl, hclient]

lemma served_of_monitor (hmode : t.isBridgeMode = false) : t.served = none := by
  rw [served, hmode, if_neg Bool.false_ne_true]

/-- While a client is served, nothing is left over. -/
lemma leftOver_of_served (h : t.served = some conn) : t.leftOver = none := by
  unfold served at h
  unfold leftOver
  split_ifs at h ⊢ with hmode
  rfl

lemma line_of_served (h : t.served = some conn) :
    t.line = ⟨some conn, t.tcpToUart.toList, t.sendState.pending, none⟩ := by
  simp [line, h, leftOver_of_served h]

lemma line_of_not_served (h : t.served = none) :
    t.line = ⟨none, t.tcpToUart.toList, [], t.leftOver⟩ := by
  simp [line, h]

/-- The component has one socket: that of the client that is served, or one that is left over. -/
lemma held_line (t : Texecom) : t.line.held = t.clientSocket := by
  unfold Pipe.held line served leftOver
  cases t.isBridgeMode <;> simp

/-- A batch from the panel is on its way to the client but for what did not fit. -/
lemma lineSteps_receiveFromUart (inp : Tick) (t : Texecom) :
    t.LineSteps (t.receiveFromUart inp) := by
  refine ⟨_, rfl, steps_singleton.mpr ?_⟩
  cases hserved : t.served with
  | none =>
    rw [line_of_not_served hserved, line_of_not_served (t := t.receiveFromUart inp) hserved]
    exact .ignored rfl _
  | some conn =>
    obtain ⟨new, d, hbatch, -, hring, -⟩ :=
      drainUart_spec inp.uart kBatchSize [] t.uartToTcp t.uartToTcpDrops
    rw [line_of_served hserved, line_of_served (t := t.receiveFromUart inp) hserved]
    refine .fromLine (p := ⟨some conn, t.tcpToUart.toList, t.sendState.pending, none⟩) rfl ?_
    have hkept := (hring.prepend (t.sendStage.drop t.sendStageOff)).sublist
    rwa [← List.append_assoc, ← List.nil_append new, ← hbatch] at hkept

lemma lineSteps_pumpStep (h : PumpStep inp t t') : t.LineSteps t' := by
  cases h with
  | receiveFromUart => exact lineSteps_receiveFromUart inp t
  | send conn hsession hclient =>
    obtain ⟨hwrites, hpending, -⟩ := sendLoop_spec inp conn 0 t.sendState
    have hserved := served_of_session hsession hclient
    refine ⟨_, rfl, ?_⟩
    rw [line_of_served hserved, line_of_served (t := t.afterSend _) hserved]
    exact steps_writes rfl hwrites hpending.symm
  | read conn hsession hclient =>
    obtain ⟨hreads, hring, -⟩ := readLoop_spec inp conn 0 t.tcpToUart t.capture
    have hserved := served_of_session hsession hclient
    refine ⟨_, rfl, ?_⟩
    rw [line_of_served hserved, line_of_served (t := t.afterRead _) hserved, afterRead, hring]
    exact steps_reads rfl hreads
  | disconnect conn hsession hclient =>
    refine ⟨[.closed conn, .ended _ _ _], rfl, ?_⟩
    rw [line_of_served (served_of_session hsession hclient),
      line_of_not_served (t := t.disconnect _ conn) rfl]
    exact steps_singleton.mpr (.closed rfl)
  | sendToUart =>
    obtain ⟨hbytes, hempty⟩ := drainToUart_spec t.tcpToUart
    refine ⟨_, rfl, ?_⟩
    have hsent : t.sendToUart.line = { t.line with lineBound := [] } :=
      congrArg (fun bs => { t.line with lineBound := bs }) hempty
    rw [hsent]
    exact steps_uartTx hbytes.symm
  | captureLoop => exact .refl t

lemma lineSteps_turnAway (hserved : t.served = some conn) (pending : Conn) :
    t.LineSteps (t.turnAway pending) := by
  refine ⟨_, rfl, steps_singleton.mpr ?_⟩
  exact .turnedAway (by rw [line_of_served hserved]; rfl) pending

/-- Closing the socket leaves what is on its way to the panel. -/
lemma lineSteps_closeClient (t : Texecom) : t.LineSteps t.closeClient := by
  have hclosed : t.closeClient.line = ⟨none, t.tcpToUart.toList, [], none⟩ := by
    have hclient : t.closeClient.served = none ∧ t.closeClient.leftOver = none := by
      simp [closeClient_eq, served, leftOver]
    rw [line_of_not_served hclient.1, hclient.2, closeClient_eq]
  cases hclient : t.clientSocket with
  | none =>
    rw [closeClient_of_no_client hclient]
    exact .refl t
  | some conn =>
    refine ⟨[.closed conn], by rw [closeClient_eq, hclient]; rfl, steps_singleton.mpr ?_⟩
    rw [hclosed]
    exact .closed ((held_line t).trans hclient)

/-- A client that is let in finds nothing on its way. -/
lemma lineSteps_enterBridge (hclient : t.clientSocket = none) (inp : Tick) (pending : Conn) :
    t.LineSteps (t.enterBridge inp pending) := by
  refine ⟨_, rfl, steps_singleton.mpr ?_⟩
  have hentered : (t.enterBridge inp pending).line = ⟨some pending, [], [], none⟩ := by
    rw [line_of_served (t := t.enterBridge inp pending) rfl]
    simp [Texecom.enterBridge, RingBuffer.toList_clear, sendState, SendState.pending]
  rw [hentered]
  exact .opened ((held_line t).trans hclient) pending

/-! ### Runs -/

lemma lineSteps_beginTick (t : Texecom) : t.LineSteps t.beginTick := ⟨_, rfl, rfl⟩

/-- While there is a listener, somebody is served in Bridge mode. -/
lemma Standing.served_of_bridge (h : t.Standing interrupted) (hlistener : t.listener = true)
    (hmode : t.session.mode = .bridge) : ∃ conn, t.served = some conn := by
  cases h with
  | idle session client active capture =>
    rw [session] at hmode
    cases hmode
  | serving conn session client active capture => exact ⟨conn, served_of_session session client⟩
  | severed session client listener capture =>
    rw [listener] at hlistener
    cases hlistener
  | reset session capture =>
    rw [session] at hmode
    cases hmode

lemma Upheld.lineSteps_acceptPendingClient (h : t.Upheld interrupted) (inp : Tick) :
    t.LineSteps (t.acceptPendingClient inp) := by
  rcases acceptPendingClient_cases h.next inp with
    ⟨-, heq⟩ | ⟨pending, hlistener, -, ⟨hmode, heq⟩ | ⟨hmode, heq⟩⟩
  · rw [heq]
    exact .refl t
  · obtain ⟨conn, hserved⟩ := h.standing.served_of_bridge hlistener hmode
    rw [heq]
    exact lineSteps_turnAway hserved pending
  · have hclient : t.closeClient.clientSocket = none := by rw [closeClient_eq]
    rw [heq]
    exact (lineSteps_closeClient t).trans (lineSteps_enterBridge hclient inp pending)

lemma lineSteps_pumpSteps (h : PumpSteps inp t t') : t.LineSteps t' := by
  induction h with
  | refl => exact .refl t
  | tail _ hstep ih => exact ih.trans (lineSteps_pumpStep hstep)

lemma Upheld.lineSteps_loop (h : t.Upheld interrupted) (inp : Tick) : t.LineSteps (t.loop inp) := by
  have haccepted := (lineSteps_beginTick t).trans (h.beginTick.lineSteps_acceptPendingClient inp)
  have hpumps := (h.beginTick.acceptPendingClient inp).loop_steps
  exact haccepted.trans (lineSteps_pumpSteps hpumps)

lemma Inv.upheld {cc : Capture.Config} (h : t.Inv cc) : t.Upheld false := by
  refine ⟨?_, h.next, h.capture⟩
  cases h.agreement with
  | monitor session client active capture stage off changes =>
    exact .idle session client active capture
  | bridge conn session client active capture changes =>
    exact .serving conn session client active capture

/-- Without an interruption, the client that is connected is served. -/
lemma Inv.pipe_eq {cc : Capture.Config} (h : t.Inv cc) : t.pipe = t.line := by
  have hserved : t.served = t.clientSocket ∧ t.leftOver = none := by
    rcases h.client_cases with hclient | ⟨conn, hclient, hsession, -⟩
    · simp [served, leftOver, hclient]
    · have hserved := served_of_session hsession hclient
      exact ⟨hserved.trans hclient.symm, leftOver_of_served hserved⟩
  rw [pipe, line, hserved.1, hserved.2]

lemma steps_run (cfg : Config) (listen : Bool) (ticks : List Tick) :
    Steps Pipe.Step .vacant (pipeEvents (run cfg listen ticks).io) (run cfg listen ticks).line := by
  induction ticks using List.reverseRecOn with
  | nil => rfl
  | append_singleton ticks inp ih =>
    obtain ⟨io, hio, hsteps⟩ := (inv_run cfg listen ticks).upheld.lineSteps_loop inp
    rw [run_concat, hio, pipeEvents_append]
    exact steps_append.mpr ⟨_, ih, hsteps⟩

/-- Every run is a run of a line that clients share one at a time: the observations, read as what
happens at its ends, lead from the vacant line to the owner and the bytes on their way that the
component has. -/
theorem bridge_refines_pipe (cfg : Config) (listen : Bool) (ticks : List Tick) :
    let t := run cfg listen ticks
    Steps Pipe.Step .vacant (pipeEvents t.io) t.pipe := by
  intro t
  have hsame : t.pipe = t.line := (inv_run cfg listen ticks).pipe_eq
  rw [hsame]
  exact steps_run cfg listen ticks

/-- The client socket is that of the last client that was admitted, unless it was closed since. At
each point of a run a client is admitted only while none is connected, and turned away only while
one is, when its socket is closed at once; apart from that, only the connected one is written to,
read from or closed. -/
theorem exclusive_use (cfg : Config) (listen : Bool) (ticks : List Tick) :
    let t := run cfg listen ticks
    t.clientSocket = connected t.io ∧
    ∀ before o after, t.io = before ++ o :: after →
      (∀ transition id conn drops, o = .accepted transition id conn drops →
        connected before = none) ∧
      (∀ conn, o = .rejected conn → (connected before).isSome = true) ∧
      (∀ conn offered answer, o = .write conn offered answer → connected before = some conn) ∧
      (∀ conn want answer, o = .read conn want answer → connected before = some conn) ∧
      (∀ conn, o = .closed conn → connected before = some conn) := by
  intro t
  have hsame : t.pipe = t.line := (inv_run cfg listen ticks).pipe_eq
  have hrefines : Steps Pipe.Step .vacant (pipeEvents t.io) t.line := steps_run cfg listen ticks
  refine ⟨(congrArg Pipe.owner hsame).trans (Pipe.owner_eq hrefines), fun before o after hio => ?_⟩
  have hallowed : ∀ e, o.pipeEvents = [e] →
      Pipe.Allowed (connected before) (connected before) e := by
    intro e he
    have hsplit : pipeEvents t.io = pipeEvents before ++ e :: pipeEvents after := by
      rw [hio, pipeEvents_append, pipeEvents_cons, he, List.singleton_append]
    rw [hsplit] at hrefines
    have hallowed := Pipe.allowed_of_steps hrefines
    rwa [Pipe.heldAfter_eq_ownerAfter (reset_not_mem_pipeEvents before)] at hallowed
  refine ⟨?_, ?_, ?_, ?_, ?_⟩
  · rintro transition id conn drops rfl
    exact (hallowed _ rfl).1
  · rintro conn rfl
    exact hallowed _ rfl
  · rintro conn offered answer rfl
    exact hallowed _ rfl
  · rintro conn want answer rfl
    exact hallowed _ rfl
  · rintro conn rfl
    exact hallowed _ rfl

end Texecom
end TexecomBridge
