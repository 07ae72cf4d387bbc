import TexecomBridge.Texecom.PanelBound
import TexecomBridge.Library.Segments

/-!
# One client at a time

A tenure is what is observed from the accept of one client to that of the next. In each the panel is
handed what was read from that client and from no other, even though bytes stay queued after their
session ends.
-/

namespace TexecomBridge

/-- The connection that is admitted. -/
def Obs.admits : Obs → Option Conn
  | .accepted _ _ conn _ => some conn
  | _ => none

/-- The connection that is read from, written to or closed, but for those that are turned away. -/
def Obs.peer : Obs → Option Conn
  | .write conn _ _ => some conn
  | .read conn _ _ => some conn
  | .closed conn => some conn
  | _ => none

/-- What is observed from each accept to the next, newest first. -/
def tenures (io : List Obs) : List (Conn × List Obs) := io.segments Obs.admits

lemma admits_eq_none {o : Obs} (h : o.inSession) : o.admits = none := by
  cases o with
  | accepted => exact h.elim
  | _ => rfl

/-- During a tenure the panel was handed what was read from its client, but for what is queued, and
no other client was dealt with. -/
structure Tenure (s : Conn × List Obs) (queued : List UInt8) : Prop where
  stream : panelTx s.2 ++ queued = clientRx s.2
  peer : ∀ o ∈ s.2, ∀ conn, o.peer = some conn → conn = s.1

namespace Texecom

/-- From `t` to `t'` no client is admitted, only the connected one is dealt with, and the ring takes
what is read and gives what the panel is handed. -/
def Serves (t t' : Texecom) : Prop :=
  ∃ io, t'.io = t.io ++ io ∧ (∀ o ∈ io, o.admits = none) ∧
    (∀ o ∈ io, ∀ conn, o.peer = some conn → t.clientSocket = some conn) ∧
    panelTx io ++ t'.tcpToUart.toList = t.tcpToUart.toList ++ clientRx io ∧
    (t.clientSocket = none → clientRx io = []) ∧
    (t'.clientSocket = none ∨ t'.clientSocket = t.clientSocket)

variable {t t' : Texecom}

/-- Steps that move no panel-bound byte. -/
lemma Serves.of_quiet {io : List Obs} (hio : t'.io = t.io ++ io)
    (hadmits : ∀ o ∈ io, o.admits = none)
    (hpeer : ∀ o ∈ io, ∀ conn, o.peer = some conn → t.clientSocket = some conn)
    (hring : t'.tcpToUart = t.tcpToUart) (htx : panelTx io = []) (hrx : clientRx io = [])
    (hclient : t'.clientSocket = none ∨ t'.clientSocket = t.clientSocket) : t.Serves t' := by
  refine ⟨io, hio, hadmits, hpeer, ?_, fun _ => hrx, hclient⟩
  rw [htx, hrx, hring, List.nil_append, List.append_nil]

lemma Serves.trans {t'' : Texecom} (h : t.Serves t') (h' : t'.Serves t'') : t.Serves t'' := by
  obtain ⟨io, hio, hadmits, hpeer, hring, hquiet, hclient⟩ := h
  obtain ⟨io', hio', hadmits', hpeer', hring', hquiet', hclient'⟩ := h'
  have hback : ∀ conn, t'.clientSocket = some conn → t.clientSocket = some conn := by
    intro conn hconn
    rcases hclient with hclient | hclient
    · rw [hclient] at hconn
      cases hconn
    · rwa [hclient] at hconn
  refine ⟨io ++ io', ?_, ?_, ?_, ?_, ?_, ?_⟩
  · rw [hio', hio, List.append_assoc]
  · exact List.forall_mem_append.mpr ⟨hadmits, hadmits'⟩
  · exact List.forall_mem_append.mpr
      ⟨hpeer, fun o ho conn hconn => hback conn (hpeer' o ho conn hconn)⟩
  · rw [panelTx_append, List.append_assoc, hring', ← List.append_assoc, hring, clientRx_append,
      List.append_assoc]
  · intro hnone
    have hnone' : t'.clientSocket = none := by
      rw [hnone] at hclient
      exact or_self_iff.mp hclient
    rw [clientRx_append, hquiet hnone, hquiet' hnone', List.nil_append]
  · rcases hclient' with hclient' | hclient'
    · exact .inl hclient'
    · rwa [hclient']

lemma serves_beginTick (t : Texecom) : t.Serves t.beginTick :=
  .of_quiet rfl (by simp [Obs.admits]) (by simp [Obs.peer]) rfl rfl rfl (.inr rfl)

lemma serves_turnAway (t : Texecom) (pending : Conn) : t.Serves (t.turnAway pending) :=
  .of_quiet rfl (by simp [Obs.admits]) (by simp [Obs.peer]) rfl rfl rfl (.inr rfl)

lemma serves_pumpStep {inp : Tick} (h : PumpStep inp t t') : t.Serves t' := by
  cases h with
  | receiveFromUart =>
    exact .of_quiet rfl (by simp [Obs.admits]) (by simp [Obs.peer]) rfl rfl rfl (.inr rfl)
  | send conn hsession hclient =>
    obtain ⟨hwrites, -, -⟩ := sendLoop_spec inp conn 0 t.sendState
    obtain ⟨htx, hrx, -⟩ := quiet_sendLoop inp conn 0 t.sendState
    refine .of_quiet rfl ?_ ?_ rfl htx hrx (.inr rfl)
    · exact fun o ho => admits_eq_none (inSession_sendLoop inp conn 0 t.sendState o ho)
    · intro o ho peer hpeer
      obtain ⟨offered, answer, rfl⟩ := hwrites o ho
      rwa [← hpeer] at *
  | read conn hsession hclient =>
    obtain ⟨hreads, hring, -⟩ := readLoop_spec inp conn 0 t.tcpToUart t.capture
    obtain ⟨htx, -⟩ := quiet_readLoop inp conn 0 t.tcpToUart t.capture
    refine ⟨_, rfl, ?_, ?_, ?_, ?_, .inr rfl⟩
    · exact fun o ho => admits_eq_none (inSession_readLoop inp conn 0 t.tcpToUart t.capture o ho)
    · intro o ho peer hpeer
      obtain ⟨want, answer, rfl⟩ := hreads o ho
      rwa [← hpeer] at *
    · rw [htx]
      exact hring
    · intro hnone
      rw [hclient] at hnone
      cases hnone
  | disconnect conn hsession hclient =>
    refine .of_quiet rfl ?_ ?_ rfl rfl rfl (.inl rfl)
    · simp [Obs.admits]
    · simp [Obs.peer, hclient]
  | sendToUart =>
    obtain ⟨hbytes, hempty⟩ := drainToUart_spec t.tcpToUart
    obtain ⟨htx, hrx, -⟩ := quiet_uartTx (drainToUart t.tcpToUart).1
    refine ⟨_, rfl, ?_, ?_, ?_, fun _ => hrx, .inr rfl⟩
    · exact fun o ho => admits_eq_none (inSession_uartTx _ o ho)
    · intro o ho peer hpeer
      obtain ⟨b, -, rfl⟩ := List.mem_map.mp ho
      cases hpeer
    · rw [htx, hrx, hbytes, List.append_nil]
      exact (congrArg _ hempty).trans (List.append_nil _)
  | captureLoop =>
    exact .of_quiet (List.append_nil _).symm (by simp) (by simp) rfl rfl rfl (.inr rfl)

lemma serves_pumpSteps {inp : Tick} (h : PumpSteps inp t t') : t.Serves t' := by
  induction h with
  | refl => exact .of_quiet (List.append_nil _).symm (by simp) (by simp) rfl rfl rfl (.inr rfl)
  | tail _ hstep ih => exact ih.trans (serves_pumpStep hstep)

/-! ### Tenures -/

/-- The newest tenure is that of the client connected now or last, and its bytes are the only ones
queued for the panel. -/
inductive Isolated (t : Texecom) : Prop
  | vacant (tenures_eq : tenures t.io = []) (client : t.clientSocket = none)
    (queued : t.tcpToUart.toList = []) (tx : panelTx t.io = []) (rx : clientRx t.io = [])
  | held (s : Conn × List Obs) (past : List (Conn × List Obs))
    (tenures_eq : tenures t.io = s :: past)
    (client : t.clientSocket = none ∨ t.clientSocket = some s.1)
    (newest : Tenure s t.tcpToUart.toList) (older : ∀ s ∈ past, ∃ lost, Tenure s lost)
    (tx : panelTx t.io = (tenures t.io).reverse.flatMap fun s => panelTx s.2)
    (rx : clientRx t.io = (tenures t.io).reverse.flatMap fun s => clientRx s.2)

lemma Isolated.serves (h : t.Isolated) (hserves : t.Serves t') : t'.Isolated := by
  obtain ⟨io, hio, hadmits, hpeer, hring, hquiet, hclient⟩ := hserves
  have htenures := List.segments_append_unmarked t.io hadmits
  rw [← hio] at htenures
  cases h with
  | vacant tenures_eq client queued tx rx =>
    have hrx := hquiet client
    rw [queued, hrx, List.append_nil, List.append_eq_nil_iff] at hring
    rw [client] at hclient
    refine .vacant ?_ (or_self_iff.mp hclient) hring.2 ?_ ?_
    · rw [tenures, htenures]
      exact congrArg (List.modifyHead _) tenures_eq
    · rw [hio, panelTx_append, tx, hring.1, List.append_nil]
    · rw [hio, clientRx_append, rx, hrx, List.append_nil]
  | held s past tenures_eq client newest older tx rx =>
    have hsegments : t.io.segments Obs.admits = s :: past := tenures_eq
    have hgrown : tenures t'.io = (s.1, s.2 ++ io) :: past := by
      rw [tenures, htenures, hsegments, List.modifyHead_cons]
    refine .held (s.1, s.2 ++ io) past hgrown ?_ ⟨?_, ?_⟩ older ?_ ?_
    · rcases hclient with hclient | hclient
      · exact .inl hclient
      · rwa [hclient]
    · rw [panelTx_append, List.append_assoc, hring, ← List.append_assoc, newest.stream,
        clientRx_append]
    · intro o ho conn hconn
      rcases List.mem_append.mp ho with ho | ho
      · exact newest.peer o ho conn hconn
      · have hheld := hpeer o ho conn hconn
        rw [hheld] at client
        simpa using client
    · rw [hgrown, hio, panelTx_append, tx, tenures_eq]
      simp
    · rw [hgrown, hio, clientRx_append, rx, tenures_eq]
      simp

/-- All bytes were read, and handed to the panel, in some tenure. -/
lemma Isolated.account (h : t.Isolated) : (∀ s ∈ tenures t.io, ∃ queued, Tenure s queued) ∧
    panelTx t.io = ((tenures t.io).reverse.flatMap fun s => panelTx s.2) ∧
    clientRx t.io = (tenures t.io).reverse.flatMap fun s => clientRx s.2 := by
  cases h with
  | vacant tenures_eq client queued tx rx =>
    rw [tenures_eq, tx, rx]
    exact ⟨by simp, rfl, rfl⟩
  | held s past tenures_eq client newest older tx rx =>
    refine ⟨?_, tx, rx⟩
    rw [tenures_eq]
    exact List.forall_mem_cons.mpr ⟨⟨_, newest⟩, older⟩

/-- A new tenure starts with nothing queued: what its predecessor left is lost. -/
lemma Isolated.enterBridge (h : t.Isolated) (inp : Tick) (pending : Conn) :
    (t.enterBridge inp pending).Isolated := by
  obtain ⟨hpast, htx, hrx⟩ := h.account
  have hgrown : tenures (t.enterBridge inp pending).io = (pending, []) :: tenures t.io :=
    List.segments_concat_marked _ rfl
  have hqueued : (t.enterBridge inp pending).tcpToUart.toList = [] := RingBuffer.toList_clear _
  refine .held (pending, []) (tenures t.io) hgrown (.inr rfl) ⟨?_, by simp⟩ hpast ?_ ?_
  · rw [hqueued]
    rfl
  · rw [hgrown, List.reverse_cons, List.flatMap_append, ← htx, Texecom.enterBridge, panelTx_append]
    rfl
  · rw [hgrown, List.reverse_cons, List.flatMap_append, ← hrx, Texecom.enterBridge, clientRx_append]
    rfl

lemma isolated_run (cfg : Config) (listen : Bool) (ticks : List Tick) :
    (run cfg listen ticks).Isolated := by
  apply run_induction (P := Isolated) cfg listen
  · exact .vacant rfl rfl rfl rfl rfl
  · exact fun t h => h.serves (serves_beginTick t)
  · exact fun t pending _ h => h.serves (serves_turnAway t pending)
  · exact fun t inp pending _ _ _ _ h => h.enterBridge inp pending
  · exact fun inp t t' _ hstep h => h.serves (serves_pumpStep hstep)

/-! ### What is left in the ring -/

variable {cc : Capture.Config}

lemma Inv.uart_acceptPendingClient (h : t.Inv cc) (inp : Tick) :
    (t.acceptPendingClient inp).uart = t.uart := by
  rcases h.acceptPendingClient_cases inp with
    ⟨-, heq⟩ | ⟨pending, -, -, ⟨-, heq⟩ | ⟨-, heq⟩⟩
  · rw [heq]
  · rw [heq]
    rfl
  · rw [heq]
    rfl

/-- The accept adds nothing to the ring. -/
lemma Inv.queued_acceptPendingClient (h : t.Inv cc) (hnone : t.tcpToUart.toList = [])
    (inp : Tick) : (t.acceptPendingClient inp).tcpToUart.toList = [] := by
  rcases h.acceptPendingClient_cases inp with
    ⟨-, heq⟩ | ⟨pending, -, -, ⟨-, heq⟩ | ⟨-, heq⟩⟩
  · rw [heq]
    exact hnone
  · rw [heq]
    exact hnone
  · rw [heq]
    exact RingBuffer.toList_clear _

lemma uart_pumpSteps {inp : Tick} (h : PumpSteps inp t t') : t'.uart = t.uart := by
  induction h with
  | refl => rfl
  | tail _ hstep ih =>
    rw [← ih]
    cases hstep <;> rfl

lemma Inv.uart_loop (h : t.Inv cc) (inp : Tick) :
    (t.loop inp).uart = t.uart := by
  rw [uart_pumpSteps (loop_steps (h.beginTick.acceptPendingClient inp))]
  exact h.beginTick.uart_acceptPendingClient inp

lemma uart_run (cfg : Config) (listen : Bool) (ticks : List Tick) :
    (run cfg listen ticks).uart = cfg.uart := by
  induction ticks using List.reverseRecOn with
  | nil => rfl
  | append_singleton ticks inp ih => rw [run_concat, (inv_run cfg listen ticks).uart_loop, ih]

/-- The second pump empties the ring unless it ends the session. -/
lemma Inv.queued_pumpTcpToUart (h : t.Inv cc) (huart : t.uart = true)
    (inp : Tick) : (t.pumpTcpToUart inp).tcpToUart.toList = [] ∨
      t.clientSocket.isSome = true ∧ (t.pumpTcpToUart inp).clientSocket = none := by
  have hempty : ∀ t : Texecom, t.sendToUart.tcpToUart.toList = [] :=
    fun t => (drainToUart_spec t.tcpToUart).2
  unfold Texecom.pumpTcpToUart
  rw [huart, Bool.not_true, if_neg Bool.false_ne_true]
  rcases h.client_cases with hclient | ⟨conn, hclient, hsession, hmode⟩
  · rw [receiveFromClient_of_no_client hclient]
    exact .inl (hempty t)
  · rw [receiveFromClient_of_client hmode hclient]
    cases (readLoop inp conn 0 t.tcpToUart t.capture).ended with
    | true =>
      simp only
      rw [endSession_eq (by exact hsession) (by exact hclient)]
      exact .inr ⟨by rw [hclient]; rfl, rfl⟩
    | false => exact .inl (hempty _)

/-- What a tick leaves in the ring is left by a session that ends in it. -/
lemma Inv.queued_loop (h : t.Inv cc)
    (hnone : t.uart = false → t.tcpToUart.toList = []) (inp : Tick) :
    (t.loop inp).tcpToUart.toList = [] ∨ t.uart = true ∧
      (t.beginTick.acceptPendingClient inp).clientSocket.isSome = true ∧
      (t.loop inp).clientSocket = none := by
  have haccepted := h.beginTick.acceptPendingClient inp
  have hsteps := haccepted.pumpUartToTcp_steps inp
  have huart : (t.beginTick.acceptPendingClient inp).uart = t.uart :=
    h.beginTick.uart_acceptPendingClient inp
  cases ht : t.uart with
  | false =>
    rw [ht] at huart
    have hloop : t.loop inp = (t.beginTick.acceptPendingClient inp).captureLoop inp := by
      simp [Texecom.loop, pumpUartToTcp, pumpTcpToUart, huart]
    rw [hloop]
    exact .inl (h.beginTick.queued_acceptPendingClient (hnone ht) inp)
  | true =>
    rw [← uart_pumpSteps hsteps, ht] at huart
    rcases (haccepted.pumpSteps hsteps).queued_pumpTcpToUart huart inp with hempty | ⟨hclient, hend⟩
    · exact .inl hempty
    · refine .inr ⟨rfl, ?_, hend⟩
      obtain ⟨-, -, -, -, -, -, hkept⟩ := serves_pumpSteps hsteps
      rcases hkept with hkept | hkept
      · rw [hkept] at hclient
        cases hclient
      · rwa [← hkept]

lemma queued_of_no_uart (cfg : Config) (listen : Bool) (ticks : List Tick) :
    (run cfg listen ticks).uart = false → (run cfg listen ticks).tcpToUart.toList = [] := by
  induction ticks using List.reverseRecOn with
  | nil => exact fun _ => rfl
  | append_singleton ticks inp ih =>
    have h := inv_run cfg listen ticks
    rw [run_concat]
    intro huart
    rw [h.uart_loop] at huart
    rcases h.queued_loop ih inp with hempty | ⟨ht, -⟩
    · exact hempty
    · exact absurd (huart.symm.trans ht) Bool.false_ne_true

/-- Between sessions a tick without an accept hands everything queued to the panel. -/
lemma Inv.hands_over {cc : Capture.Config} (h : t.Inv cc)
    (hnone : t.uart = false → t.tcpToUart.toList = []) (hclient : t.clientSocket = none)
    {inp : Tick} (haccept : t.listener = false ∨ inp.accept = none) :
    (t.loop inp).tcpToUart.toList = [] ∧
      panelTx (t.loop inp).io = panelTx t.io ++ t.tcpToUart.toList := by
  have hsame : t.beginTick.acceptPendingClient inp = t.beginTick :=
    acceptPendingClient_of_none haccept
  have hsteps := loop_steps (h.beginTick.acceptPendingClient inp)
  have hqueued := h.queued_loop hnone inp
  rw [hsame] at hsteps hqueued
  have hempty : (t.loop inp).tcpToUart.toList = [] := by
    rcases hqueued with hempty | ⟨-, hsome, -⟩
    · exact hempty
    · rw [show t.beginTick.clientSocket = none from hclient] at hsome
      cases hsome
  obtain ⟨io, hio, -, -, hring, hquiet, -⟩ := (serves_beginTick t).trans (serves_pumpSteps hsteps)
  rw [hempty, hquiet hclient, List.append_nil, List.append_nil] at hring
  exact ⟨hempty, by rw [hio, panelTx_append, hring]⟩

/-! ### Runs -/

/-- In each tenure the panel is handed a prefix of what was read from its client, no other client is
read from or written to, none is closed but those that are turned away, and nothing is read or
handed over outside of a tenure. What is queued is what the newest client sent and the panel has not
been handed; it is only there when the session of that client ended in the last tick, and the next
tick hands it over unless it admits a client. -/
theorem panel_stream_per_client (cfg : Config) (listen : Bool) (ticks : List Tick) :
    let t := run cfg listen ticks
    panelTx t.io = ((tenures t.io).reverse.flatMap fun s => panelTx s.2) ∧
    clientRx t.io = ((tenures t.io).reverse.flatMap fun s => clientRx s.2) ∧
    (∀ s ∈ tenures t.io, panelTx s.2 <+: clientRx s.2 ∧
      ∀ o ∈ s.2, ∀ conn, o.peer = some conn → conn = s.1) ∧
    (∀ s past, tenures t.io = s :: past → panelTx s.2 ++ t.tcpToUart.toList = clientRx s.2 ∧
      (t.clientSocket = none ∨ t.clientSocket = some s.1)) ∧
    (t.clientSocket.isSome = true → t.tcpToUart.toList = []) ∧
    (t.clientSocket = none → ∀ inp, t.listener = false ∨ inp.accept = none →
      (run cfg listen (ticks ++ [inp])).tcpToUart.toList = [] ∧
      panelTx (run cfg listen (ticks ++ [inp])).io = panelTx t.io ++ t.tcpToUart.toList) := by
  intro t
  have h : t.Isolated := isolated_run cfg listen ticks
  have hinv : t.Inv (Capture.configured cfg.capture).config := inv_run cfg listen ticks
  obtain ⟨hpast, htx, hrx⟩ := h.account
  refine ⟨htx, hrx, ?_, ?_, ?_, ?_⟩
  · intro s hs
    obtain ⟨lost, hstream, hpeer⟩ := hpast s hs
    exact ⟨⟨lost, hstream⟩, hpeer⟩
  · intro s past hs
    cases h with
    | vacant tenures_eq client queued tx rx =>
      rw [tenures_eq] at hs
      cases hs
    | held s' past' tenures_eq client newest older tx rx =>
      rw [tenures_eq] at hs
      obtain ⟨rfl, rfl⟩ := List.cons.inj hs
      exact ⟨newest.stream, client⟩
  · intro hclient
    induction ticks using List.reverseRecOn with
    | nil => rfl
    | append_singleton ticks inp _ =>
      have hbefore :=
        (inv_run cfg listen ticks).queued_loop (queued_of_no_uart cfg listen ticks) inp
      rw [← run_concat] at hbefore
      rcases hbefore with hempty | ⟨-, -, hnone⟩
      · exact hempty
      · rw [hnone] at hclient
        cases hclient
  · intro hclient inp haccept
    rw [run_concat]
    exact hinv.hands_over (queued_of_no_uart cfg listen ticks) hclient haccept

end Texecom
end TexecomBridge
