import TexecomBridge.Texecom.ClientBound
import TexecomBridge.Texecom.Isolation
import TexecomBridge.Texecom.TickBound

/-!
# A transparent pipe

To a client that takes all it is offered, the bridge is a pipe without loss: between ticks it has
been sent all that was read from the panel. To a client that takes a byte at a time, what is pending
is delivered in as many ticks as it has bytes.
-/

namespace TexecomBridge

/-! ### What a client and a panel can do in a tick -/

/-- Every write is taken in full. -/
def Tick.TakesAll (inp : Tick) : Prop := ∀ k offered, inp.write k offered = .sent offered

/-- Of every write something is taken. -/
def Tick.TakesSome (inp : Tick) : Prop :=
  ∀ k offered, 0 < offered → ∃ n, 0 < n ∧ inp.write k offered = .sent n

/-- The panel sends nothing. -/
def Tick.Silent (inp : Tick) : Prop := ∀ k b, inp.uart k ≠ .byte b

/-- No read ends the session. -/
def Tick.StaysOpen (inp : Tick) : Prop := ∀ k want, (inp.read k want).endsSession = false

/-- A tick in which a client connects and the panel sends a byte. -/
def Tick.arrival (pending : Conn) (b : UInt8) : Tick :=
  { Tick.quiet with
    accept := some pending
    uart := fun k => if k = 0 then .byte b else .unavailable }

/-- The tick, but the client takes all it is offered. -/
def Tick.taking (inp : Tick) : Tick :=
  { inp with
    write := fun _ offered => .sent offered
    write_le := by
      intro k offered n hsent
      cases hsent
      exact le_rfl }

/-! ### The loops -/

/-- With room for a whole batch, nothing is dropped. -/
lemma drainUart_of_room (uart : ℕ → UartAnswer) (room : ℕ) (batch : List UInt8)
    (ring : RingBuffer UInt8 kBufferSize) (drops : UInt32)
    (hroom : ring.size + room ≤ kBufferSize) :
    ∃ new, (drainUart uart room batch ring drops).batch = batch ++ new ∧
      (drainUart uart room batch ring drops).ring.toList = ring.toList ++ new ∧
      (drainUart uart room batch ring drops).drops = drops := by
  induction room generalizing batch ring with
  | zero => exact ⟨[], by simp [drainUart]⟩
  | succ room ih =>
    cases hanswer : uart batch.length with
    | unavailable => exact ⟨[], by simp [drainUart, hanswer]⟩
    | failed => exact ⟨[], by simp [drainUart, hanswer]⟩
    | byte b =>
      have hfree : ring.size < kBufferSize := by omega
      have hpush : pushDroppingOldest b ring drops = (ring.put b, drops) := by
        rw [pushDroppingOldest, RingBuffer.push_of_room hfree]
      have hsize : Circular.size (ring.put b) = ring.size + 1 := Circular.size_put hfree b
      obtain ⟨new, hbatch, hring, hdrops⟩ := ih (batch ++ [b]) (ring.put b) (by rw [hsize]; omega)
      refine ⟨b :: new, ?_⟩
      rw [drainUart, hanswer]
      simp only [hpush]
      rw [hbatch, hring, hdrops, Circular.toList_put hfree]
      simp

/-- Without a byte from the panel the ring stays as it is. -/
lemma drainUart_of_silent {inp : Tick} (hsilent : inp.Silent) (room : ℕ) (batch : List UInt8)
    (ring : RingBuffer UInt8 kBufferSize) (drops : UInt32) :
    (drainUart inp.uart room batch ring drops).batch = batch ∧
      (drainUart inp.uart room batch ring drops).ring = ring ∧
      (drainUart inp.uart room batch ring drops).drops = drops := by
  cases room with
  | zero => exact ⟨rfl, rfl, rfl⟩
  | succ room =>
    cases hanswer : inp.uart batch.length with
    | byte b => exact absurd hanswer (hsilent _ b)
    | _ => simp [drainUart, hanswer]

/-- Nothing is offered only when nothing is pending. -/
lemma SendState.pending_of_remaining_topUp {s : SendState} (h : s.topUp.remaining = []) :
    s.pending = [] := by
  by_cases hstage : s.off ≥ s.stage.length
  · have hsize := size_refill kSendStageSize [] s.ring
    have hbytes := (refill_spec kSendStageSize [] s.ring).1
    have hnone : (refill kSendStageSize [] s.ring).1 = [] := by
      simpa [topUp, hstage, remaining] using h
    rw [hnone, List.nil_append, List.nil_append] at hbytes
    have hlength := congrArg List.length hbytes
    rw [Circular.length_toList, Circular.length_toList] at hlength
    have hempty : s.ring.toList = [] := by
      rw [Circular.toList_eq_nil_iff]
      simp only [kSendStageSize] at hsize hlength
      omega
    rw [pending, hempty, List.drop_of_length_le hstage, List.append_nil]
  · have hleft : s.topUp.remaining = s.stage.drop s.off := by
      rw [topUp, if_neg hstage]
      rfl
    rw [hleft, List.drop_eq_nil_iff] at h
    exact absurd h hstage

/-- When all that is offered is taken, the loop goes on until nothing is pending. -/
lemma sendLoop_of_takesAll {inp : Tick} (htakes : inp.TakesAll) (conn : Conn) (k : ℕ)
    (s : SendState) : (sendLoop inp conn k s).failed = false ∧
      (sendLoop inp conn k s).state.pending = [] := by
  induction k, s using sendLoop.induct inp conn with
  | case1 k s hempty =>
    rw [sendLoop, dif_pos hempty]
    refine ⟨rfl, ?_⟩
    simp only
    rw [s.pending_topUp]
    exact SendState.pending_of_remaining_topUp hempty
  | case2 k s hempty hanswer =>
    rw [htakes] at hanswer
    cases hanswer
  | case3 k s hempty hanswer =>
    rw [htakes] at hanswer
    cases hanswer
  | case4 k s hempty n hanswer hshort =>
    rw [htakes] at hanswer
    cases hanswer
    exact absurd hshort (lt_irrefl _)
  | case5 k s hempty n hanswer hfull ih =>
    rw [sendLoop, dif_neg hempty, hanswer]
    simp only [if_neg hfull]
    exact ih

/-- When something of each offer is taken, something that is pending is sent. -/
lemma sendLoop_of_takesSome {inp : Tick} (htakes : inp.TakesSome) (conn : Conn) (k : ℕ)
    (s : SendState) : (sendLoop inp conn k s).failed = false ∧
      (s.pending ≠ [] → clientTx (sendLoop inp conn k s).io ≠ []) := by
  induction k, s using sendLoop.induct inp conn with
  | case1 k s hempty =>
    rw [sendLoop, dif_pos hempty]
    exact ⟨rfl, fun h => absurd (SendState.pending_of_remaining_topUp hempty) h⟩
  | case2 k s hempty hanswer =>
    obtain ⟨n, -, hsent⟩ := htakes k _ (List.length_pos_iff.mpr hempty)
    rw [hanswer] at hsent
    cases hsent
  | case3 k s hempty hanswer =>
    obtain ⟨n, -, hsent⟩ := htakes k _ (List.length_pos_iff.mpr hempty)
    rw [hanswer] at hsent
    cases hsent
  | case4 k s hempty n hanswer hshort =>
    obtain ⟨m, hm, hsent⟩ := htakes k _ (List.length_pos_iff.mpr hempty)
    rw [hanswer] at hsent
    cases hsent
    rw [sendLoop, dif_neg hempty, hanswer]
    simp only [if_pos hshort]
    refine ⟨trivial, fun _ => ?_⟩
    simp [clientTx, Obs.clientTx, hempty, hm.ne']
  | case5 k s hempty n hanswer hfull ih =>
    rw [sendLoop, dif_neg hempty, hanswer]
    simp only [if_neg hfull]
    refine ⟨ih.1, fun _ hnone => ?_⟩
    have hfirst : s.topUp.remaining.take n = [] := (List.append_eq_nil_iff.mp hnone).1
    rw [List.take_of_length_le (not_lt.mp hfull)] at hfirst
    exact hempty hfirst

/-- All that was read from the panel was sent to the client. -/
structure Session.Complete (s : Session) : Prop where
  sent_eq : s.sent = s.received 0
  drops_eq : ∀ drops, s.ended = some drops → drops.uartToTcp = s.began.uartToTcp

namespace Texecom

variable {cc : Capture.Config} {t t' : Texecom}

/-- What holds of the second pump's steps holds of all of it. -/
lemma Inv.pumpTcpToUart_rule {P : Texecom → Prop} (h : t.Inv cc) (inp : Tick)
    (read : ∀ conn, t.clientSocket = some conn →
      P (t.afterRead (readLoop inp conn 0 t.tcpToUart t.capture)))
    (disconnect : ∀ t' conn, t'.clientSocket = some conn → P t' → P (t'.disconnect inp.atEnd conn))
    (sendToUart : ∀ t', P t' → P t'.sendToUart) (ht : P t) : P (t.pumpTcpToUart inp) := by
  unfold Texecom.pumpTcpToUart
  split_ifs
  · exact ht
  · rcases h.client_cases with hclient | ⟨conn, hclient, hsession, hmode⟩
    · rw [receiveFromClient_of_no_client hclient]
      exact sendToUart _ ht
    · rw [receiveFromClient_of_client hmode hclient]
      cases (readLoop inp conn 0 t.tcpToUart t.capture).ended with
      | true =>
        simp only
        rw [endSession_eq (by exact hsession) (by exact hclient)]
        exact disconnect _ conn hclient (read conn hclient)
      | false => exact sendToUart _ (read conn hclient)

/-! ### A client that takes all it is offered -/

/-- No byte is lost: the live session has been sent what was read but for what is pending, and all
others are complete. -/
inductive Lossless (t : Texecom) : Prop
  | monitor (past : List Session) (roster : t.Roster none past) (complete : ∀ s ∈ past, s.Complete)
  | bridge (s : Session) (past : List Session) (roster : t.Roster (some s) past)
    (stream : s.sent ++ t.sendState.pending = s.received 0)
    (drops : t.uartToTcpDrops = s.began.uartToTcp) (complete : ∀ s ∈ past, s.Complete)

/-- Nothing is staged or queued for a client. -/
def Flushed (t : Texecom) : Prop := t.clientSocket.isSome = true → t.sendState.pending = []

namespace Lossless

/-- Steps that leave the stream and the buffers alone. -/
lemma of_quiet (h : t.Lossless) {io : List Obs} (hrx : panelRx io = []) (htx : clientTx io = [])
    (hroster : ∀ {live past}, t.Roster live past → t'.Roster (live.map (·.extend io)) past)
    (hstate : t'.sendState = t.sendState) (hdrops : t'.uartToTcpDrops = t.uartToTcpDrops) :
    t'.Lossless := by
  cases h with
  | monitor past roster complete => exact .monitor past (hroster roster) complete
  | bridge s past roster stream drops complete =>
    refine .bridge (s.extend io) past (hroster roster) ?_ (hdrops.trans drops) complete
    rw [(s.received_extend io).1, hrx, List.append_nil, hstate]
    simpa [Session.extend, htx] using stream

lemma enterBridge (h : t.Lossless) (hclient : t.clientSocket = none) (inp : Tick)
    (pending : Conn) : (t.enterBridge inp pending).Lossless := by
  cases h with
  | monitor past roster complete =>
    exact .bridge _ past (roster.enterBridge inp pending) rfl rfl complete
  | bridge s past roster stream drops complete =>
    rw [roster.clientSocket_eq] at hclient
    cases hclient

/-- With nothing pending there is room for a batch. -/
lemma receiveFromUart (h : t.Lossless) (hflushed : t.Flushed) (inp : Tick) :
    (t.receiveFromUart inp).Lossless := by
  cases h with
  | monitor past roster complete => exact .monitor past (roster.receiveFromUart inp) complete
  | bridge s past roster stream drops complete =>
    have hpending : t.sendState.pending = [] := by
      apply hflushed
      rw [roster.clientSocket_eq]
      rfl
    obtain ⟨hstage, hqueue⟩ := List.append_eq_nil_iff.mp hpending
    have hsize : t.uartToTcp.size = 0 := Circular.toList_eq_nil_iff.mp hqueue
    obtain ⟨new, hbatch, hring, hdrops⟩ := drainUart_of_room inp.uart kBatchSize [] t.uartToTcp
      t.uartToTcpDrops (by rw [hsize]; decide)
    refine .bridge _ past (roster.receiveFromUart inp) ?_ (hdrops.trans drops) complete
    have hpending' : (t.receiveFromUart inp).sendState.pending = new := by
      have hqueue' : t.uartToTcp.toList = [] := hqueue
      have hstage' : t.sendStage.drop t.sendStageOff = [] := hstage
      change t.sendStage.drop t.sendStageOff ++ (t.drained inp).ring.toList = new
      rw [hstage', hring, hqueue', List.nil_append, List.nil_append]
    have hrx : panelRx [.uartRx (t.drained inp).batch (t.drained inp).reads] = new := by
      rw [drained, hbatch]
      exact List.append_nil _
    rw [(s.received_extend _).1, hrx, hpending', ← stream, hpending, List.append_nil]
    simp [Session.extend, clientTx, Obs.clientTx]

/-- Bytes that are sent are the first of those pending. -/
lemma afterSend (h : t.Lossless) (inp : Tick) (conn : Conn) :
    (t.afterSend (sendLoop inp conn 0 t.sendState)).Lossless := by
  cases h with
  | monitor past roster complete => exact .monitor past (roster.afterSend inp conn) complete
  | bridge s past roster stream drops complete =>
    obtain ⟨-, hpending, -⟩ := sendLoop_spec inp conn 0 t.sendState
    obtain ⟨-, -, -, -, hrx⟩ := quiet_sendLoop inp conn 0 t.sendState
    refine .bridge _ past (roster.afterSend inp conn) ?_ drops complete
    rw [(s.received_extend _).1, hrx, List.append_nil, ← stream, ← hpending, ← List.append_assoc]
    rfl

/-- A session that ends with nothing pending is complete. -/
lemma disconnect (h : t.Lossless) (hflushed : t.Flushed) {conn : Conn}
    (hclient : t.clientSocket = some conn) (p : Platform) : (t.disconnect p conn).Lossless := by
  cases h with
  | monitor past roster complete =>
    rw [roster.clientSocket_eq] at hclient
    cases hclient
  | bridge s past roster stream drops complete =>
    have hpending : t.sendState.pending = [] := hflushed (by rw [hclient]; rfl)
    rw [hpending, List.append_nil] at stream
    refine .monitor _ (roster.disconnect p conn) ?_
    refine List.forall_mem_cons.mpr ⟨⟨stream, ?_⟩, complete⟩
    intro ended hended
    cases hended
    exact drops

/-- One tick, in which the client takes all it is offered. -/
lemma loop (h : t.Lossless) (hflushed : t.Flushed) (hinv : t.Inv cc) {inp : Tick}
    (htakes : inp.TakesAll) : (t.loop inp).Lossless ∧ (t.loop inp).Flushed := by
  have hbegun : t.beginTick.Lossless := h.of_quiet rfl rfl (·.beginTick) rfl rfl
  have haccepted : (t.beginTick.acceptPendingClient inp).Lossless ∧
      (t.beginTick.acceptPendingClient inp).Flushed := by
    rcases hinv.beginTick.acceptPendingClient_cases inp with
      ⟨-, heq⟩ | ⟨pending, -, -, ⟨-, heq⟩ | ⟨hmode, heq⟩⟩
    · rw [heq]
      exact ⟨hbegun, hflushed⟩
    · rw [heq]
      exact ⟨hbegun.of_quiet rfl rfl (·.turnAway pending) rfl rfl, hflushed⟩
    · rw [heq]
      exact ⟨hbegun.enterBridge (hinv.beginTick.client_of_mode_ne hmode) inp pending, fun _ => rfl⟩
  have hinv' := hinv.beginTick.acceptPendingClient inp
  generalize hstart : t.beginTick.acceptPendingClient inp = t₁ at haccepted hinv'
  have hpumped : (t₁.pumpUartToTcp inp).Lossless ∧ (t₁.pumpUartToTcp inp).Flushed := by
    unfold Texecom.pumpUartToTcp
    split_ifs
    · exact haccepted
    · have hreceived := haccepted.1.receiveFromUart haccepted.2 inp
      rcases (hinv'.receiveFromUart inp).client_cases with hclient | ⟨conn, hclient, -, hmode⟩
      · rw [sendToClient_of_no_client hclient]
        refine ⟨hreceived, fun hsome => ?_⟩
        rw [hclient] at hsome
        cases hsome
      · obtain ⟨hfailed, hpending⟩ :=
          sendLoop_of_takesAll htakes conn 0 (t₁.receiveFromUart inp).sendState
        rw [sendToClient_of_client hmode hclient, hfailed, if_neg Bool.false_ne_true]
        exact ⟨hreceived.afterSend inp conn, fun _ => hpending⟩
  have hinv'' := hinv'.pumpSteps (hinv'.pumpUartToTcp_steps inp)
  have hread : ((t₁.pumpUartToTcp inp).pumpTcpToUart inp).Lossless ∧
      ((t₁.pumpUartToTcp inp).pumpTcpToUart inp).Flushed := by
    refine hinv''.pumpTcpToUart_rule (P := fun t => t.Lossless ∧ t.Flushed) inp ?_ ?_ ?_ hpumped
    · intro conn hclient
      obtain ⟨-, -, htx, hrx⟩ := quiet_readLoop inp conn 0 (t₁.pumpUartToTcp inp).tcpToUart
        (t₁.pumpUartToTcp inp).capture
      exact ⟨hpumped.1.of_quiet hrx htx (·.afterRead inp conn) rfl rfl, hpumped.2⟩
    · intro t' conn hclient ht'
      exact ⟨ht'.1.disconnect ht'.2 hclient inp.atEnd, fun hsome => by cases hsome⟩
    · intro t' ht'
      obtain ⟨-, -, -, -, htx, hrx⟩ := quiet_uartTx (drainToUart t'.tcpToUart).1
      exact ⟨ht'.1.of_quiet hrx htx (·.sendToUart) rfl rfl, ht'.2⟩
  rw [Texecom.loop, hstart]
  exact ⟨hread.1.of_quiet rfl rfl (·.captureLoop inp) rfl rfl, hread.2⟩

lemma run {cfg : Config} {listen : Bool} {ticks : List Tick}
    (htakes : ∀ inp ∈ ticks, inp.TakesAll) :
    (run cfg listen ticks).Lossless ∧ (Texecom.run cfg listen ticks).Flushed := by
  induction ticks using List.reverseRecOn with
  | nil => exact ⟨.monitor [] (.setup cfg listen) (by simp), fun _ => rfl⟩
  | append_singleton ticks inp ih =>
    obtain ⟨hticks, hinp⟩ := List.forall_mem_append.mp htakes
    obtain ⟨hlossless, hflushed⟩ := ih hticks
    rw [run_concat]
    exact hlossless.loop hflushed (inv_run cfg listen ticks) (hinp inp List.mem_cons_self)

end Lossless

/-- When every write is taken in full, every session has been sent all that was read from the panel
during it, the live one at every tick boundary, and no byte of a session is dropped. -/
theorem transparent {cfg : Config} {listen : Bool} {ticks : List Tick}
    (htakes : ∀ inp ∈ ticks, inp.TakesAll) : let t := run cfg listen ticks
    ∀ s ∈ sessions t.io, s.sent = s.received 0 ∧
      s.began.uartToTcp = (s.ended.map DropCounters.uartToTcp).getD t.uartToTcpDrops := by
  intro t
  obtain ⟨hlossless, hflushed⟩ := @Lossless.run cfg listen ticks htakes
  have hpast : ∀ past : List Session, (∀ s ∈ past, s.ended.isSome = true) →
      (∀ s ∈ past, s.Complete) → ∀ s ∈ past, s.sent = s.received 0 ∧
        s.began.uartToTcp = (s.ended.map DropCounters.uartToTcp).getD t.uartToTcpDrops := by
    intro past hended hcomplete s hs
    obtain ⟨drops, hdrops⟩ := Option.isSome_iff_exists.mp (hended s hs)
    refine ⟨(hcomplete s hs).sent_eq, ?_⟩
    rw [hdrops]
    exact ((hcomplete s hs).drops_eq drops hdrops).symm
  cases hlossless with
  | monitor past roster complete =>
    cases roster with
    | monitor client sessions_eq ended =>
      rw [sessions_eq]
      exact hpast past ended complete
  | bridge s past roster stream drops complete =>
    cases roster with
    | bridge client active sessions_eq live ended =>
      have hpending : t.sendState.pending = [] := by
        apply hflushed
        rw [client]
        rfl
      rw [hpending, List.append_nil] at stream
      rw [sessions_eq]
      refine List.forall_mem_cons.mpr ⟨⟨stream, ?_⟩, hpast past ended complete⟩
      rw [live]
      exact drops.symm

/-- A client that connects as the panel sends a byte is sent that byte. -/
theorem transparent_arrival :
    let t := run ⟨true, none, .none, 8192⟩ true [(Tick.arrival 1 0x41).taking]
    ∃ s, sessions t.io = [s] ∧ s.received 0 = [0x41] ∧ s.sent = [0x41] ∧
      s.began.uartToTcp = (s.ended.map DropCounters.uartToTcp).getD t.uartToTcpDrops := by
  intro t
  have htakes : ∀ inp ∈ [(Tick.arrival 1 0x41).taking], inp.TakesAll := by
    intro inp hinp
    obtain rfl := List.mem_singleton.mp hinp
    exact fun _ _ => rfl
  have hreceived : (sessions t.io).map (·.received 0) = [[0x41]] := by decide +kernel
  obtain ⟨s, hs, hbyte⟩ := List.map_eq_singleton_iff.mp hreceived
  obtain ⟨hsent, hdrops⟩ :=
    @transparent ⟨true, none, .none, 8192⟩ true _ htakes s (hs ▸ List.mem_singleton_self s)
  exact ⟨s, hs, hbyte, hsent.trans hbyte, hdrops⟩

/-! ### A client that takes some of what it is offered -/

/-- From `t` to `t'`, with `io`, a session goes on: nothing is read from the panel, and what the
client is sent was pending. -/
structure Delivers (io : List Obs) (t t' : Texecom) : Prop where
  roster : ∀ {s past}, t.Roster (some s) past → t'.Roster (some (s.extend io)) past
  pending : clientTx io ++ t'.sendState.pending = t.sendState.pending
  panelRx_eq : panelRx io = []
  client_eq : t'.clientSocket = t.clientSocket

namespace Delivers

lemma trans {io io' : List Obs} {t'' : Texecom} (h : t.Delivers io t') (h' : t'.Delivers io' t'') :
    t.Delivers (io ++ io') t'' where
  roster hroster := by
    rw [Session.extend_append]
    exact h'.roster (h.roster hroster)
  pending := by rw [clientTx_append, List.append_assoc, h'.pending, h.pending]
  panelRx_eq := by rw [panelRx_append, h.panelRx_eq, h'.panelRx_eq, List.nil_append]
  client_eq := h'.client_eq.trans h.client_eq

/-- Steps that leave what is pending alone. -/
lemma of_quiet {io : List Obs}
    (hroster : ∀ {live past}, t.Roster live past → t'.Roster (live.map (·.extend io)) past)
    (hstate : t'.sendState = t.sendState) (htx : clientTx io = []) (hrx : panelRx io = [])
    (hclient : t'.clientSocket = t.clientSocket) : t.Delivers io t' where
  roster := hroster
  pending := by rw [htx, hstate, List.nil_append]
  panelRx_eq := hrx
  client_eq := hclient

end Delivers

/-- While a client is connected, the accept turns others away. -/
lemma Inv.delivers_accept (h : t.Inv cc) {conn : Conn} (hclient : t.clientSocket = some conn)
    (inp : Tick) : ∃ io, t.Delivers io (t.acceptPendingClient inp) ∧ clientTx io = [] := by
  rcases h.acceptPendingClient_cases inp with
    ⟨-, heq⟩ | ⟨pending, -, -, ⟨-, heq⟩ | ⟨hmode, heq⟩⟩
  · rw [heq]
    refine ⟨[], .of_quiet (fun hroster => ?_) rfl rfl rfl rfl, rfl⟩
    exact hroster.extend rfl rfl (List.append_nil _).symm (by simp)
  · rw [heq]
    exact ⟨_, .of_quiet (·.turnAway pending) rfl rfl rfl rfl, rfl⟩
  · rw [h.client_of_mode_ne hmode] at hclient
    cases hclient

lemma delivers_receiveFromUart {inp : Tick} (hsilent : inp.Silent) (t : Texecom) :
    t.Delivers [.uartRx (t.drained inp).batch (t.drained inp).reads] (t.receiveFromUart inp) := by
  obtain ⟨hbatch, hring, -⟩ :=
    drainUart_of_silent hsilent kBatchSize [] t.uartToTcp t.uartToTcpDrops
  refine .of_quiet (·.receiveFromUart inp) ?_ rfl ?_ rfl
  · exact congrArg (SendState.mk t.sendStage t.sendStageOff) hring
  · rw [drained, hbatch]
    rfl

/-- Reads that do not end the session leave it to the UART. -/
lemma ended_of_staysOpen {inp : Tick} (hopen : inp.StaysOpen) (conn : Conn) (k : ℕ)
    (ring : RingBuffer UInt8 kBufferSize) (capture : Capture) :
    (readLoop inp conn k ring capture).ended = false := by
  induction k, ring, capture using readLoop_induction inp conn with
  | full k ring capture hfull => rw [readLoop_of_full hfull]
  | no_data k ring capture hfull hdata =>
    rw [readLoop_of_no_data hfull hdata]
    exact hopen _ _
  | data k ring capture bytes hfull hanswer ih =>
    rw [readLoop_of_data hfull hanswer]
    exact ih

/-- The first pump delivers some of what is pending, and the client stays connected. -/
lemma Inv.delivers_pumpUartToTcp (h : t.Inv cc) (huart : t.uart = true) {conn : Conn}
    (hclient : t.clientSocket = some conn) {inp : Tick} (hsilent : inp.Silent)
    (htakes : inp.TakesSome) : ∃ io, t.Delivers io (t.pumpUartToTcp inp) ∧
      (t.sendState.pending ≠ [] → clientTx io ≠ []) := by
  have hreceived := delivers_receiveFromUart hsilent t
  obtain ⟨hfailed, hprogress⟩ :=
    sendLoop_of_takesSome htakes conn 0 (t.receiveFromUart inp).sendState
  obtain ⟨-, hpending, -⟩ := sendLoop_spec inp conn 0 (t.receiveFromUart inp).sendState
  obtain ⟨-, -, -, -, hrx⟩ := quiet_sendLoop inp conn 0 (t.receiveFromUart inp).sendState
  have hsent : (t.receiveFromUart inp).Delivers
      (sendLoop inp conn 0 (t.receiveFromUart inp).sendState).io
      ((t.receiveFromUart inp).afterSend
        (sendLoop inp conn 0 (t.receiveFromUart inp).sendState)) :=
    ⟨fun hroster => hroster.afterSend inp conn, hpending, hrx, rfl⟩
  have hmode : (t.receiveFromUart inp).isBridgeMode = true := by
    rcases h.client_cases with hnone | ⟨-, -, -, hmode⟩
    · rw [hclient] at hnone
      cases hnone
    · exact hmode
  unfold Texecom.pumpUartToTcp
  rw [huart, Bool.not_true, if_neg Bool.false_ne_true, sendToClient_of_client hmode hclient,
    hfailed, if_neg Bool.false_ne_true]
  refine ⟨_, hreceived.trans hsent, fun hne hnone => ?_⟩
  rw [clientTx_append, List.append_eq_nil_iff] at hnone
  rw [← hreceived.pending, hnone.1, List.nil_append] at hne
  exact hprogress hne hnone.2

/-- Without the end of the session, the second pump leaves what is pending for the client alone. -/
lemma Inv.delivers_pumpTcpToUart (h : t.Inv cc) {conn : Conn} (hclient : t.clientSocket = some conn)
    {inp : Tick} (hopen : inp.StaysOpen) : ∃ io, t.Delivers io (t.pumpTcpToUart inp) := by
  rcases h.client_cases with hnone | ⟨conn', hclient', hsession, hmode⟩
  · rw [hclient] at hnone
    cases hnone
  · unfold Texecom.pumpTcpToUart
    split_ifs
    · refine ⟨[], .of_quiet (fun hroster => ?_) rfl rfl rfl rfl⟩
      exact hroster.extend rfl rfl (List.append_nil _).symm (by simp)
    · obtain ⟨-, -, htx, hrx⟩ := quiet_readLoop inp conn 0 t.tcpToUart t.capture
      have hread : t.Delivers _ (t.afterRead (readLoop inp conn 0 t.tcpToUart t.capture)) :=
        .of_quiet (·.afterRead inp conn) rfl htx hrx rfl
      rw [receiveFromClient_of_client hmode hclient, ended_of_staysOpen hopen]
      obtain ⟨-, -, -, -, htx', hrx'⟩ := quiet_uartTx (drainToUart
        (t.afterRead (readLoop inp conn 0 t.tcpToUart t.capture)).tcpToUart).1
      exact ⟨_, hread.trans (.of_quiet (·.sendToUart) rfl htx' hrx' rfl)⟩

/-- One tick, in which the panel is silent and the client takes something: unless nothing is
pending, some of it is delivered. -/
lemma Inv.delivers_loop (h : t.Inv cc) (huart : t.uart = true) {conn : Conn}
    (hclient : t.clientSocket = some conn) {inp : Tick} (hsilent : inp.Silent)
    (htakes : inp.TakesSome) (hopen : inp.StaysOpen) : ∃ io, t.Delivers io (t.loop inp) ∧
      (t.sendState.pending ≠ [] → clientTx io ≠ []) := by
  have hbegun : t.Delivers [.tick] t.beginTick := .of_quiet (·.beginTick) rfl rfl rfl rfl
  obtain ⟨ioA, haccept, hquiet⟩ := h.beginTick.delivers_accept hclient inp
  have hstart := hbegun.trans haccept
  have hinv := h.beginTick.acceptPendingClient inp
  have huart' := (h.beginTick.uart_acceptPendingClient inp).trans huart
  have hclient' := hstart.client_eq.trans hclient
  obtain ⟨ioB, hsent, hprogress⟩ := hinv.delivers_pumpUartToTcp huart' hclient' hsilent htakes
  have hinv' := hinv.pumpSteps (hinv.pumpUartToTcp_steps inp)
  obtain ⟨ioC, hread⟩ := hinv'.delivers_pumpTcpToUart (hsent.client_eq.trans hclient') hopen
  have hflushed : (((t.beginTick.acceptPendingClient inp).pumpUartToTcp inp).pumpTcpToUart
      inp).Delivers [] (t.loop inp) := .of_quiet (·.captureLoop inp) rfl rfl rfl rfl
  refine ⟨_, ((hstart.trans hsent).trans hread).trans hflushed, fun hne hnone => ?_⟩
  have htx : clientTx ([.tick] ++ ioA) = [] := by
    rw [clientTx_append, hquiet]
    rfl
  have hpending := hstart.pending
  rw [htx, List.nil_append] at hpending
  rw [List.append_nil, clientTx_append, clientTx_append, htx, List.nil_append,
    List.append_eq_nil_iff] at hnone
  exact hprogress (by rwa [hpending]) hnone.1

/-- Each tick delivers at least one byte, until nothing is pending. -/
lemma delivers_run {cfg : Config} (huart : cfg.uart = true) (listen : Bool) (ticks : List Tick)
    {later : List Tick} {conn : Conn} (hclient : (run cfg listen ticks).clientSocket = some conn)
    (hlater : ∀ inp ∈ later, inp.Silent ∧ inp.TakesSome ∧ inp.StaysOpen) :
    ∃ io, (run cfg listen ticks).Delivers io (run cfg listen (ticks ++ later)) ∧
      min later.length (run cfg listen ticks).sendState.pending.length ≤ (clientTx io).length := by
  induction later using List.reverseRecOn with
  | nil =>
    rw [List.append_nil]
    refine ⟨[], .of_quiet (fun hroster => ?_) rfl rfl rfl rfl, by simp⟩
    exact hroster.extend rfl rfl (List.append_nil _).symm (by simp)
  | append_singleton later inp ih =>
    obtain ⟨hbefore, hinp⟩ := List.forall_mem_append.mp hlater
    obtain ⟨hsilent, htakes, hopen⟩ := hinp inp List.mem_cons_self
    obtain ⟨io, hdelivers, hlength⟩ := ih hbefore
    have huart' := (uart_run cfg listen (ticks ++ later)).trans huart
    have hinv := inv_run cfg listen (ticks ++ later)
    obtain ⟨io', hdelivers', hprogress⟩ := hinv.delivers_loop huart'
      (hdelivers.client_eq.trans hclient) hsilent htakes hopen
    rw [← List.append_assoc, run_concat]
    refine ⟨io ++ io', hdelivers.trans hdelivers', ?_⟩
    have htotal := congrArg List.length hdelivers.pending
    rw [List.length_append] at htotal
    rw [clientTx_append, List.length_append, List.length_append, List.length_singleton]
    by_cases hnone : (run cfg listen (ticks ++ later)).sendState.pending = []
    · rw [hnone, List.length_nil] at htotal
      omega
    · have hpos := List.length_pos_iff.mpr (hprogress hnone)
      omega

/-- While the panel is silent, the session stays open and the client takes something of what it is
offered, each tick delivers at least one byte of what was pending, in order, until nothing is. -/
theorem backlog_delivered {cfg : Config} (huart : cfg.uart = true) (listen : Bool)
    (ticks later : List Tick) {conn : Conn}
    (hclient : (run cfg listen ticks).clientSocket = some conn)
    (hlater : ∀ inp ∈ later, inp.Silent ∧ inp.TakesSome ∧ inp.StaysOpen) :
    let t := run cfg listen ticks
    let t' := run cfg listen (ticks ++ later)
    t'.clientSocket = some conn ∧ ∃ s s' past n, sessions t.io = s :: past ∧
      sessions t'.io = s' :: past ∧ min later.length t.sendState.pending.length ≤ n ∧
      s'.sent = s.sent ++ t.sendState.pending.take n ∧ s'.received 0 = s.received 0 ∧
      t'.sendState.pending = t.sendState.pending.drop n := by
  intro t t'
  obtain ⟨io, hdelivers, hlength⟩ := delivers_run huart listen ticks hclient hlater
  refine ⟨hdelivers.client_eq.trans hclient, ?_⟩
  cases ClientBound.run cfg listen ticks with
  | monitor past roster concluded =>
    rw [roster.clientSocket_eq] at hclient
    cases hclient
  | bridge s past roster streamed concluded =>
    refine ⟨s, s.extend io, past, (clientTx io).length, ?_, ?_, hlength, ?_, ?_, ?_⟩
    · cases roster with
      | bridge client active sessions_eq live ended => exact sessions_eq
    · cases hdelivers.roster roster with
      | bridge client active sessions_eq live ended => exact sessions_eq
    · rw [← hdelivers.pending, List.take_left]
      rfl
    · rw [(s.received_extend io).1, hdelivers.panelRx_eq, List.append_nil]
    · rw [← hdelivers.pending, List.drop_left]

/-- A byte that waits is sent in the next tick, when the client takes what it is offered. -/
theorem backlog_delivered_one_byte :
    let t := run ⟨true, none, .none, 8192⟩ true [.arrival 1 0x41]
    let t' := run ⟨true, none, .none, 8192⟩ true [.arrival 1 0x41, Tick.quiet.taking]
    t'.clientSocket = some 1 ∧ ∃ s s' past n, sessions t.io = s :: past ∧
      sessions t'.io = s' :: past ∧ min 1 t.sendState.pending.length ≤ n ∧
      s'.sent = s.sent ++ t.sendState.pending.take n ∧ s'.received 0 = s.received 0 ∧
      t'.sendState.pending = t.sendState.pending.drop n := by
  refine backlog_delivered rfl true [.arrival 1 0x41] [Tick.quiet.taking] (by decide +kernel) ?_
  intro inp hinp
  obtain rfl := List.mem_singleton.mp hinp
  refine ⟨?_, fun k offered hpos => ⟨offered, hpos, rfl⟩, fun _ _ => rfl⟩
  intro k b hb
  cases hb

end Texecom
end TexecomBridge
