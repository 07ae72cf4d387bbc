import TexecomBridge.Texecom.Sessions

/-!
# The client-bound stream

What is read from the UART during a session is sent to its client in order, is staged or queued for
it, or was counted as dropped.
-/

namespace TexecomBridge

/-- What the client was sent and `unsent` are the bytes from the panel but for `d`, and the counter
has gone up by `d` since the session began. -/
def Session.Streamed (unsent : List UInt8) (drops : UInt32) (s : Session) : Prop :=
  ∃ d, Missing d (s.sent ++ unsent) (s.received 0) ∧ drops = s.began.uartToTcp + UInt32.ofNat d

/-- The session has ended, with bytes that never reached the client. -/
def Session.Concluded (s : Session) : Prop :=
  ∃ drops unsent, s.ended = some drops ∧ s.Streamed unsent drops.uartToTcp

/-- What is observed during a session neither reaches its client nor comes from the panel, and the
buffers are as they were. -/
lemma Session.Streamed.extend {s : Session} {unsent : List UInt8} {drops : UInt32} {io : List Obs}
    (h : s.Streamed unsent drops) (hrx : panelRx io = []) (htx : clientTx io = []) :
    (s.extend io).Streamed unsent drops := by
  obtain ⟨d, hmissing, hcount⟩ := h
  refine ⟨d, ?_, hcount⟩
  rw [(s.received_extend io).1, hrx, List.append_nil]
  simpa [Session.extend, htx] using hmissing

/-- Without drops, the client was sent a prefix of the bytes from the panel. -/
lemma Session.sent_isPrefix {s : Session} {unsent : List UInt8} {d : ℕ}
    (h : Missing d (s.sent ++ unsent) (s.received 0)) (hd : d = 0) : s.sent <+: s.received 0 := by
  subst hd
  exact ⟨unsent, h.eq_of_zero⟩

lemma Session.Concluded.stream {s : Session} (h : s.Concluded) {drops : DropCounters}
    (hdrops : s.ended = some drops) :
    ∃ unsent d, Missing d (s.sent ++ unsent) (s.received 0) ∧
      drops.uartToTcp = s.began.uartToTcp + UInt32.ofNat d ∧ (d = 0 → s.sent <+: s.received 0) := by
  obtain ⟨drops', unsent, hdrops', d, hmissing, hcount⟩ := h
  obtain rfl : drops' = drops := Option.some.inj (hdrops'.symm.trans hdrops)
  exact ⟨unsent, d, hmissing, hcount, s.sent_isPrefix hmissing⟩

namespace Texecom

/-- The streams of all sessions so far. -/
inductive ClientBound (t : Texecom) : Prop
  | monitor (past : List Session) (roster : t.Roster none past)
    (concluded : ∀ s ∈ past, s.Concluded)
  | bridge (s : Session) (past : List Session) (roster : t.Roster (some s) past)
    (streamed : s.Streamed t.sendState.pending t.uartToTcpDrops)
    (concluded : ∀ s ∈ past, s.Concluded)

variable {t t' : Texecom}

namespace ClientBound

/-- Steps that leave the streams and the buffers alone. -/
lemma of_quiet (h : t.ClientBound) {io : List Obs} (hrx : panelRx io = []) (htx : clientTx io = [])
    (hroster : ∀ {live past}, t.Roster live past → t'.Roster (live.map (·.extend io)) past)
    (hstate : t'.sendState = t.sendState) (hdrops : t'.uartToTcpDrops = t.uartToTcpDrops) :
    t'.ClientBound := by
  cases h with
  | monitor past roster concluded => exact .monitor past (hroster roster) concluded
  | bridge s past roster streamed concluded =>
    refine .bridge (s.extend io) past (hroster roster) ?_ concluded
    rw [hstate, hdrops]
    exact streamed.extend hrx htx

/-- A session starts with nothing staged or queued. -/
lemma enterBridge (h : t.ClientBound) (hclient : t.clientSocket = none) (inp : Tick)
    (pending : Conn) : (t.enterBridge inp pending).ClientBound := by
  cases h with
  | monitor past roster concluded =>
    refine .bridge _ past (roster.enterBridge inp pending) ⟨0, ?_, ?_⟩ concluded
    · exact Missing.refl _
    · simp [Texecom.enterBridge]
  | bridge s past roster streamed concluded =>
    rw [roster.clientSocket_eq] at hclient
    cases hclient

/-- Bytes from the panel are queued; the oldest in the ring give way and are counted. -/
lemma receiveFromUart (h : t.ClientBound) (inp : Tick) : (t.receiveFromUart inp).ClientBound := by
  cases h with
  | monitor past roster concluded => exact .monitor past (roster.receiveFromUart inp) concluded
  | bridge s past roster streamed concluded =>
    refine .bridge _ past (roster.receiveFromUart inp) ?_ concluded
    obtain ⟨d, hmissing, hcount⟩ := streamed
    obtain ⟨new, d', hbatch, -, hring, hdrops⟩ :=
      drainUart_spec inp.uart kBatchSize [] t.uartToTcp t.uartToTcpDrops
    rw [List.nil_append] at hbatch
    have hrx : panelRx [.uartRx (t.drained inp).batch (t.drained inp).reads] = new := by
      rw [drained, hbatch]
      exact List.append_nil _
    refine ⟨d' + d, ?_, ?_⟩
    · have hkept := hring.prepend (s.sent ++ t.sendStage.drop t.sendStageOff)
      have hgrown := hmissing.append new
      rw [sendState, SendState.pending, ← List.append_assoc, List.append_assoc _ _ new] at hgrown
      have hall := hkept.trans hgrown
      rw [(s.received_extend _).1, hrx]
      rw [List.append_assoc] at hall
      change Missing (d' + d) (s.sent ++ [] ++ (t.receiveFromUart inp).sendState.pending) _
      rw [List.append_nil]
      exact hall
    · rw [Texecom.receiveFromUart, hdrops, hcount, Nat.add_comm d', UInt32.ofNat_add,
        UInt32.add_assoc]
      rfl

/-- Bytes reported as sent are the first of those staged and queued. -/
lemma afterSend (h : t.ClientBound) (inp : Tick) (conn : Conn) :
    (t.afterSend (sendLoop inp conn 0 t.sendState)).ClientBound := by
  cases h with
  | monitor past roster concluded => exact .monitor past (roster.afterSend inp conn) concluded
  | bridge s past roster streamed concluded =>
    refine .bridge _ past (roster.afterSend inp conn) ?_ concluded
    obtain ⟨d, hmissing, hcount⟩ := streamed
    obtain ⟨-, hpending, -⟩ := sendLoop_spec inp conn 0 t.sendState
    obtain ⟨-, -, -, -, hrx⟩ := quiet_sendLoop inp conn 0 t.sendState
    refine ⟨d, ?_, hcount⟩
    rw [(s.received_extend _).1, hrx, List.append_nil]
    rw [← hpending, ← List.append_assoc] at hmissing
    exact hmissing

/-- What is still staged or queued when a session ends never reaches its client. -/
lemma disconnect (h : t.ClientBound) {conn : Conn} (hclient : t.clientSocket = some conn)
    (p : Platform) : (t.disconnect p conn).ClientBound := by
  cases h with
  | monitor past roster concluded =>
    rw [roster.clientSocket_eq] at hclient
    cases hclient
  | bridge s past roster streamed concluded =>
    refine .monitor _ (roster.disconnect p conn) ?_
    intro s' hs'
    rcases List.mem_cons.mp hs' with rfl | hs'
    · exact ⟨_, _, rfl, streamed⟩
    · exact concluded s' hs'

lemma pumpStep {inp : Tick} (h : t.ClientBound) (hstep : PumpStep inp t t') : t'.ClientBound := by
  cases hstep with
  | receiveFromUart => exact h.receiveFromUart inp
  | send conn hsession hclient => exact h.afterSend inp conn
  | read conn hsession hclient =>
    obtain ⟨-, -, htx, hrx⟩ := quiet_readLoop inp conn 0 t.tcpToUart t.capture
    exact h.of_quiet hrx htx (·.afterRead inp conn) rfl rfl
  | disconnect conn hsession hclient => exact h.disconnect hclient inp.atEnd
  | sendToUart =>
    obtain ⟨-, -, -, -, htx, hrx⟩ := quiet_uartTx (drainToUart t.tcpToUart).1
    exact h.of_quiet hrx htx (·.sendToUart) rfl rfl
  | captureLoop => exact h.of_quiet rfl rfl (·.captureLoop inp) rfl rfl

lemma run (cfg : Config) (listen : Bool) (ticks : List Tick) :
    (run cfg listen ticks).ClientBound := by
  apply run_induction (P := ClientBound) cfg listen
  · exact .monitor [] (.setup cfg listen) (by simp)
  · intro t h
    exact h.of_quiet rfl rfl (·.beginTick) rfl rfl
  · intro t pending _ h
    exact h.of_quiet rfl rfl (·.turnAway pending) rfl rfl
  · intro t inp pending _ _ hclient _ h
    exact h.enterBridge hclient inp pending
  · intro inp t t' _ hstep h
    exact h.pumpStep hstep

end ClientBound

/-- At every tick boundary of a live session, what its client was sent, what is staged and what is
queued are the bytes read from the UART since the accept but for `d`, where `d` is by how much the
drop counter has gone up. Without drops, the client was sent a prefix of them. The same holds of
every session that has ended, with bytes that were never sent. -/
theorem client_stream (cfg : Config) (listen : Bool) (ticks : List Tick) :
    let t := run cfg listen ticks
    (∀ conn, t.clientSocket = some conn → ∃ s past, sessions t.io = s :: past ∧
      s.ended = none ∧ s.conn = conn ∧ s.id = t.activeClientId ∧
      ∃ d, Missing d (s.sent ++ t.sendStage.drop t.sendStageOff ++ t.uartToTcp.toList)
          (s.received 0) ∧
        t.uartToTcpDrops = s.began.uartToTcp + UInt32.ofNat d ∧
        (d = 0 → s.sent <+: s.received 0)) ∧
    (∀ s ∈ sessions t.io, ∀ drops, s.ended = some drops →
      ∃ unsent d, Missing d (s.sent ++ unsent) (s.received 0) ∧
        drops.uartToTcp = s.began.uartToTcp + UInt32.ofNat d ∧
        (d = 0 → s.sent <+: s.received 0)) := by
  intro t
  cases ClientBound.run cfg listen ticks with
  | monitor past roster concluded =>
    cases roster with
    | monitor client sessions_eq ended =>
      constructor
      · intro conn hclient
        rw [client] at hclient
        cases hclient
      · rw [sessions_eq]
        intro s hs drops hdrops
        exact (concluded s hs).stream hdrops
  | bridge s past roster streamed concluded =>
    cases roster with
    | bridge client active sessions_eq live ended =>
      constructor
      · intro conn hclient
        rw [client] at hclient
        obtain ⟨d, hmissing, hcount⟩ := streamed
        refine ⟨s, past, sessions_eq, live, Option.some.inj hclient, active, d, ?_, hcount,
          s.sent_isPrefix hmissing⟩
        rw [List.append_assoc]
        exact hmissing
      · rw [sessions_eq]
        intro s' hs' drops hdrops
        rcases List.mem_cons.mp hs' with rfl | hs'
        · rw [live] at hdrops
          cases hdrops
        · exact (concluded s' hs').stream hdrops

end Texecom
end TexecomBridge
