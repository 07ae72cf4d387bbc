import TexecomBridge.Texecom.Sessions

/-!
# End-to-end capture

In a mode that gives each session its own pair of captures, the pair of a session holds the batches
read during that session, in order, but for those that were counted as dropped.
-/

namespace TexecomBridge

namespace Session

/-- The session's pair, with what is still queued, holds the batches of the session but for `k`, and
the counter has gone up by `k` since the session began. -/
structure Recorded (cc : Capture.Config) (queued : List (UInt8 × List UInt8)) (drops : UInt32)
    (q : CapturePair) (s : Session) : Prop where
  recordable : ∀ b ∈ s.batches, Recordable b.1 b.2
  events : ∃ es k, q.Holds cc es ∧ Missing k (es.map Event.key ++ queued) s.batches ∧
    drops = s.began.capture + UInt32.ofNat k

/-- What the capture sink has dropped by the end of the session, or until now if it goes on. -/
def captureDrops (now : UInt32) (s : Session) : UInt32 :=
  (s.ended.map DropCounters.capture).getD now

/-- The session has ended and `q` is its pair. -/
def Filed (cc : Capture.Config) (s : Session) (q : CapturePair) : Prop :=
  ∃ drops, s.ended = some drops ∧ s.Recorded cc [] drops.capture q

namespace Recorded

variable {cc : Capture.Config} {c c' : Capture} {q : CapturePair} {s : Session}

/-- Every batch that is read is queued or counted. -/
lemma took (h : s.Recorded cc c.queued c.drops q) {io : List Obs}
    (htook : c.Took (TexecomBridge.batches io) c')
    (hio : ∀ b ∈ TexecomBridge.batches io, Recordable b.1 b.2) :
    (s.extend io).Recorded cc c'.queued c'.drops q := by
  obtain ⟨es, k, hes, hmissing, hcount⟩ := h.events
  obtain ⟨k', hmissing', hcount'⟩ := htook.queued
  constructor
  · intro b hb
    rcases List.mem_append.mp hb with hb | hb
    · exact h.recordable b hb
    · exact hio b hb
  · refine ⟨es, k' + k, hes, ?_, ?_⟩
    · have hgrown := hmissing.append (TexecomBridge.batches io)
      have hkept := hmissing'.prepend (es.map Event.key)
      rw [List.append_assoc] at hgrown
      exact hkept.trans hgrown
    · rw [hcount', hcount, Nat.add_comm k', UInt32.ofNat_add, UInt32.add_assoc]
      rfl

/-- A flush moves what is queued to the pair. -/
lemma flush (h : s.Recorded cc c.queued c.drops q) (hq : ∀ e ∈ c.ring.events, e.Queueable)
    (ms : UInt32) : s.Recorded cc [] c.drops (q.extendEvents c.ring.events ms) := by
  obtain ⟨es, k, hes, hmissing, hcount⟩ := h.events
  refine ⟨h.recordable, es ++ c.ring.events, k, hes.extendEvents hq ms, ?_, hcount⟩
  rw [List.append_nil, List.map_append]
  exact hmissing

/-- Reading the `.bin` from start to end gives the batches, but for those that were counted. -/
lemma reads_back {drops : UInt32} (h : s.Recorded cc [] drops q) :
    ∃ hdr es, parseCapture q.bin.bytes = some (hdr, es) ∧
      (∀ b ∈ s.batches, b.1 ≤ 1 ∧ 1 ≤ b.2.length ∧ b.2.length ≤ 256) ∧
      ∃ k, Missing k (es.map Event.key) s.batches ∧
        drops = s.began.capture + UInt32.ofNat k ∧
        (k = 0 → payloads 0 (es.map Event.key) = s.received 0 ∧
          payloads 1 (es.map Event.key) = s.received 1) := by
  obtain ⟨es, k, hes, hmissing, hcount⟩ := h.events
  obtain ⟨hdr, hparse⟩ := hes.parseCapture_eq
  rw [List.append_nil] at hmissing
  refine ⟨hdr, es, hparse, fun b hb => ?_, k, hmissing, hcount, ?_⟩
  · obtain ⟨hdirection, hne, hlength⟩ := h.recordable b hb
    exact ⟨hdirection, List.length_pos_iff.mpr hne, hlength⟩
  · rintro rfl
    rw [hmissing.eq_of_zero]
    exact ⟨rfl, rfl⟩

end Recorded
end Session

namespace Texecom

/-- Every session has its pair in the archive, and nothing else is in it. -/
inductive Captured (cc : Capture.Config) (t : Texecom) : Prop
  | monitor (past : List Session) (roster : t.Roster none past)
    (filed : List.Forall₂ (Session.Filed cc) past (archive t.capture.history))
  | bridge (s : Session) (past : List Session) (q : CapturePair) (older : List CapturePair)
    (roster : t.Roster (some s) past) (archive_eq : archive t.capture.history = q :: older)
    (recorded : s.Recorded cc t.capture.queued t.capture.drops q)
    (filed : List.Forall₂ (Session.Filed cc) past older)

variable {cc : Capture.Config} {t t' : Texecom}

/-- A connected client's session is recorded. -/
lemma Inv.recording (h : t.Inv cc) (hmode : cc.mode.opens) {conn : Conn}
    (hclient : t.clientSocket = some conn) : t.capture.Recording ∧ t.capture.isLive := by
  have hopens : t.capture.mode.opens := by
    rw [← h.config] at hmode
    exact hmode
  cases h.agreement with
  | monitor session client active capture stage off changes =>
    rw [client] at hclient
    cases hclient
  | bridge conn session client active capture changes =>
    exact ⟨⟨hopens, capture⟩, h.capture.isLive_iff.mpr ⟨capture, hopens⟩⟩

/-- Without a client, nothing is live. -/
lemma Inv.not_isLive (h : t.Inv cc) (hclient : t.clientSocket = none) : ¬ t.capture.isLive := by
  rw [h.capture.isLive_iff]
  rintro ⟨hactive, -⟩
  cases h.agreement with
  | monitor session client active capture stage off changes =>
    rw [capture] at hactive
    cases hactive
  | bridge conn session client active capture changes =>
    rw [client] at hclient
    cases hclient

namespace Captured

/-- Steps that read nothing and leave the capture sink alone. -/
lemma of_quiet (h : t.Captured cc) {io : List Obs} (hio : batches io = [])
    (hroster : ∀ {live past}, t.Roster live past → t'.Roster (live.map (·.extend io)) past)
    (hcapture : t'.capture = t.capture) : t'.Captured cc := by
  cases h with
  | monitor past roster filed =>
    refine .monitor past (hroster roster) ?_
    rwa [hcapture]
  | bridge s past q older roster archive_eq recorded filed =>
    refine .bridge _ past q older (hroster roster) (by rwa [hcapture]) ?_ filed
    rw [hcapture]
    exact recorded.took (hio ▸ .refl _) (by simp [hio])

/-- Steps that read batches and offer each to the capture sink. -/
lemma of_took (h : t.Captured cc) {io : List Obs}
    (hio : ∀ b ∈ batches io, Recordable b.1 b.2)
    (hroster : ∀ {live past}, t.Roster live past → t'.Roster (live.map (·.extend io)) past)
    (hqueues : t.capture.Queues t'.capture)
    (htook : t.clientSocket.isSome = true → t.capture.Took (batches io) t'.capture) :
    t'.Captured cc := by
  have hhistory : t'.capture.history = t.capture.history := by
    obtain ⟨_, _, _, hframe⟩ := hqueues
    rw [hframe]
  cases h with
  | monitor past roster filed =>
    refine .monitor past (hroster roster) ?_
    rwa [hhistory]
  | bridge s past q older roster archive_eq recorded filed =>
    refine .bridge _ past q older (hroster roster) (by rwa [hhistory]) ?_ filed
    refine recorded.took (htook ?_) hio
    rw [roster.clientSocket_eq]
    rfl

/-- A session starts with an empty pair. -/
lemma enterBridge (h : t.Captured cc) (hinv : t.Inv cc) (hmode : cc.mode.opens)
    (hclient : t.clientSocket = none) (hqueued : t.capture.queued = []) (inp : Tick)
    (pending : Conn) : (t.enterBridge inp pending).Captured cc := by
  have hopens : t.capture.mode.opens := by
    rw [← hinv.config] at hmode
    exact hmode
  cases h with
  | monitor past roster filed =>
    obtain ⟨q, harchive, hq⟩ := Capture.archive_onSessionStart hopens inp.atAccept
    obtain ⟨_, _, _, _, hframe⟩ := Capture.onSessionStart_frame inp.atAccept t.capture
    rw [hinv.config] at hq
    refine .bridge _ past q _ (roster.enterBridge inp pending) harchive ?_ filed
    have hqueued' : (t.enterBridge inp pending).capture.queued = [] := by
      rw [Texecom.enterBridge, hframe]
      exact hqueued
    have hdrops : (t.enterBridge inp pending).capture.drops = t.capture.drops := by
      rw [Texecom.enterBridge, hframe]
      rfl
    rw [hqueued', hdrops]
    exact ⟨by simp, [], 0, hq, Missing.refl _, by simp⟩
  | bridge s past q older roster archive_eq recorded filed =>
    rw [roster.clientSocket_eq] at hclient
    cases hclient

/-- What is queued when a session ends goes to its pair. -/
lemma disconnect (h : t.Captured cc) (hinv : t.Inv cc) (hmode : cc.mode.opens) {conn : Conn}
    (hclient : t.clientSocket = some conn) (p : Platform) :
    (t.disconnect p conn).Captured cc := by
  cases h with
  | monitor past roster filed =>
    rw [roster.clientSocket_eq] at hclient
    cases hclient
  | bridge s past q older roster archive_eq recorded filed =>
    obtain ⟨-, hlive⟩ := hinv.recording hmode hclient
    obtain ⟨hdrops, harchive⟩ := hinv.capture.flushRing_of_isLive hlive p archive_eq
    refine .monitor _ (roster.disconnect p conn) ?_
    rw [Texecom.disconnect, Capture.history_onSessionEnd, harchive]
    refine .cons ⟨_, rfl, ?_⟩ filed
    rw [Capture.drops_onSessionEnd, hdrops]
    have hflush := recorded.flush hinv.capture.queued p.millis
    exact ⟨hflush.recordable, hflush.events⟩

lemma captureLoop (h : t.Captured cc) (hinv : t.Inv cc) (hmode : cc.mode.opens) (inp : Tick) :
    (t.captureLoop inp).Captured cc := by
  cases h with
  | monitor past roster filed =>
    obtain ⟨_, -, hflush⟩ :=
      hinv.capture.flushRing_of_not_isLive (hinv.not_isLive roster.clientSocket_eq) inp.atLoop
    refine .monitor past (roster.captureLoop inp) ?_
    rw [captureLoop_eq, hflush]
    exact filed
  | bridge s past q older roster archive_eq recorded filed =>
    obtain ⟨-, hlive⟩ := hinv.recording hmode roster.clientSocket_eq
    obtain ⟨hdrops, harchive⟩ := hinv.capture.flushRing_of_isLive hlive inp.atLoop archive_eq
    obtain ⟨_, _, _, _, _, r, hr, hframe⟩ := hinv.capture.flushRing_frame inp.atLoop
    refine .bridge _ past (q.extendEvents t.capture.ring.events inp.atLoop.millis) older
      (roster.captureLoop inp) ?_ ?_ filed
    · rw [captureLoop_eq, harchive]
    · have hqueued : (t.captureLoop inp).capture.queued = [] := by
        rw [captureLoop_eq, hframe, Capture.queued, hr]
        rfl
      have hdrops' : (t.captureLoop inp).capture.drops = t.capture.drops := by
        rw [captureLoop_eq, hdrops]
      simp only [hqueued, hdrops', s.extend_nil]
      exact recorded.flush hinv.capture.queued inp.atLoop.millis

lemma receiveFromUart (h : t.Captured cc) (hinv : t.Inv cc) (hmode : cc.mode.opens) (inp : Tick) :
    (t.receiveFromUart inp).Captured cc := by
  obtain ⟨new, d, hbatch, hlength, -⟩ :=
    drainUart_spec inp.uart kBatchSize [] t.uartToTcp t.uartToTcpDrops
  rw [List.nil_append] at hbatch
  by_cases hnew : (t.drained inp).batch = []
  · refine h.of_quiet ?_ (·.receiveFromUart inp) ?_
    · simp [batches, Obs.batches, hnew]
    · exact if_neg (not_not.mpr hnew)
  · have hrecordable : Recordable 0 (t.drained inp).batch := by
      refine ⟨by decide, hnew, ?_⟩
      rw [drained, hbatch]
      exact hlength
    have hbatches : batches [.uartRx (t.drained inp).batch (t.drained inp).reads]
        = [(0, (t.drained inp).batch)] := by
      simp [batches, Obs.batches, hnew]
    have hcapture : (t.receiveFromUart inp).capture
        = recordIfWanted inp.atUart 0 (t.drained inp).batch t.capture := if_pos hnew
    apply h.of_took ?_ (·.receiveFromUart inp)
    · rw [hcapture]
      exact recordIfWanted_queues _ _ _ _
    · intro hclient
      obtain ⟨conn, hclient⟩ := Option.isSome_iff_exists.mp hclient
      rw [hbatches, hcapture]
      exact recordIfWanted_took (hinv.recording hmode hclient).1 inp.atUart hrecordable
    · rw [hbatches]
      intro b hb
      rw [List.mem_singleton.mp hb]
      exact hrecordable

lemma pumpStep {inp : Tick} (h : t.Captured cc) (hinv : t.Inv cc) (hmode : cc.mode.opens)
    (hstep : PumpStep inp t t') : t'.Captured cc := by
  cases hstep with
  | receiveFromUart => exact h.receiveFromUart hinv hmode inp
  | send conn hsession hclient =>
    obtain ⟨-, -, -, hbatches, -⟩ := quiet_sendLoop inp conn 0 t.sendState
    exact h.of_quiet hbatches (·.afterSend inp conn) rfl
  | read conn hsession hclient =>
    obtain ⟨-, -, hqueues, -, htook⟩ := readLoop_spec inp conn 0 t.tcpToUart t.capture
    refine h.of_took (recordable_readLoop inp conn 0 t.tcpToUart t.capture) (·.afterRead inp conn)
      hqueues fun _ => ?_
    exact htook (hinv.recording hmode hclient).1
  | disconnect conn hsession hclient => exact h.disconnect hinv hmode hclient inp.atEnd
  | sendToUart =>
    obtain ⟨-, -, -, hbatches, -⟩ := quiet_uartTx (drainToUart t.tcpToUart).1
    exact h.of_quiet hbatches (·.sendToUart) rfl
  | captureLoop => exact h.captureLoop hinv hmode inp

lemma run {cfg : Config} (hmode : cfg.captureMode.opens) (listen : Bool) (ticks : List Tick) :
    (run cfg listen ticks).Captured (Capture.configured cfg.capture).config := by
  apply run_induction (P := Captured (Capture.configured cfg.capture).config) cfg listen
  · exact .monitor [] (.setup cfg listen) .nil
  · intro t h
    exact h.of_quiet rfl (·.beginTick) rfl
  · intro t pending _ h
    exact h.of_quiet rfl (·.turnAway pending) rfl
  · intro t inp pending hinv _ hclient hqueued h
    exact h.enterBridge hinv hmode hclient hqueued inp pending
  · intro inp t t' hinv hstep h
    exact h.pumpStep hinv hmode hstep

/-- When nothing is queued, each session has its pair, in the order of the sessions. -/
lemma pairs (h : t.Captured cc) (hqueued : t.capture.queued = []) :
    List.Forall₂ (fun s q => s.Recorded cc [] (s.captureDrops t.capture.drops) q)
      (sessions t.io) (archive t.capture.history) := by
  have hended : ∀ s q, Session.Filed cc s q →
      s.Recorded cc [] (s.captureDrops t.capture.drops) q := by
    rintro s q ⟨drops, hdrops, hrecorded⟩
    rwa [Session.captureDrops, hdrops]
  cases h with
  | monitor past roster filed =>
    cases roster with
    | monitor client sessions_eq ended =>
      rw [sessions_eq]
      exact filed.imp hended
  | bridge s past q older roster archive_eq recorded filed =>
    cases roster with
    | bridge client active sessions_eq live ended =>
      rw [hqueued] at recorded
      rw [sessions_eq, archive_eq]
      refine .cons ?_ (filed.imp hended)
      rwa [Session.captureDrops, live]

end Captured

/-! ### What is stored -/

/-- The `i`-th session has the `i`-th pair. -/
lemma recorded_run {cfg : Config} (hmode : cfg.captureMode.opens) (listen : Bool)
    (ticks : List Tick) :
    let t := run cfg listen ticks
    List.Forall₂ (fun s q => s.Recorded (Capture.configured cfg.capture).config []
      (s.captureDrops t.capture.drops) q) (sessions t.io).reverse
      (archive t.capture.history).reverse :=
  List.forall₂_reverse_iff.mpr
    ((Captured.run hmode listen ticks).pairs (queued_run cfg listen ticks))

/-- A `.bin` that is stored is that of a session. -/
lemma session_of_stored {cfg : Config} (hmode : cfg.captureMode.opens) (listen : Bool)
    (ticks : List Tick) {j : ℕ} {bin : RamCapture}
    (hbin : (run cfg listen ticks).capture.store.captures[j]? = some bin)
    (hnot : bin.isText = false) : ∃ i s,
      j + evictions (run cfg listen ticks).capture.history = 2 * i ∧
      (sessions (run cfg listen ticks).io).reverse[i]? = some s := by
  have hinv := inv_run cfg listen ticks
  have htext : ∀ q ∈ archive (run cfg listen ticks).capture.history, q.txt.isText = true := by
    intro q hq
    obtain ⟨es, hes⟩ := hinv.capture.contents q hq
    exact hes.isText.2
  rw [hinv.capture.shelves.captures_eq, List.getElem?_drop] at hbin
  obtain ⟨i, q, hi, hq, -⟩ := exists_pair_of_bin htext hbin hnot
  obtain ⟨s, hs, -⟩ := (recorded_run hmode listen ticks).flip.exists_getElem? hq
  exact ⟨i, s, (Nat.add_comm _ _).trans hi, hs⟩

/-- In a mode that gives each session its own pair, the `.bin` of the `i`-th session is stored
unless it was evicted, and no other `.bin` is. Once the session has ended, reading the file from
start to end gives the batches of the session, in order and with their directions, but for `k`,
where `k` is by how much the drop counter has gone up during the session. Without drops, these are
all bytes that were read from the panel and from the client during the session. -/
theorem capture_fidelity {cfg : Config} (hmode : cfg.captureMode.opens) (listen : Bool)
    (ticks : List Tick) :
    let t := run cfg listen ticks
    let evicted := evictions t.capture.history
    (∀ i s, (sessions t.io).reverse[i]? = some s → evicted ≤ 2 * i →
      ∃ bin, t.capture.store.captures[2 * i - evicted]? = some bin ∧ bin.isText = false ∧
        ∀ drops, s.ended = some drops →
          ∃ hdr es, parseCapture bin.bytes = some (hdr, es) ∧
            (∀ b ∈ s.batches, b.1 ≤ 1 ∧ 1 ≤ b.2.length ∧ b.2.length ≤ 256) ∧
            ∃ k, Missing k (es.map Event.key) s.batches ∧
              drops.capture = s.began.capture + UInt32.ofNat k ∧
              (k = 0 → payloads 0 (es.map Event.key) = s.received 0 ∧
                payloads 1 (es.map Event.key) = s.received 1)) ∧
    (∀ j bin, t.capture.store.captures[j]? = some bin → bin.isText = false →
      ∃ i s, j + evicted = 2 * i ∧ (sessions t.io).reverse[i]? = some s) := by
  intro t evicted
  have hinv : t.Inv (Capture.configured cfg.capture).config := inv_run cfg listen ticks
  refine ⟨fun i s hs hstored => ?_, fun j bin => session_of_stored hmode listen ticks⟩
  obtain ⟨q, hq, hrecorded⟩ := (recorded_run hmode listen ticks).exists_getElem? hs
  obtain ⟨es, hes⟩ :=
    hinv.capture.contents q (List.mem_reverse.mp (List.mem_of_getElem? hq))
  refine ⟨q.bin, hinv.capture.stored_bin hq hstored, hes.isText.1, fun drops hdrops => ?_⟩
  rw [Session.captureDrops, hdrops] at hrecorded
  exact hrecorded.reads_back

/-- The session of a client that sends one byte and closes: the counter does not move. -/
lemma exists_visit :
    let t := run ⟨true, none, .bridgeOnly, 8192⟩ true [.visit 1 0x41]
    ∃ s drops, (sessions t.io).reverse[0]? = some s ∧ s.batches = [(1, [0x41])] ∧
      s.ended = some drops ∧ drops.capture = s.began.capture := by
  intro t
  have hsession : ((sessions t.io).reverse[0]?).map
      (fun s => (s.batches, s.began.capture, s.ended.map DropCounters.capture))
      = some ([(1, [0x41])], 0, some 0) := by decide +kernel
  obtain ⟨s, hs, hvalues⟩ := Option.map_eq_some_iff.mp hsession
  obtain ⟨hbatches, hbegan, hended⟩ : s.batches = [(1, [0x41])] ∧ s.began.capture = 0 ∧
      s.ended.map DropCounters.capture = some 0 := by simpa using hvalues
  obtain ⟨drops, hdrops, hnone⟩ := Option.map_eq_some_iff.mp hended
  exact ⟨s, drops, hs, hbatches, hdrops, hnone.trans hbegan.symm⟩

/-- The capture of that client. -/
theorem capture_fidelity_visit :
    let t := run ⟨true, none, .bridgeOnly, 8192⟩ true [.visit 1 0x41]
    ∃ bin hdr es, t.capture.store.captures[0]? = some bin ∧
      parseCapture bin.bytes = some (hdr, es) ∧ es.map Event.key = [(1, [0x41])] := by
  intro t
  obtain ⟨hstored, -⟩ :=
    @capture_fidelity ⟨true, none, .bridgeOnly, 8192⟩ (Or.inl rfl) true [.visit 1 0x41]
  have hevicted : evictions t.capture.history = 0 := by decide +kernel
  obtain ⟨s, drops, hs, hbatches, hdrops, hstill⟩ := exists_visit
  obtain ⟨bin, hbin, -, hread⟩ := hstored 0 s hs hevicted.le
  obtain ⟨hdr, es, hparse, -, k, hmissing, hcount, -⟩ := hread drops hdrops
  rw [hevicted] at hbin
  rw [hbatches] at hmissing
  obtain rfl : k = 0 := hmissing.eq_zero_of_counted hcount hstill (by decide)
  exact ⟨bin, hdr, es, hbin, hparse, hmissing.eq_of_zero⟩

end Texecom
end TexecomBridge
