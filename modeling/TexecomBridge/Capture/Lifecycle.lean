import TexecomBridge.Capture.Flush

/-!
# Runs of the capture sink

The joint invariant of store, event ring and session flag, what each call does to a state that has
it, and the representation of the store in every reachable state.
-/

namespace TexecomBridge

/-! ### How the history grows -/

/-- Every open and every flushed write is followed by evictions and then by the settled store. -/
inductive Rounds : List StoreEvent → Prop
  | nil : Rounds []
  | opened {h evs : List StoreEvent} (hh : Rounds h) (bin txt : RamCapture)
    (hevs : ∀ e ∈ evs, e.isEviction = true) (after : Store) :
    Rounds (h ++ .opened bin txt :: evs ++ [.settled after])
  | wrote {h evs : List StoreEvent} (hh : Rounds h) (bytes : List UInt8) (ms : UInt32)
    (hevs : ∀ e ∈ evs, e.isEviction = true) (after : Store) :
    Rounds (h ++ .wrote bytes ms :: evs ++ [.settled after])

/-- The captures of `q` are those of `p`, with bytes appended. -/
structure CapturePair.Extends (p q : CapturePair) : Prop where
  bin_name : q.bin.name = p.bin.name
  bin_bytes : p.bin.bytes <+: q.bin.bytes
  txt_name : q.txt.name = p.txt.name
  txt_bytes : p.txt.bytes <+: q.txt.bytes

lemma CapturePair.Extends.refl (p : CapturePair) : p.Extends p :=
  ⟨rfl, List.prefix_rfl, rfl, List.prefix_rfl⟩

lemma CapturePair.Extends.trans {p q r : CapturePair} (h : p.Extends q) (h' : q.Extends r) :
    p.Extends r :=
  ⟨h'.bin_name.trans h.bin_name, h.bin_bytes.trans h'.bin_bytes, h'.txt_name.trans h.txt_name,
    h.txt_bytes.trans h'.txt_bytes⟩

/-- The `i`-th pair ever opened is still the `i`-th, and has only been appended to. -/
def Grown (ps qs : List CapturePair) : Prop :=
  ∀ (i : ℕ) (p : CapturePair), ps.reverse[i]? = some p → ∃ q, qs.reverse[i]? = some q ∧ p.Extends q

lemma Grown.refl (ps : List CapturePair) : Grown ps ps :=
  fun _ p hp => ⟨p, hp, .refl p⟩

lemma Grown.trans {ps qs rs : List CapturePair} (h : Grown ps qs) (h' : Grown qs rs) :
    Grown ps rs := by
  intro i p hp
  obtain ⟨q, hq, hpq⟩ := h i p hp
  obtain ⟨r, hr, hqr⟩ := h' i q hq
  exact ⟨r, hr, hpq.trans hqr⟩

lemma grown_cons (p : CapturePair) (ps : List CapturePair) : Grown ps (p :: ps) := by
  intro i q hq
  have hi : i < ps.reverse.length := (List.getElem?_eq_some_iff.mp hq).1
  exact ⟨q, by rw [List.reverse_cons, List.getElem?_append_left hi, hq], .refl q⟩

lemma grown_extend (p : CapturePair) (ps : List CapturePair) (bytes : List UInt8) (ms : UInt32) :
    Grown (p :: ps) (p.extend bytes ms :: ps) := by
  intro i q hq
  rw [List.reverse_cons] at hq ⊢
  by_cases hi : i < ps.reverse.length
  · rw [List.getElem?_append_left hi] at hq ⊢
    exact ⟨q, hq, .refl q⟩
  · rw [List.getElem?_append_right (not_lt.mp hi)] at hq ⊢
    obtain ⟨hlt, hq⟩ := List.getElem?_eq_some_iff.mp hq
    simp only [List.length_singleton] at hlt
    obtain hzero : i - ps.reverse.length = 0 := by omega
    refine ⟨p.extend bytes ms, by rw [hzero]; rfl, ?_⟩
    obtain rfl : p = q := by simpa [hzero] using hq
    exact ⟨rfl, List.prefix_append _ _, rfl, List.prefix_append _ _⟩

lemma grown_archiveStep (ps : List CapturePair) (e : StoreEvent) : Grown ps (archiveStep ps e) := by
  cases e with
  | opened bin txt => exact grown_cons _ _
  | wrote bytes ms =>
    cases ps with
    | nil => exact Grown.refl _
    | cons p ps => exact grown_extend p ps bytes ms
  | evicted victim before => cases ps <;> exact Grown.refl _
  | settled after => cases ps <;> exact Grown.refl _

/-- As the history goes on, pairs are added to the archive and appended to, never lost. -/
lemma grown_archive_append (h t : List StoreEvent) : Grown (archive h) (archive (h ++ t)) := by
  induction t using List.reverseRecOn with
  | nil =>
    rw [List.append_nil]
    exact Grown.refl _
  | append_singleton t e ih =>
    rw [← List.append_assoc, archive_concat]
    exact ih.trans (grown_archiveStep _ e)

namespace Capture

variable {c : Capture}

lemma history_enforceBudget (c : Capture) : ∃ evs : List StoreEvent,
    (∀ e ∈ evs, e.isEviction = true) ∧ c.enforceBudget.history = c.history ++ evs := by
  fun_induction enforceBudget c with
  | case1 c hover hv => exact ⟨[], by simp, by simp⟩
  | case2 c hover v hv ih =>
    obtain ⟨evs, hevs, ih⟩ := ih
    refine ⟨.evicted v c.store :: evs, ?_, by rw [ih, List.append_assoc]; rfl⟩
    intro e he
    rcases List.mem_cons.mp he with rfl | he
    · rfl
    · exact hevs e he
  | case3 c hover => exact ⟨[], by simp, by simp⟩

lemma history_openNewCapture (p : Platform) (c : Capture) :
    ∃ (bin txt : RamCapture) (evs : List StoreEvent) (after : Store),
      (∀ e ∈ evs, e.isEviction = true) ∧ (c.openNewCapture p).history
        = c.history ++ .opened bin txt :: evs ++ [.settled after] := by
  obtain ⟨evs, hevs, h⟩ := history_enforceBudget (c.closeCurrentCapture.pushNewPair p)
  refine ⟨newBin p c.closeCurrentCapture, newTxt p c.closeCurrentCapture, evs,
    (c.openNewCapture p).store, hevs, ?_⟩
  simp only [openNewCapture, h]
  simp [pushNewPair]

lemma history_writeBytes (hsink : c.testSink = none) (hlive : c.isLive) (p : Platform)
    (bytes : List UInt8) : ∃ (evs : List StoreEvent) (after : Store),
      (∀ e ∈ evs, e.isEviction = true) ∧ (c.writeBytes p bytes).history
        = c.history ++ .wrote bytes p.millis :: evs ++ [.settled after] := by
  obtain ⟨evs, hevs, h⟩ := history_enforceBudget (c.appendToLive p bytes)
  refine ⟨evs, (c.appendToLive p bytes).enforceBudget.store, hevs, ?_⟩
  rw [writeBytes_of_isLive hsink hlive]
  simp only [h]
  simp [appendToLive]

lemma history_writeEvents (hsink : c.testSink = none) (p : Platform) (es : List Event) :
    c.history <+: (c.writeEvents p es).history ∧
      (Rounds c.history → Rounds (c.writeEvents p es).history) := by
  by_cases hlive : c.isLive
  · induction es generalizing c with
    | nil => exact ⟨List.prefix_rfl, id⟩
    | cons e es ih =>
      obtain ⟨evs, after, hevs, hwrite⟩ := history_writeBytes hsink hlive p e.serialize
      obtain ⟨hpre, hrounds⟩ := ih (testSink_writeBytes hsink p e.serialize)
        ((isLive_writeBytes p _ c).mpr hlive)
      rw [writeEvents_cons]
      refine ⟨List.IsPrefix.trans ?_ hpre, fun h => hrounds ?_⟩
      · rw [hwrite, List.append_assoc]
        exact List.prefix_append _ _
      · rw [hwrite]
        exact h.wrote _ _ hevs after
  · rw [writeEvents_of_not_isLive hsink hlive]
    exact ⟨List.prefix_rfl, id⟩

end Capture

/-! ### The invariant -/

/-- In this mode a session has its own pair of captures. -/
def Mode.opens (m : Mode) : Prop := m = .bridgeOnly ∨ m = .both

instance (m : Mode) : Decidable m.opens := inferInstanceAs (Decidable (_ ∨ _))

namespace Capture

variable {c : Capture}

/-- What holds between the calls. -/
structure Inv (c : Capture) : Prop extends StoreInv c where
  sink : c.testSink = none
  isLive_iff : c.isLive ↔ c.sessionActive = true ∧ c.mode.opens
  queued : ∀ e ∈ c.ring.events, e.Queueable
  contents : ∀ q ∈ archive c.history, ∃ es, q.Holds c.config es
  settled : c.isLive → c.store.Settled c.maxTotalBytes
  rounds : Rounds c.history

lemma inv_configured (cfg : Config) : (configured cfg).Inv where
  accounted := Store.accounted_init
  shelves := .closed Store.closed_init (Nat.zero_le _) rfl
  events := by simp [configured, setBaudRate, setMaxTotalBytes, setPanelName, setMode, init]
  sink := rfl
  isLive_iff := by
    simp [configured, setBaudRate, setMaxTotalBytes, setPanelName, setMode, init, isLive, Store.init]
  queued := by
    simp [configured, setBaudRate, setMaxTotalBytes, setPanelName, setMode, init, EventRing.events]
  contents := by simp [configured, setBaudRate, setMaxTotalBytes, setPanelName, setMode, init]
  settled _ := Or.inl (Nat.zero_le _)
  rounds := .nil

/-- With a live pair, the archive starts with it. -/
lemma StoreInv.exists_live (h : c.StoreInv) (hlive : c.isLive) : ∃ q older,
    archive c.history = q :: older ∧ evictions c.history ≤ (files older).length ∧
      c.store.Live ((files older).drop (evictions c.history)) q := by
  cases h.shelves with
  | closed hclosed hn hcaptures => exact absurd hclosed.bin_neg (not_lt.mpr hlive)
  | live q older hps hn hq => exact ⟨q, older, hps, hn, hq⟩

lemma StoreInv.closed_of_not_isLive (h : c.StoreInv) (hlive : ¬ c.isLive) : c.store.Closed := by
  cases h.shelves with
  | closed hclosed hn hcaptures => exact hclosed
  | live q older hps hn hq => exact absurd (not_lt.mp hq.bin_nonneg) hlive

/-- A pair is live exactly during a session that has one. -/
lemma Inv.live_iff (h : c.Inv) :
    ((∃ old q, c.store.Live old q) ↔ c.sessionActive = true ∧ c.mode.opens) ∧
      (c.store.Closed ↔ ¬ (c.sessionActive = true ∧ c.mode.opens)) := by
  rw [← h.isLive_iff]
  constructor
  · constructor
    · rintro ⟨old, q, hq⟩
      exact not_lt.mp hq.bin_nonneg
    · intro hlive
      obtain ⟨q, older, -, -, hq⟩ := h.exists_live hlive
      exact ⟨_, q, hq⟩
  · constructor
    · exact fun hclosed => not_le.mpr hclosed.bin_neg
    · exact h.closed_of_not_isLive

/-! ### Flush -/

/-- A flush empties the ring and leaves alone all but the store, its history and the counters. -/
lemma Inv.flushRing_frame (h : c.Inv) (p : Platform) :
    ∃ store warn history written drops, ∃ ring : EventRing, ring.events = [] ∧
      c.flushRing p = { c with
        store := store, budgetWarnEmitted := warn, history := history
        bytesWrittenTotal := written, drops := drops, ring := ring } := by
  obtain ⟨r, hr, hflush⟩ := flushRing_eq p h.queued
  obtain ⟨_, _, _, _, _, hwrites⟩ := writeEvents_frame h.sink p c.ring.events
  rw [hflush, hwrites]
  exact ⟨_, _, _, _, _, r, hr, rfl⟩

lemma Inv.isLive_flushRing (h : c.Inv) (p : Platform) : (c.flushRing p).isLive ↔ c.isLive := by
  obtain ⟨r, hr, hflush⟩ := flushRing_eq p h.queued
  rw [hflush]
  exact isLive_writeEvents p c.ring.events c

lemma Inv.history_flushRing (h : c.Inv) (p : Platform) :
    c.history <+: (c.flushRing p).history := by
  obtain ⟨r, hr, hflush⟩ := flushRing_eq p h.queued
  rw [hflush]
  exact (history_writeEvents h.sink p c.ring.events).1

/-- With nothing live, every queued event is dropped. -/
lemma Inv.flushRing_of_not_isLive (h : c.Inv) (hlive : ¬ c.isLive) (p : Platform) :
    ∃ ring : EventRing, ring.events = [] ∧ c.flushRing p
      = { c with drops := c.drops + UInt32.ofNat c.ring.events.length, ring := ring } := by
  obtain ⟨r, hr, hflush⟩ := flushRing_eq p h.queued
  refine ⟨r, hr, ?_⟩
  rw [hflush, writeEvents_of_not_isLive h.sink hlive]

/-- With a live pair, the queued events end up at its end and none is dropped. -/
lemma Inv.flushRing_of_isLive (h : c.Inv) (hlive : c.isLive) (p : Platform) {q : CapturePair}
    {older : List CapturePair} (harchive : archive c.history = q :: older) :
    (c.flushRing p).drops = c.drops ∧
      archive (c.flushRing p).history = q.extendEvents c.ring.events p.millis :: older := by
  obtain ⟨r, hr, hflush⟩ := flushRing_eq p h.queued
  rw [hflush]
  exact ⟨drops_writeEvents h.sink hlive p _, archive_writeEvents h.sink hlive p _ harchive⟩

lemma Inv.flushRing (h : c.Inv) (p : Platform) : (c.flushRing p).Inv := by
  obtain ⟨_, _, _, _, _, r, hr, hframe⟩ := h.flushRing_frame p
  have hcfg : (c.flushRing p).config = c.config := by
    rw [hframe]
    rfl
  have hlive := h.isLive_flushRing p
  have hwrites := h.toStoreInv.writeEvents h.sink p h.queued
  obtain ⟨r', hr', hflush⟩ := flushRing_eq p h.queued
  refine ⟨?_, ?_, ?_, ?_, ?_, ?_, ?_⟩
  · rw [hflush]
    exact ⟨hwrites.accounted, hwrites.shelves, hwrites.events⟩
  · rw [hframe]
    exact h.sink
  · rw [hlive, h.isLive_iff, hframe]
  · rw [hframe]
    simp [hr]
  · by_cases hc : c.isLive
    · obtain ⟨q, older, harchive, -, -⟩ := h.exists_live hc
      obtain ⟨es, hes⟩ := h.contents q (by rw [harchive]; exact List.mem_cons_self)
      obtain ⟨-, harchive'⟩ := h.flushRing_of_isLive hc p harchive
      rw [harchive', hcfg]
      intro q' hmem
      rcases List.mem_cons.mp hmem with rfl | hmem
      · exact ⟨_, hes.extendEvents h.queued p.millis⟩
      · exact h.contents q' (by rw [harchive]; exact List.mem_cons_of_mem _ hmem)
    · obtain ⟨_, -, hdropped⟩ := h.flushRing_of_not_isLive hc p
      rw [hcfg, hdropped]
      exact h.contents
  · intro hc
    have := settled_writeEvents h.toStoreInv h.sink (hlive.mp hc) (h.settled (hlive.mp hc)) p h.queued
    rw [hflush]
    obtain ⟨_, _, _, _, _, hframe'⟩ := writeEvents_frame h.sink p c.ring.events
    rw [hframe'] at this ⊢
    exact this
  · rw [hflush]
    exact (history_writeEvents h.sink p c.ring.events).2 h.rounds

/-- The periodic tick flushes. -/
lemma loop_eq_flushRing (p : Platform) (c : Capture) : c.loop p = c.flushRing p := by
  unfold loop
  split_ifs with h
  · rw [Capture.flushRing, h]
    rfl
  · rfl

lemma size_loop (p : Platform) (c : Capture) : (c.loop p).ring.size = 0 := by
  rw [loop_eq_flushRing, size_flushRing]

/-! ### Record -/

lemma enqueueEvent_frame (p : Platform) (direction : UInt8) (bytes : List UInt8) (c : Capture) :
    ∃ ring drops warn, c.enqueueEvent p direction bytes
      = { c with ring := ring, drops := drops, warnThrottle := warn } := by
  unfold enqueueEvent
  split <;> exact ⟨_, _, _, rfl⟩

/-- The chunks that fit are queued behind what is queued already. -/
lemma events_enqueueEvent (p : Platform) (direction : UInt8) (bytes : List UInt8) (c : Capture) :
    (c.enqueueEvent p direction bytes).ring.events = c.ring.events ++
      (chunkEvents p c.sessionStartUs direction bytes 0).take (kCaptureRingEvents - c.ring.size) := by
  obtain ⟨-, hevents⟩ := enqueueChunks_spec p c.sessionStartUs direction bytes 0 c.ring
  rw [← hevents]
  unfold enqueueEvent
  split <;> rename_i h <;> rw [h]

/-- A push that does not fit whole is one drop. -/
lemma drops_enqueueEvent (p : Platform) (direction : UInt8) (bytes : List UInt8) (c : Capture) :
    (c.enqueueEvent p direction bytes).drops =
      if (chunkEvents p c.sessionStartUs direction bytes 0).length ≤ kCaptureRingEvents - c.ring.size
      then c.drops else c.drops + 1 := by
  obtain ⟨hflag, -⟩ := enqueueChunks_spec p c.sessionStartUs direction bytes 0 c.ring
  unfold enqueueEvent
  split <;> rename_i h
  · rw [h] at hflag
    rw [if_pos (of_decide_eq_true hflag.symm)]
  · rw [h] at hflag
    rw [if_neg (of_decide_eq_false hflag.symm)]

lemma Inv.setRing (h : c.Inv) {ring : EventRing} (hq : ∀ e ∈ ring.events, e.Queueable)
    (drops warn : UInt32) :
    Inv { c with ring := ring, drops := drops, warnThrottle := warn } :=
  ⟨⟨h.accounted, h.shelves, h.events⟩, h.sink, h.isLive_iff, hq, h.contents, h.settled, h.rounds⟩

lemma Inv.enqueueEvent (h : c.Inv) (p : Platform) {direction : UInt8} (hdir : direction ≤ 1)
    (bytes : List UInt8) : (c.enqueueEvent p direction bytes).Inv := by
  have hevents := events_enqueueEvent p direction bytes c
  obtain ⟨ring, drops, warn, hframe⟩ := enqueueEvent_frame p direction bytes c
  rw [hframe] at hevents ⊢
  apply h.setRing
  intro e he
  simp only at hevents
  rw [hevents] at he
  rcases List.mem_append.mp he with he | he
  · exact h.queued e he
  · exact queueable_of_mem_chunkEvents hdir (List.mem_of_mem_take he)

/-- Either a push is filtered out and nothing changes, or its direction is in order and it is
queued. -/
lemma record_cases (p : Platform) (direction : UInt8) (bytes : List UInt8) (c : Capture) :
    c.record p direction bytes = (false, c) ∨
      direction ≤ 1 ∧ c.record p direction bytes = (true, c.enqueueEvent p direction bytes) := by
  unfold record
  split_ifs with h₁ h₂ h₃ h₄ h₅
  · exact Or.inl rfl
  · exact Or.inl rfl
  · exact Or.inl rfl
  · exact Or.inl rfl
  · exact Or.inl rfl
  · exact Or.inr ⟨UInt8.not_lt.mp h₂, rfl⟩

/-- While a session is active in a mode that has captures for it, every push in order is queued. -/
lemma record_of_opens (p : Platform) {direction : UInt8} {bytes : List UInt8}
    (hmode : c.mode.opens) (hactive : c.sessionActive = true) (hdir : direction ≤ 1)
    (hb : bytes ≠ []) :
    c.record p direction bytes = (true, c.enqueueEvent p direction bytes) := by
  have hdir' : ¬ direction > 1 := UInt8.not_lt.mpr hdir
  obtain hmode | hmode := hmode
  · simp [Capture.record, hmode, hactive, hdir', hb]
  · simp [Capture.record, hmode, hdir', hb]

lemma wouldRecord_of_opens (hmode : c.mode.opens) (hactive : c.sessionActive = true) :
    c.wouldRecord = true := by
  obtain hmode | hmode := hmode <;> simp [wouldRecord, hmode, hactive]

lemma Inv.record (h : c.Inv) (p : Platform) (direction : UInt8) (bytes : List UInt8) :
    (c.record p direction bytes).2.Inv := by
  rcases record_cases p direction bytes c with hrec | ⟨hdir, hrec⟩
  · rw [hrec]
    exact h
  · rw [hrec]
    exact h.enqueueEvent p hdir bytes

/-- Recording touches the ring and the counters only. -/
lemma record_frame (p : Platform) (direction : UInt8) (bytes : List UInt8) (c : Capture) :
    ∃ ring drops warn, (c.record p direction bytes).2
      = { c with ring := ring, drops := drops, warnThrottle := warn } := by
  rcases record_cases p direction bytes c with hrec | ⟨hdir, hrec⟩
  · rw [hrec]
    exact ⟨_, _, _, rfl⟩
  · rw [hrec]
    exact enqueueEvent_frame p direction bytes c

/-! ### Session start -/

/-- The sink once it has been told that a session is on. -/
def started (p : Platform) (c : Capture) : Capture :=
  { c with sessionActive := true, sessionStartUs := (p.micros 0).toUInt64 }

lemma onSessionStart_of_opens (hmode : c.mode.opens) (p : Platform) :
    c.onSessionStart p = (c.started p).openNewCapture p := by
  obtain hmode | hmode := hmode
  · simp [onSessionStart, started, hmode]
  · simp [onSessionStart, started, hmode]

lemma onSessionStart_of_not_opens (hmode : ¬ c.mode.opens) (p : Platform) :
    c.onSessionStart p = c.started p := by
  have hother : c.mode = .none ∨ c.mode = .monitorOnly := by
    cases hm : c.mode <;> simp_all [Mode.opens]
  obtain hm | hm := hother
  · simp [onSessionStart, started, hm]
  · simp [onSessionStart, started, hm]

/-- Starting a session sets the flag and the clock, and may open a pair. -/
lemma onSessionStart_frame (p : Platform) (c : Capture) : ∃ store warn history seq,
    c.onSessionStart p = { c.started p with
      store := store, budgetWarnEmitted := warn, history := history, fileSeq := seq } := by
  by_cases hmode : c.mode.opens
  · rw [onSessionStart_of_opens hmode]
    exact openNewCapture_frame p (c.started p)
  · rw [onSessionStart_of_not_opens hmode]
    exact ⟨_, _, _, _, rfl⟩

/-- In a mode that opens, the archive has a new pair and nothing in it yet. -/
lemma archive_onSessionStart (hmode : c.mode.opens) (p : Platform) : ∃ q : CapturePair,
    archive (c.onSessionStart p).history = q :: archive c.history ∧ q.Holds c.config [] := by
  rw [onSessionStart_of_opens hmode, archive_openNewCapture]
  exact ⟨_, rfl, .opened (c.started p) rfl p⟩

lemma StoreInv.started (h : c.StoreInv) (p : Platform) : (c.started p).StoreInv :=
  ⟨h.accounted, h.shelves, h.events⟩

lemma Inv.onSessionStart (h : c.Inv) (p : Platform) : (c.onSessionStart p).Inv := by
  by_cases hmode : c.mode.opens
  · obtain ⟨q, harchive, hq⟩ := archive_onSessionStart hmode p
    have hstore := (h.toStoreInv.started p).openNewCapture p
    have hlive := isLive_openNewCapture p (c.started p)
    have hsettled := settled_openNewCapture (h.toStoreInv.started p) p
    obtain ⟨bin, txt, evs, after, hevs, hhistory⟩ := history_openNewCapture p (c.started p)
    rw [onSessionStart_of_opens hmode] at harchive ⊢
    obtain ⟨store, warn, history, seq, hframe⟩ := openNewCapture_frame p (c.started p)
    have hcfg : ((c.started p).openNewCapture p).config = c.config := by
      rw [hframe]
      rfl
    refine ⟨hstore, ?_, ?_, ?_, ?_, ?_, ?_⟩
    · rw [hframe]
      exact h.sink
    · refine ⟨fun _ => ?_, fun _ => hlive⟩
      rw [hframe]
      exact ⟨rfl, hmode⟩
    · rw [hframe]
      exact h.queued
    · rw [harchive, hcfg]
      intro q' hmem
      rcases List.mem_cons.mp hmem with rfl | hmem
      · exact ⟨[], hq⟩
      · exact h.contents q' hmem
    · intro _
      have hmax := congrArg Config.maxTotalBytes hcfg
      simp only [config] at hmax
      rw [hmax]
      exact hsettled
    · rw [hhistory]
      exact h.rounds.opened bin txt hevs after
  · rw [onSessionStart_of_not_opens hmode]
    have hlive : ¬ c.isLive := fun hlive => hmode (h.isLive_iff.mp hlive).2
    refine ⟨h.toStoreInv.started p, h.sink, ?_, h.queued, h.contents, h.settled, h.rounds⟩
    exact ⟨fun hl => absurd hl hlive, fun hl => absurd hl.2 hmode⟩

/-! ### Session end -/

/-- Closing leaves alone all but the live indices. -/
lemma closeCurrentCapture_frame (c : Capture) : ∃ bin txt, c.closeCurrentCapture
    = { c with store := { c.store with currentBinIdx := bin, currentTxtIdx := txt } } := by
  unfold closeCurrentCapture
  split_ifs <;> exact ⟨_, _, rfl⟩

/-- Ending a session flushes, closes the pair and clears the flag. -/
lemma Inv.onSessionEnd_frame (h : c.Inv) (p : Platform) :
    ∃ store warn history written drops, ∃ ring : EventRing, ring.events = [] ∧
      c.onSessionEnd p = { c with
        store := store, budgetWarnEmitted := warn, history := history
        bytesWrittenTotal := written, drops := drops, ring := ring, sessionActive := false } := by
  obtain ⟨_, _, _, _, _, r, hr, hflush⟩ := h.flushRing_frame p
  obtain ⟨_, _, hclose⟩ := closeCurrentCapture_frame (c.flushRing p)
  rw [Capture.onSessionEnd, hclose, hflush]
  exact ⟨_, _, _, _, _, r, hr, rfl⟩

lemma captures_onSessionEnd (p : Platform) (c : Capture) :
    (c.onSessionEnd p).store.captures = (c.flushRing p).store.captures ∧
      (c.onSessionEnd p).store.totalBytesUsed = (c.flushRing p).store.totalBytesUsed := by
  obtain ⟨_, _, hclose⟩ := closeCurrentCapture_frame (c.flushRing p)
  rw [onSessionEnd, hclose]
  exact ⟨rfl, rfl⟩

lemma history_onSessionEnd (p : Platform) (c : Capture) :
    (c.onSessionEnd p).history = (c.flushRing p).history :=
  history_closeCurrentCapture _

lemma drops_onSessionEnd (p : Platform) (c : Capture) :
    (c.onSessionEnd p).drops = (c.flushRing p).drops := by
  obtain ⟨_, _, hclose⟩ := closeCurrentCapture_frame (c.flushRing p)
  rw [onSessionEnd, hclose]

lemma not_isLive_onSessionEnd (p : Platform) (c : Capture) : ¬ (c.onSessionEnd p).isLive :=
  not_isLive_closeCurrentCapture (c.flushRing p)

lemma Inv.onSessionEnd (h : c.Inv) (p : Platform) : (c.onSessionEnd p).Inv := by
  have hflush := h.flushRing p
  have hstore := hflush.toStoreInv.closeCurrentCapture
  have hlive := not_isLive_onSessionEnd p c
  obtain ⟨bin, txt, hclose⟩ := closeCurrentCapture_frame (c.flushRing p)
  rw [Capture.onSessionEnd, hclose] at hlive ⊢
  rw [hclose] at hstore
  refine ⟨⟨hstore.accounted, hstore.shelves, hstore.events⟩, hflush.sink, ?_, hflush.queued,
    hflush.contents, fun hl => absurd hl hlive, hflush.rounds⟩
  exact ⟨fun hl => absurd hl hlive, fun hl => by simp at hl⟩

/-! ### Runs -/

/-- Every call keeps the invariant. -/
lemma Inv.step (h : c.Inv) (op : Op) : (step c op).Inv := by
  cases op with
  | sessionStart p => exact h.onSessionStart p
  | sessionEnd p => exact h.onSessionEnd p
  | record p direction bytes => exact h.record p direction bytes
  | loop p =>
    rw [Capture.step, loop_eq_flushRing]
    exact h.flushRing p

@[simp] lemma run_nil (cfg : Config) : run cfg [] = configured cfg := rfl

@[simp] lemma run_concat (cfg : Config) (ops : List Op) (op : Op) :
    run cfg (ops ++ [op]) = step (run cfg ops) op := by
  simp [run]

/-- The invariant holds in every reachable state. -/
lemma inv_run (cfg : Config) (ops : List Op) : (run cfg ops).Inv := by
  induction ops using List.reverseRecOn with
  | nil => exact inv_configured cfg
  | append_singleton ops op ih =>
    rw [run_concat]
    exact ih.step op

lemma Inv.config_step (h : c.Inv) (op : Op) : (Capture.step c op).config = c.config := by
  cases op with
  | sessionStart p =>
    obtain ⟨_, _, _, _, hframe⟩ := onSessionStart_frame p c
    rw [Capture.step, hframe]
    rfl
  | sessionEnd p =>
    obtain ⟨_, _, _, _, _, _, _, hframe⟩ := h.onSessionEnd_frame p
    rw [Capture.step, hframe]
    rfl
  | record p direction bytes =>
    obtain ⟨_, _, _, hframe⟩ := record_frame p direction bytes c
    rw [Capture.step, hframe]
    rfl
  | loop p =>
    obtain ⟨_, _, _, _, _, _, _, hframe⟩ := h.flushRing_frame p
    rw [Capture.step, loop_eq_flushRing, hframe]
    rfl

lemma config_run (cfg : Config) (ops : List Op) :
    (run cfg ops).config = (configured cfg).config := by
  induction ops using List.reverseRecOn with
  | nil => rfl
  | append_singleton ops op ih => rw [run_concat, (inv_run cfg ops).config_step, ih]

lemma mode_run (cfg : Config) (ops : List Op) : (run cfg ops).mode = cfg.mode :=
  congrArg Config.mode (config_run cfg ops)

/-- Calls only ever add to the history. -/
lemma Inv.history_step (h : c.Inv) (op : Op) : c.history <+: (Capture.step c op).history := by
  cases op with
  | sessionStart p =>
    rw [Capture.step]
    by_cases hmode : c.mode.opens
    · obtain ⟨bin, txt, evs, after, -, hhistory⟩ := history_openNewCapture p (c.started p)
      rw [onSessionStart_of_opens hmode, hhistory, List.append_assoc]
      exact List.prefix_append _ _
    · rw [onSessionStart_of_not_opens hmode]
      exact List.prefix_rfl
  | sessionEnd p =>
    rw [Capture.step, history_onSessionEnd]
    exact h.history_flushRing p
  | record p direction bytes =>
    obtain ⟨_, _, _, hframe⟩ := record_frame p direction bytes c
    rw [Capture.step, hframe]
  | loop p =>
    rw [Capture.step, loop_eq_flushRing]
    exact h.history_flushRing p

/-- The `.bin` of the `i`-th pair is stored unless it was evicted. -/
lemma Inv.stored_bin (h : c.Inv) {i : ℕ} {q : CapturePair}
    (hq : (archive c.history).reverse[i]? = some q) (hstored : evictions c.history ≤ 2 * i) :
    c.store.captures[2 * i - evictions c.history]? = some q.bin := by
  rw [h.shelves.captures_eq, List.getElem?_drop, Nat.add_sub_cancel' hstored,
    (getElem?_files _ i).1, hq]
  rfl

lemma history_run_append (cfg : Config) (ops ops' : List Op) :
    (run cfg ops).history <+: (run cfg (ops ++ ops')).history := by
  induction ops' using List.reverseRecOn with
  | nil => rw [List.append_nil]
  | append_singleton ops' op ih =>
    rw [← List.append_assoc, run_concat]
    exact ih.trans ((inv_run cfg _).history_step op)

/-- The store in every reachable state. The byte counter is the sum of the sizes; the captures are
all that were ever created but for the oldest ones, evicted; nothing is live, or the newest pair is
and sits in the last two positions; whatever comes next only appends to a pair; after each open and
each write the budget is met or only the live pair is left; and every victim was the oldest capture,
was not live, and went when the total exceeded the budget. -/
theorem store_represents_archive (cfg : Config) (ops : List Op) :
    let c := run cfg ops
    c.store.totalBytesUsed = (c.store.captures.map (·.bytes.length)).sum ∧
    evictions c.history ≤ (files (archive c.history)).length ∧
    c.store.captures = (files (archive c.history)).drop (evictions c.history) ∧
    (c.store.Closed ∨ ∃ q older, archive c.history = q :: older ∧
      c.store.Live ((files older).drop (evictions c.history)) q) ∧
    (∀ ops', Grown (archive c.history) (archive (run cfg (ops ++ ops')).history)) ∧
    Rounds c.history ∧ ∀ e ∈ c.history, e.Ok c.maxTotalBytes := by
  intro c
  have h : c.Inv := inv_run cfg ops
  refine ⟨h.accounted, h.shelves.le_length, h.shelves.captures_eq, ?_, ?_, h.rounds, h.events⟩
  · by_cases hlive : c.isLive
    · obtain ⟨q, older, harchive, -, hq⟩ := h.exists_live hlive
      exact Or.inr ⟨q, older, harchive, hq⟩
    · exact Or.inl (h.closed_of_not_isLive hlive)
  · intro ops'
    obtain ⟨t, ht⟩ := history_run_append cfg ops ops'
    rw [← ht]
    exact grown_archive_append _ t

end Capture
end TexecomBridge
