import TexecomBridge.Capture.Store
import TexecomBridge.Format.RoundTrip

/-!
# The archive

The store as it would be had nothing ever been evicted: every session's pair with all that was
written to it. The archive is read off the history, and what the store holds is a suffix of it.
-/

namespace TexecomBridge

/-! ### Archive and evictions -/

/-- One event's effect on the archive, newest pair first. -/
def archiveStep : List CapturePair → StoreEvent → List CapturePair
  | ps, .opened bin txt => ⟨bin, txt⟩ :: ps
  | [], .wrote _ _ => []
  | p :: ps, .wrote bytes ms => p.extend bytes ms :: ps
  | ps, .evicted _ _ => ps
  | ps, .settled _ => ps

/-- Every pair ever opened, newest first. -/
def archive (h : List StoreEvent) : List CapturePair := h.foldl archiveStep []

def StoreEvent.isEviction : StoreEvent → Bool
  | .evicted _ _ => true
  | _ => false

/-- The number of captures ever evicted. -/
def evictions (h : List StoreEvent) : ℕ := h.countP StoreEvent.isEviction

/-- The captures of a list of pairs, newest pair first, in the order they were created. -/
def files : List CapturePair → List RamCapture
  | [] => []
  | p :: ps => files ps ++ [p.bin, p.txt]

@[simp] lemma archive_nil : archive [] = [] := rfl

@[simp] lemma archive_concat (h : List StoreEvent) (e : StoreEvent) :
    archive (h ++ [e]) = archiveStep (archive h) e := by
  simp [archive]

@[simp] lemma evictions_nil : evictions [] = 0 := rfl

@[simp] lemma evictions_concat (h : List StoreEvent) (e : StoreEvent) :
    evictions (h ++ [e]) = evictions h + if e.isEviction then 1 else 0 := by
  simp [evictions, List.countP_append]

@[simp] lemma length_files (ps : List CapturePair) : (files ps).length = 2 * ps.length := by
  induction ps with
  | nil => rfl
  | cons p ps ih =>
    simp only [files, List.length_append, ih, List.length_cons, List.length_nil]
    omega

/-- The `i`-th pair, counted from the oldest, is at `2 * i`. -/
lemma getElem?_files (ps : List CapturePair) (i : ℕ) :
    (files ps)[2 * i]? = (ps.reverse[i]?).map CapturePair.bin ∧
      (files ps)[2 * i + 1]? = (ps.reverse[i]?).map CapturePair.txt := by
  induction ps with
  | nil => simp [files]
  | cons p ps ih =>
    rw [files, List.reverse_cons]
    rcases lt_trichotomy i ps.length with hi | rfl | hi
    · rw [List.getElem?_append_left (by simp; omega), List.getElem?_append_left (by simpa using hi),
        List.getElem?_append_left (by simp; omega)]
      exact ih
    · rw [List.getElem?_append_right (by simp), List.getElem?_append_right (by simp),
        List.getElem?_append_right (by simp)]
      simp
    · rw [List.getElem?_eq_none (by simp; omega), List.getElem?_eq_none (by simp; omega),
        List.getElem?_eq_none (by simp; omega)]
      exact ⟨rfl, rfl⟩

/-- A capture that is not text is the `.bin` of a pair. -/
lemma exists_pair_of_bin {ps : List CapturePair} (htext : ∀ q ∈ ps, q.txt.isText = true) {n : ℕ}
    {bin : RamCapture} (hbin : (files ps)[n]? = some bin) (hnot : bin.isText = false) :
    ∃ i q, n = 2 * i ∧ ps.reverse[i]? = some q ∧ q.bin = bin := by
  obtain ⟨i, rfl | rfl⟩ := Nat.even_or_odd' n
  · rw [(getElem?_files ps i).1, Option.map_eq_some_iff] at hbin
    obtain ⟨q, hq, hqbin⟩ := hbin
    exact ⟨i, q, rfl, hq, hqbin⟩
  · rw [(getElem?_files ps i).2, Option.map_eq_some_iff] at hbin
    obtain ⟨q, hq, rfl⟩ := hbin
    rw [htext q (List.mem_reverse.mp (List.mem_of_getElem? hq))] at hnot
    cases hnot

/-! ### The invariant -/

/-- Within the budget, or nothing but the live pair is stored. -/
def Store.Settled (max : ℕ) (s : Store) : Prop :=
  s.totalBytesUsed ≤ max ∨
    ∀ i < s.captures.length, (i : ℤ) = s.currentBinIdx ∨ (i : ℤ) = s.currentTxtIdx

/-- What holds at the moment of each event. A victim is the oldest capture, is not live, is evicted
while the total exceeds the budget, and is no larger than the total. -/
def StoreEvent.Ok (max : ℕ) : StoreEvent → Prop
  | .opened _ _ => True
  | .wrote _ _ => True
  | .evicted v before =>
    v = 0 ∧ max < before.totalBytesUsed ∧ (v : ℤ) ≠ before.currentBinIdx ∧
      (v : ℤ) ≠ before.currentTxtIdx ∧
      ∃ c, before.captures[v]? = some c ∧ c.bytes.length ≤ before.totalBytesUsed
  | .settled after => after.Settled max

/-- The store holds all but the oldest `n` captures of the archive, and what is live, if anything,
is the newest pair. -/
inductive Store.Shelves (s : Store) (ps : List CapturePair) (n : ℕ) : Prop
  | closed (hclosed : s.Closed) (hn : n ≤ (files ps).length)
      (hcaptures : s.captures = (files ps).drop n)
  | live (p : CapturePair) (older : List CapturePair) (hps : ps = p :: older)
      (hn : n ≤ (files older).length) (hlive : s.Live ((files older).drop n) p)

lemma Store.Shelves.captures_eq {s : Store} {ps : List CapturePair} {n : ℕ}
    (h : s.Shelves ps n) : s.captures = (files ps).drop n := by
  cases h with
  | closed _ _ hcaptures => exact hcaptures
  | live p older hps hn hlive =>
    rw [hlive.captures_eq, hps, files, List.drop_append_of_le_length hn]

lemma Store.Shelves.le_length {s : Store} {ps : List CapturePair} {n : ℕ} (h : s.Shelves ps n) :
    n ≤ (files ps).length := by
  cases h with
  | closed hclosed hn hcaptures => exact hn
  | live p older hps hn hlive =>
    rw [hps, files, List.length_append]
    exact hn.trans (Nat.le_add_right _ _)

private lemma lt_length_of_drop_eq_cons {α : Type*} {xs : List α} {n : ℕ} {y : α} {ys : List α}
    (h : xs.drop n = y :: ys) : n < xs.length := by
  by_contra hge
  rw [List.drop_of_length_le (not_lt.mp hge)] at h
  cases h

/-- When nothing is left to evict, nothing but the live pair is stored. -/
lemma Store.Shelves.settled_of_victim_eq_none {s : Store} {ps : List CapturePair} {n max : ℕ}
    (h : s.Shelves ps n) (hv : s.victim = none) : s.Settled max := by
  right
  intro i hi
  cases h with
  | closed hclosed hn hcaptures =>
    cases hc : s.captures with
    | nil => simp [hc] at hi
    | cons o rest =>
      rw [hclosed.victim_cons hc] at hv
      simp at hv
  | live p older hps hn hlive =>
    cases hold : (files older).drop n with
    | nil =>
      rw [hold] at hlive
      rw [hlive.length_eq, List.length_nil] at hi
      rw [hlive.bin_eq, hlive.txt_eq, List.length_nil]
      omega
    | cons o rest =>
      rw [hold] at hlive
      rw [hlive.victim_cons] at hv
      simp at hv

/-- The victim is the oldest capture and is not live; the rest stays on the shelves. -/
lemma Store.Shelves.evict {s : Store} {ps : List CapturePair} {n v : ℕ} (h : s.Shelves ps n)
    (hv : s.victim = some v) :
    v = 0 ∧ (∃ o rest, s.captures = o :: rest) ∧ (v : ℤ) ≠ s.currentBinIdx ∧
      (v : ℤ) ≠ s.currentTxtIdx ∧ (s.evict v).Shelves ps (n + 1) := by
  cases h with
  | closed hclosed hn hcaptures =>
    cases hfiles : (files ps).drop n with
    | nil =>
      rw [Store.Closed.victim_nil (hcaptures.trans hfiles)] at hv
      cases hv
    | cons o rest =>
      rw [hfiles] at hcaptures
      rw [hclosed.victim_cons hcaptures, Option.some.injEq] at hv
      subst hv
      refine ⟨rfl, ⟨o, rest, hcaptures⟩, by simp [hclosed.bin_eq], by simp [hclosed.txt_eq],
        .closed (hclosed.evict 0) (lt_length_of_drop_eq_cons hfiles) ?_⟩
      rw [Store.captures_evict_zero hcaptures, ← List.drop_drop, hfiles]
      rfl
  | live p older hps hn hlive =>
    cases hfiles : (files older).drop n with
    | nil =>
      rw [hfiles] at hlive
      rw [hlive.victim_nil] at hv
      cases hv
    | cons o rest =>
      rw [hfiles] at hlive
      rw [hlive.victim_cons, Option.some.injEq] at hv
      subst hv
      have hbin := hlive.bin_eq
      have htxt := hlive.txt_eq
      simp only [List.length_cons] at hbin htxt
      refine ⟨rfl, ⟨o, _, hlive.captures_eq⟩, by omega, by omega,
        .live p older hps (lt_length_of_drop_eq_cons hfiles) ?_⟩
      rw [← List.drop_drop, hfiles]
      exact hlive.evict

namespace Capture

/-- The settings, which no call changes. -/
def config (c : Capture) : Config := ⟨c.mode, c.panelName, c.maxTotalBytes, c.baudRate⟩

/-- A pair is live. -/
def isLive (c : Capture) : Prop := 0 ≤ c.store.currentBinIdx

instance (c : Capture) : Decidable c.isLive := inferInstanceAs (Decidable (_ ≤ _))

/-- The store is accounted for and shelves the archive, and every event was in order. -/
structure StoreInv (c : Capture) : Prop where
  accounted : c.store.Accounted
  shelves : c.store.Shelves (archive c.history) (evictions c.history)
  events : ∀ e ∈ c.history, e.Ok c.maxTotalBytes

lemma StoreInv.forall_events_concat {c : Capture} (h : c.StoreInv) {e : StoreEvent}
    (he : e.Ok c.maxTotalBytes) : ∀ e' ∈ c.history ++ [e], e'.Ok c.maxTotalBytes := by
  intro e' he'
  rcases List.mem_append.mp he' with he' | he'
  · exact h.events e' he'
  · rw [List.mem_singleton.mp he']
    exact he

/-! ### Enforcing the budget -/

/-- With the budget exceeded and something to evict, one round keeps the invariant. -/
lemma StoreInv.evict {c : Capture} (h : c.StoreInv)
    (hover : c.maxTotalBytes < c.store.totalBytesUsed) {v : ℕ} (hv : c.store.victim = some v) :
    StoreInv { c with store := c.store.evict v, history := c.history ++ [.evicted v c.store] } := by
  obtain ⟨rfl, ⟨o, rest, hcaptures⟩, hbin, htxt, hshelves⟩ := h.shelves.evict hv
  have hsize : o.bytes.length ≤ c.store.totalBytesUsed := by
    have haccounted := h.accounted
    rw [Store.Accounted, hcaptures, totalBytes_cons] at haccounted
    rw [haccounted]
    exact Nat.le_add_right _ _
  have hok : StoreEvent.Ok c.maxTotalBytes (.evicted 0 c.store) :=
    ⟨rfl, hover, hbin, htxt, o, by rw [hcaptures]; rfl, hsize⟩
  refine ⟨h.accounted.evict hcaptures, ?_, h.forall_events_concat hok⟩
  simpa [archiveStep, StoreEvent.isEviction] using hshelves

/-- Enforcing the budget touches the store and its history only. -/
lemma enforceBudget_frame (c : Capture) : ∃ store warn history, c.enforceBudget
    = { c with store := store, budgetWarnEmitted := warn, history := history } := by
  fun_induction enforceBudget c with
  | case1 c hover h => exact ⟨_, _, _, rfl⟩
  | case2 c hover v h ih =>
    obtain ⟨store, warn, history, ih⟩ := ih
    exact ⟨store, warn, history, by rw [ih]⟩
  | case3 c hover => exact ⟨_, _, _, rfl⟩

@[simp] lemma config_enforceBudget (c : Capture) : c.enforceBudget.config = c.config := by
  obtain ⟨_, _, _, h⟩ := enforceBudget_frame c
  rw [h]
  rfl

@[simp] lemma archive_enforceBudget (c : Capture) :
    archive c.enforceBudget.history = archive c.history := by
  fun_induction enforceBudget c with
  | case1 c hover h => rfl
  | case2 c hover v h ih => rw [ih, archive_concat, archiveStep]
  | case3 c hover => rfl

/-- Evictions shift a live index down but never below zero. -/
@[simp] lemma isLive_enforceBudget (c : Capture) : c.enforceBudget.isLive ↔ c.isLive := by
  fun_induction enforceBudget c with
  | case1 c hover h => rfl
  | case2 c hover v h ih =>
    rw [ih]
    simp only [isLive, Store.evict]
    split_ifs <;> omega
  | case3 c hover => rfl

lemma StoreInv.enforceBudget {c : Capture} (h : c.StoreInv) : c.enforceBudget.StoreInv := by
  fun_induction Capture.enforceBudget c with
  | case1 c hover hv => exact ⟨h.accounted, h.shelves, h.events⟩
  | case2 c hover v hv ih => exact ih (h.evict hover hv)
  | case3 c hover => exact h

lemma StoreInv.settled_enforceBudget {c : Capture} (h : c.StoreInv) :
    c.enforceBudget.store.Settled c.maxTotalBytes := by
  fun_induction Capture.enforceBudget c with
  | case1 c hover hv => exact h.shelves.settled_of_victim_eq_none hv
  | case2 c hover v hv ih => exact ih (h.evict hover hv)
  | case3 c hover => exact Or.inl (Nat.le_of_not_lt hover)

/-! ### Closing and opening -/

@[simp] lemma config_closeCurrentCapture (c : Capture) :
    c.closeCurrentCapture.config = c.config := by
  unfold closeCurrentCapture
  split_ifs <;> rfl

@[simp] lemma history_closeCurrentCapture (c : Capture) :
    c.closeCurrentCapture.history = c.history := by
  unfold closeCurrentCapture
  split_ifs <;> rfl

/-- What was live joins the closed captures. -/
lemma StoreInv.closeCurrentCapture {c : Capture} (h : c.StoreInv) :
    c.closeCurrentCapture.StoreInv := by
  unfold Capture.closeCurrentCapture
  split_ifs with hneg
  · exact h
  · refine ⟨h.accounted, ?_, h.events⟩
    have hcaptures := h.shelves.captures_eq
    cases h.shelves with
    | closed hclosed hn hcaptures => exact absurd hclosed.bin_neg hneg
    | live p older hps hn hlive =>
      refine .closed ⟨rfl, rfl⟩ ?_ hcaptures
      have hmore : (files older).length ≤ (files (p :: older)).length := by simp
      rw [hps]
      exact hn.trans hmore

lemma not_isLive_closeCurrentCapture (c : Capture) : ¬ c.closeCurrentCapture.isLive := by
  unfold closeCurrentCapture isLive
  split_ifs with h
  · exact not_le.mpr h
  · simp

lemma length_bannerBytes (p : Platform) (text : List UInt8) :
    (bannerBytes p text).length = bannerN text := by
  simp only [bannerBytes, bannerN, snprintf, List.length_take, List.length_append, List.length_map,
    List.length_range, List.length_singleton]
  split_ifs <;> omega

lemma bytes_newTxt (p : Platform) (c : Capture) : (newTxt p c).bytes
    = bannerBytes p (bannerText c.panelName c.baudRate (Platform.nowUnix p)) := rfl

/-- A banner that fits its buffer is copied whole. -/
lemma bannerBytes_of_fits (p : Platform) {text : List UInt8} (h : text.length < 128) :
    bannerBytes p text = text := by
  have hwhole : snprintf 128 text = text := List.take_of_length_le (by omega)
  have hlength : bannerN text = text.length := if_pos (by omega)
  rw [bannerBytes, hwhole, hlength, List.append_assoc, List.take_left' rfl]

/-- The banner is as long as its fixed text and the three fields that vary. -/
lemma length_bannerText (panelName : List UInt8) (baudRate nowUnix : UInt32) :
    (bannerText panelName baudRate nowUnix).length = 43 +
      ((cString panelName).length + (decimal baudRate).length + (decimal nowUnix).length) := by
  have hversion : (decimal kCaptureFormatVersion.toUInt32).length = 1 := by decide +kernel
  have htexts : (ascii "# TXCP capture v").length = 16 ∧ (ascii " panel=").length = 7 ∧
      (ascii " baud=").length = 6 ∧ (ascii " start_unix=").length = 12 ∧
      (ascii "\n").length = 1 := by decide
  simp only [bannerText, List.length_append, hversion, htexts]
  omega

/-- Pushing a pair onto a store with nothing live. -/
lemma StoreInv.pushNewPair {c : Capture} (h : c.StoreInv) (hlive : ¬ c.isLive) (p : Platform) :
    (c.pushNewPair p).StoreInv := by
  cases h.shelves with
  | live q older hps hn hq => exact absurd (not_lt.mp hq.bin_nonneg) hlive
  | closed hclosed hn hcaptures =>
    refine ⟨?_, .live ⟨newBin p c, newTxt p c⟩ (archive c.history) ?_ ?_ ⟨?_, ?_, ?_⟩, ?_⟩
    · have := h.accounted
      simp only [Store.Accounted, Capture.pushNewPair, totalBytes_append, totalBytes_cons,
        totalBytes_nil, newBin, newTxt, length_serializeHeader, length_bannerBytes] at this ⊢
      omega
    · simp [Capture.pushNewPair, archiveStep]
    · simpa [Capture.pushNewPair, StoreEvent.isEviction] using hn
    · simp [Capture.pushNewPair, StoreEvent.isEviction, hcaptures]
    · simp [Capture.pushNewPair, StoreEvent.isEviction, hcaptures]
    · simp [Capture.pushNewPair, StoreEvent.isEviction, hcaptures]
      omega
    · exact h.forall_events_concat trivial

/-- Once the budget has been enforced, that can be put on record. -/
lemma StoreInv.settle {c : Capture} (h : c.StoreInv) (hs : c.store.Settled c.maxTotalBytes)
    (warn : Bool) : StoreInv
      { c with budgetWarnEmitted := warn, history := c.history ++ [.settled c.store] } := by
  refine ⟨h.accounted, ?_, h.forall_events_concat hs⟩
  simpa [archiveStep, StoreEvent.isEviction] using h.shelves

lemma StoreInv.openNewCapture {c : Capture} (h : c.StoreInv) (p : Platform) :
    (c.openNewCapture p).StoreInv := by
  have hpush := h.closeCurrentCapture.pushNewPair (not_isLive_closeCurrentCapture c) p
  refine hpush.enforceBudget.settle ?_ false
  have hmax := congrArg Config.maxTotalBytes
    (config_enforceBudget (c.closeCurrentCapture.pushNewPair p))
  have hsettled := hpush.settled_enforceBudget
  simp only [config] at hmax
  rwa [hmax]

lemma settled_openNewCapture {c : Capture} (h : c.StoreInv) (p : Platform) :
    (c.openNewCapture p).store.Settled c.maxTotalBytes := by
  have hpush := h.closeCurrentCapture.pushNewPair (not_isLive_closeCurrentCapture c) p
  have hmax := congrArg Config.maxTotalBytes (config_closeCurrentCapture c)
  have hsettled := hpush.settled_enforceBudget
  simp only [config] at hmax
  rw [← hmax]
  exact hsettled

lemma archive_openNewCapture (p : Platform) (c : Capture) :
    archive (c.openNewCapture p).history = ⟨newBin p c, newTxt p c⟩ :: archive c.history := by
  have hbin : newBin p c.closeCurrentCapture = newBin p c := by
    unfold closeCurrentCapture
    split_ifs <;> rfl
  have htxt : newTxt p c.closeCurrentCapture = newTxt p c := by
    unfold closeCurrentCapture
    split_ifs <;> rfl
  simp [openNewCapture, pushNewPair, archiveStep, hbin, htxt]

lemma isLive_openNewCapture (p : Platform) (c : Capture) : (c.openNewCapture p).isLive := by
  have h : (c.closeCurrentCapture.pushNewPair p).isLive := by
    simp [pushNewPair, isLive]
  exact (isLive_enforceBudget _).mpr h

/-- Opening touches the store, its history and the sequence number only. -/
lemma openNewCapture_frame (p : Platform) (c : Capture) : ∃ store warn history seq,
    c.openNewCapture p = { c with
      store := store, budgetWarnEmitted := warn, history := history, fileSeq := seq } := by
  obtain ⟨_, _, _, h⟩ := enforceBudget_frame (c.closeCurrentCapture.pushNewPair p)
  unfold openNewCapture
  rw [h]
  unfold closeCurrentCapture
  split_ifs <;> exact ⟨_, _, _, _, rfl⟩

/-! ### Writing -/

@[simp] lemma currentBinIdx_appendTo (ms : UInt32) (idx : ℤ) (bytes : List UInt8) (s : Store) :
    (s.appendTo ms idx bytes).currentBinIdx = s.currentBinIdx := by
  unfold Store.appendTo
  split_ifs <;> rfl

@[simp] lemma currentBinIdx_writeHexdump (ms : UInt32) (off : ℕ) (bytes : List UInt8) (s : Store) :
    (writeHexdump ms off bytes s).currentBinIdx = s.currentBinIdx := by
  have hrows : (writeHexdumpRows ms off bytes s).currentBinIdx = s.currentBinIdx := by
    induction off, bytes, s using writeHexdumpRows.induct ms with
    | case1 off s => rw [writeHexdumpRows, if_pos rfl]
    | case2 off bytes s hb ih =>
      rw [writeHexdumpRows, if_neg hb, ih, currentBinIdx_appendTo]
  unfold writeHexdump
  split_ifs
  · rfl
  · exact hrows

lemma isLive_appendToLive (p : Platform) (bytes : List UInt8) (c : Capture) :
    (c.appendToLive p bytes).isLive ↔ c.isLive := by
  simp [appendToLive, isLive]

/-- A flushed write reaches the live pair. -/
lemma StoreInv.appendToLive {c : Capture} (h : c.StoreInv) (hlive : c.isLive) (p : Platform)
    {bytes : List UInt8} (hb : bytes ≠ []) : (c.appendToLive p bytes).StoreInv := by
  have hlive' : ¬ c.store.currentBinIdx < 0 := not_lt.mpr hlive
  have haccounted := h.accounted.appendTo p.millis c.store.currentBinIdx bytes
  refine ⟨haccounted.writeHexdump _ _ _, ?_, h.forall_events_concat trivial⟩
  cases h.shelves with
  | closed hclosed hn hcaptures => exact absurd hclosed.bin_neg hlive'
  | live q older hps hn hq =>
    refine .live (q.extend bytes p.millis) older ?_ ?_ ?_
    · simp [Capture.appendToLive, hps, archiveStep]
    · simpa [Capture.appendToLive, StoreEvent.isEviction] using hn
    · have := (hq.appendTo_bin p.millis hb).writeHexdump p.millis q.bin.bytes.length hb
      simpa [Capture.appendToLive, StoreEvent.isEviction, hq.sizeAt_bin, CapturePair.extend] using this

lemma writeBytes_of_not_isLive {c : Capture} (hsink : c.testSink = none) (hlive : ¬ c.isLive)
    (p : Platform) (bytes : List UInt8) :
    c.writeBytes p bytes = { c with drops := c.drops + 1 } := by
  rw [writeBytes, hsink]
  exact if_pos (not_le.mp hlive)

lemma writeBytes_of_isLive {c : Capture} (hsink : c.testSink = none) (hlive : c.isLive)
    (p : Platform) (bytes : List UInt8) :
    c.writeBytes p bytes =
      { (c.appendToLive p bytes).enforceBudget with
        history := (c.appendToLive p bytes).enforceBudget.history ++
          [.settled (c.appendToLive p bytes).enforceBudget.store] } := by
  rw [writeBytes, hsink]
  exact if_neg (not_lt.mpr hlive)

lemma StoreInv.writeBytes {c : Capture} (h : c.StoreInv) (hsink : c.testSink = none)
    (p : Platform) {bytes : List UInt8} (hb : bytes ≠ []) : (c.writeBytes p bytes).StoreInv := by
  by_cases hlive : c.isLive
  · have happend := h.appendToLive hlive p hb
    rw [writeBytes_of_isLive hsink hlive]
    refine happend.enforceBudget.settle ?_ _
    have hmax := congrArg Config.maxTotalBytes (config_enforceBudget (c.appendToLive p bytes))
    simp only [config] at hmax
    rw [hmax]
    exact happend.settled_enforceBudget
  · rw [writeBytes_of_not_isLive hsink hlive]
    exact ⟨h.accounted, h.shelves, h.events⟩

lemma settled_writeBytes {c : Capture} (h : c.StoreInv) (hsink : c.testSink = none)
    (hlive : c.isLive) (p : Platform) {bytes : List UInt8} (hb : bytes ≠ []) :
    (c.writeBytes p bytes).store.Settled c.maxTotalBytes := by
  rw [writeBytes_of_isLive hsink hlive]
  exact (h.appendToLive hlive p hb).settled_enforceBudget

lemma archive_writeBytes_of_isLive {c : Capture} (hsink : c.testSink = none) (hlive : c.isLive)
    (p : Platform) (bytes : List UInt8) :
    archive (c.writeBytes p bytes).history
      = archiveStep (archive c.history) (.wrote bytes p.millis) := by
  simp [writeBytes_of_isLive hsink hlive, appendToLive, archiveStep]

@[simp] lemma isLive_writeBytes (p : Platform) (bytes : List UInt8) (c : Capture) :
    (c.writeBytes p bytes).isLive ↔ c.isLive := by
  unfold writeBytes
  cases c.testSink with
  | some out => rfl
  | none =>
    simp only
    split_ifs
    · rfl
    · exact (isLive_enforceBudget _).trans (isLive_appendToLive p bytes c)

/-- Without a sink a write touches the store, its history and the counters only. -/
lemma writeBytes_frame {c : Capture} (hsink : c.testSink = none) (p : Platform)
    (bytes : List UInt8) : ∃ store warn history written,
    c.writeBytes p bytes = { c with
      store := store, budgetWarnEmitted := warn, history := history, bytesWrittenTotal := written
      drops := if c.store.currentBinIdx < 0 then c.drops + 1 else c.drops } := by
  by_cases hlive : c.isLive
  · obtain ⟨_, _, _, h⟩ := enforceBudget_frame (c.appendToLive p bytes)
    rw [writeBytes_of_isLive hsink hlive, h, if_neg (not_lt.mpr hlive)]
    exact ⟨_, _, _, _, rfl⟩
  · rw [writeBytes_of_not_isLive hsink hlive, if_pos (not_le.mp hlive)]
    exact ⟨_, _, _, _, rfl⟩

end Capture
end TexecomBridge
