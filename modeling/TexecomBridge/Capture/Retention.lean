import TexecomBridge.Capture.Budget
import TexecomBridge.Library.Newest

/-!
# What is retained

Eviction takes the oldest capture, one at a time, and only while the budget is exceeded. What is
stored is therefore the longest end of all that was ever captured that fits the budget, unless the
newest pair alone does not.
-/

namespace TexecomBridge

open Newest

/-- The size of a stored capture. -/
def RamCapture.size (c : RamCapture) : ℕ := c.bytes.length

/-- What a budget leaves of the pairs ever opened, newest first: the newest captures that fit, or
the newest pair if it does not fit. -/
def keptCaptures (max : ℕ) : List CapturePair → List RamCapture
  | [] => []
  | q :: older => if max < q.size then [q.bin, q.txt]
    else newest RamCapture.size max (files (q :: older))

/-- An appended-to pair is no smaller in either of its files. -/
lemma forall₂_files_extend (q : CapturePair) (older : List CapturePair) (bytes : List UInt8)
    (ms : UInt32) : List.Forall₂ (fun c d => RamCapture.size c ≤ RamCapture.size d)
      (files (q :: older)) (files (q.extend bytes ms :: older)) := by
  have hbin : q.bin.size ≤ (q.extend bytes ms).bin.size := by
    simp [CapturePair.extend, RamCapture.append, RamCapture.size]
  have htxt : q.txt.size ≤ (q.extend bytes ms).txt.size := by
    simp [CapturePair.extend, RamCapture.append, RamCapture.size]
  have hold : List.Forall₂ (fun c d => RamCapture.size c ≤ RamCapture.size d) (files older)
      (files older) := List.forall₂_same.mpr fun c _ => le_rfl
  exact List.rel_append hold (.cons hbin (.cons htxt .nil))

/-- Settled with a live pair: within the budget, or the pair is all there is. -/
lemma Store.Live.old_eq_nil_of_settled {s : Store} {old : List RamCapture} {q : CapturePair}
    {max : ℕ} (h : s.Live old q) (hs : s.Settled max) : s.totalBytesUsed ≤ max ∨ old = [] := by
  refine hs.imp_right fun hall => ?_
  cases old with
  | nil => rfl
  | cons o old =>
    have hfirst := hall 0 (by simp [h.length_eq])
    rw [h.bin_eq, h.txt_eq, List.length_cons] at hfirst
    omega

namespace Capture

variable {c : Capture}

/-- Nothing was evicted that would fit the budget now. -/
def Thrifty (c : Capture) : Prop :=
  Overfull RamCapture.size c.maxTotalBytes (evictions c.history) (files (archive c.history))

/-! ### Eviction -/

lemma StoreInv.totalBytesUsed_eq (h : c.StoreInv) : c.store.totalBytesUsed
    = total RamCapture.size ((files (archive c.history)).drop (evictions c.history)) := by
  rw [← h.shelves.captures_eq]
  exact h.accounted

/-- One round evicts what does not fit with what is newer. -/
lemma Thrifty.evict (ht : c.Thrifty) (h : c.StoreInv)
    (hover : c.maxTotalBytes < c.store.totalBytesUsed) (v : ℕ) :
    Thrifty { c with store := c.store.evict v, history := c.history ++ [.evicted v c.store] } := by
  rw [h.totalBytesUsed_eq] at hover
  simpa [Thrifty, archiveStep, StoreEvent.isEviction] using Overfull.succ ht hover

lemma Thrifty.enforceBudget (ht : c.Thrifty) (h : c.StoreInv) : c.enforceBudget.Thrifty := by
  fun_induction Capture.enforceBudget c with
  | case1 c hover hv => exact ht
  | case2 c hover v hv ih => exact ih (ht.evict h hover v) (h.evict hover hv)
  | case3 c hover => exact ht

/-- Putting the settled store on record changes nothing. -/
lemma Thrifty.settle (ht : c.Thrifty) (warn : Bool) :
    Thrifty { c with budgetWarnEmitted := warn, history := c.history ++ [.settled c.store] } := by
  simpa [Thrifty, archiveStep, StoreEvent.isEviction] using ht

/-! ### Growth -/

lemma Thrifty.pushNewPair (ht : c.Thrifty) (p : Platform) : (c.pushNewPair p).Thrifty := by
  simpa [Thrifty, Capture.pushNewPair, archiveStep, StoreEvent.isEviction, files] using
    Overfull.append ht [newBin p c, newTxt p c]

lemma Thrifty.appendToLive (ht : c.Thrifty) (p : Platform) (bytes : List UInt8) :
    (c.appendToLive p bytes).Thrifty := by
  have hsame : evictions (c.history ++ [.wrote bytes p.millis]) = evictions c.history := by
    simp [StoreEvent.isEviction]
  cases harchive : archive c.history with
  | nil =>
    rw [Thrifty, harchive] at ht
    rw [Thrifty, Capture.appendToLive, hsame, archive_concat, harchive]
    exact ht
  | cons q older =>
    rw [Thrifty, harchive] at ht
    rw [Thrifty, Capture.appendToLive, hsame, archive_concat, harchive]
    exact ht.grow (forall₂_files_extend q older bytes p.millis)

lemma Thrifty.openNewCapture (ht : c.Thrifty) (h : c.StoreInv) (p : Platform) :
    (c.openNewCapture p).Thrifty := by
  have hclosed : c.closeCurrentCapture.Thrifty := by
    obtain ⟨_, _, hframe⟩ := closeCurrentCapture_frame c
    rw [hframe]
    exact ht
  have hpush := h.closeCurrentCapture.pushNewPair (not_isLive_closeCurrentCapture c) p
  exact ((hclosed.pushNewPair p).enforceBudget hpush).settle false

lemma Thrifty.writeBytes (ht : c.Thrifty) (h : c.StoreInv) (hsink : c.testSink = none)
    (hlive : c.isLive) (p : Platform) {bytes : List UInt8} (hb : bytes ≠ []) :
    (c.writeBytes p bytes).Thrifty := by
  rw [writeBytes_of_isLive hsink hlive]
  exact ((ht.appendToLive p bytes).enforceBudget (h.appendToLive hlive p hb)).settle _

lemma Thrifty.writeEvents (ht : c.Thrifty) (h : c.StoreInv) (hsink : c.testSink = none)
    (hlive : c.isLive) (p : Platform) {es : List Event} (hes : ∀ e ∈ es, e.Queueable) :
    (c.writeEvents p es).Thrifty := by
  induction es generalizing c with
  | nil => exact ht
  | cons e es ih =>
    obtain ⟨he, hes⟩ := List.forall_mem_cons.mp hes
    exact ih (ht.writeBytes h hsink hlive p he.serialize_ne) (h.writeBytes hsink p he.serialize_ne)
      (testSink_writeBytes hsink p _) ((isLive_writeBytes p _ c).mpr hlive) hes

/-! ### What is stored -/

/-- What a budget leaves is stored, and nothing was evicted that would fit now. -/
structure Retained (c : Capture) : Prop where
  thrifty : c.Thrifty
  captures_eq : c.store.captures = keptCaptures c.maxTotalBytes (archive c.history)

/-- After an open or a write, being settled is enough. -/
lemma Thrifty.retained (ht : c.Thrifty) (h : c.StoreInv) (hlive : c.isLive)
    (hsettled : c.store.Settled c.maxTotalBytes) : c.Retained := by
  refine ⟨ht, ?_⟩
  obtain ⟨q, older, harchive, hn, hq⟩ := h.exists_live hlive
  have htotal := h.accounted
  rw [Store.Accounted, hq.captures_eq, totalBytes_append, totalBytes_cons, totalBytes_cons,
    totalBytes_nil] at htotal
  rw [harchive, keptCaptures]
  split_ifs with hbig
  · rcases hq.old_eq_nil_of_settled hsettled with hfits | hold
    · rw [CapturePair.size] at hbig
      omega
    · rw [hq.captures_eq, hold, List.nil_append]
  · have hfits : c.store.totalBytesUsed ≤ c.maxTotalBytes := by
      rcases hq.total_of_settled h.accounted hsettled with hfits | hall
      · exact hfits
      · rw [hall]
        exact not_lt.mp hbig
    rw [h.totalBytesUsed_eq] at hfits
    rw [h.shelves.captures_eq, ← ht.newest_eq hfits, harchive]

/-- Neither closing a pair nor the event ring matters. -/
lemma Retained.of_eq {c' : Capture} (h : c.Retained) (hhistory : c'.history = c.history)
    (hmax : c'.maxTotalBytes = c.maxTotalBytes) (hcaptures : c'.store.captures = c.store.captures) :
    c'.Retained := by
  refine ⟨?_, ?_⟩
  · rw [Thrifty, hhistory, hmax]
    exact h.thrifty
  · rw [hcaptures, h.captures_eq, hhistory, hmax]

lemma Retained.flushRing (h : c.Retained) (hinv : c.Inv) (p : Platform) :
    (c.flushRing p).Retained := by
  by_cases hlive : c.isLive
  · obtain ⟨r, hr, hflush⟩ := flushRing_eq p hinv.queued
    have hflushed := hinv.flushRing p
    have hlive' := (hinv.isLive_flushRing p).mpr hlive
    refine Thrifty.retained ?_ hflushed.toStoreInv hlive' (hflushed.settled hlive')
    rw [hflush]
    exact h.thrifty.writeEvents hinv.toStoreInv hinv.sink hlive p hinv.queued
  · obtain ⟨_, -, hflush⟩ := hinv.flushRing_of_not_isLive hlive p
    rw [hflush]
    exact h.of_eq rfl rfl rfl

lemma Retained.step (h : c.Retained) (hinv : c.Inv) (op : Op) : (c.step op).Retained := by
  cases op with
  | sessionStart p =>
    by_cases hmode : c.mode.opens
    · have hstarted := hinv.onSessionStart p
      have hlive := isLive_openNewCapture p (c.started p)
      rw [onSessionStart_of_opens hmode] at hstarted
      rw [Capture.step, onSessionStart_of_opens hmode]
      refine Thrifty.retained ?_ hstarted.toStoreInv hlive (hstarted.settled hlive)
      exact Thrifty.openNewCapture (show (c.started p).Thrifty from h.thrifty)
        (hinv.toStoreInv.started p) p
    · rw [Capture.step, onSessionStart_of_not_opens hmode]
      exact h.of_eq rfl rfl rfl
  | sessionEnd p =>
    obtain ⟨_, _, hclose⟩ := closeCurrentCapture_frame (c.flushRing p)
    rw [Capture.step, Capture.onSessionEnd, hclose]
    exact (h.flushRing hinv p).of_eq rfl rfl rfl
  | record p direction bytes =>
    obtain ⟨_, _, _, hframe⟩ := record_frame p direction bytes c
    rw [Capture.step, hframe]
    exact h.of_eq rfl rfl rfl
  | loop p =>
    rw [Capture.step, loop_eq_flushRing]
    exact h.flushRing hinv p

lemma retained_run (cfg : Config) (ops : List Op) : (run cfg ops).Retained := by
  induction ops using List.reverseRecOn with
  | nil => exact ⟨overfull_zero _, rfl⟩
  | append_singleton ops op ih =>
    rw [run_concat]
    exact ih.step (inv_run cfg ops) op

/-- The budget is met exactly when the newest pair alone meets it. -/
lemma Retained.within_budget_iff (h : c.Retained) (hinv : c.Inv) :
    c.store.totalBytesUsed ≤ c.maxTotalBytes ↔
      ∀ q ∈ (archive c.history).head?, q.size ≤ c.maxTotalBytes := by
  rw [hinv.accounted, h.captures_eq]
  cases archive c.history with
  | nil => simp [keptCaptures]
  | cons q older =>
    rw [keptCaptures, List.head?_cons]
    split_ifs with hbig
    · simp [CapturePair.size]
    · exact iff_of_true (total_newest_le _) (by simpa using hbig)

/-- In every reachable state the store is what the budget leaves of all pairs ever opened: the
newest pair if it is larger than the whole budget, and else the longest end of the captures, in the
order they were created, that fits. Whichever newest captures fit together are all there, and the
budget is met exactly when the newest pair alone meets it. -/
theorem store_keeps_newest (cfg : Config) (ops : List Op) :
    let c := run cfg ops
    c.store.captures = keptCaptures c.maxTotalBytes (archive c.history) ∧
    (∀ cs, cs <:+ files (archive c.history) → totalBytes cs ≤ c.maxTotalBytes →
      cs <:+ c.store.captures) ∧
    (c.store.totalBytesUsed ≤ c.maxTotalBytes ↔
      ∀ q ∈ (archive c.history).head?, q.size ≤ c.maxTotalBytes) := by
  intro c
  have hinv : c.Inv := inv_run cfg ops
  have h : c.Retained := retained_run cfg ops
  refine ⟨h.captures_eq, fun cs hcs hfits => ?_, h.within_budget_iff hinv⟩
  rw [hinv.shelves.captures_eq]
  exact h.thrifty.suffix_drop hcs hfits

end Capture
end TexecomBridge
