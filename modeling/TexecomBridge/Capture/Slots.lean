import TexecomBridge.Capture.Buffers
import TexecomBridge.Library.Slots

/-!
# Where the captures lie

The slot that each capture has in `captures_`, replayed from what has happened to the store. A new
session pushes two captures, which may move all of them to another buffer, and an eviction erases
the oldest, which moves the others up. A pointer to a capture is good until the first of either.
-/

namespace TexecomBridge

/-! ### Replay -/

/-- What one event does to `captures_`. -/
def slotsStep (v : GrowthPolicy) (s : Slots) : StoreEvent → Slots
  | .opened _ _ => (s.push v).push v
  | .wrote _ _ => s
  | .evicted victim _ => s.erase victim
  | .settled _ => s

/-- The slots after all that has happened. -/
def slots (v : GrowthPolicy) (h : List StoreEvent) : Slots := h.foldl (slotsStep v) Slots.empty

lemma slots_concat (v : GrowthPolicy) (h : List StoreEvent) (e : StoreEvent) :
    slots v (h ++ [e]) = slotsStep v (slots v h) e := by
  rw [slots, List.foldl_append, List.foldl_cons, List.foldl_nil, slots]

variable {v : GrowthPolicy}

/-- There is a slot for each buffer. -/
lemma length_slots (v : GrowthPolicy) (h : List StoreEvent) :
    (slots v h).elements.length = (buffers v h).owned.length := by
  induction h using List.reverseRecOn with
  | nil => rfl
  | append_singleton h e ih =>
    rw [slots_concat, buffers_concat, ← length_contents]
    rw [← length_contents] at ih
    cases e with
    | opened bin txt => simp [slotsStep, contents_opened, ih]
    | wrote bytes ms => simp [slotsStep, bufferStep, ih]
    | evicted victim before => simp [slotsStep, bufferStep, List.length_eraseIdx, ih]
    | settled after => exact ih

lemma pushed_slots (v : GrowthPolicy) (h : List StoreEvent) :
    (slots v h).pushed = (files (archive h)).length := by
  induction h using List.reverseRecOn with
  | nil => rfl
  | append_singleton h e ih =>
    rw [slots_concat, archive_concat]
    cases e with
    | opened bin txt => simp [slotsStep, archiveStep, files, ih]
    | wrote bytes ms => cases harchive : archive h <;> simp [slotsStep, archiveStep, ih, harchive]
    | evicted victim before => simp [slotsStep, archiveStep, ih]
    | settled after => simp [slotsStep, archiveStep, ih]

/-- Only the oldest captures are evicted. -/
lemma without_slots (v : GrowthPolicy) {h : List StoreEvent}
    (hoks : ∀ e ∈ h, ∀ victim before, e = .evicted victim before → victim = 0) :
    ∃ gone, (slots v h).Without gone := by
  induction h using List.reverseRecOn with
  | nil => exact ⟨0, Slots.without_empty⟩
  | append_singleton h e ih =>
    obtain ⟨gone, hgone⟩ := ih fun e' he' => hoks e' (List.mem_append_left _ he')
    rw [slots_concat]
    cases e with
    | opened bin txt => exact ⟨gone, (hgone.push v).push v⟩
    | wrote bytes ms => exact ⟨gone, hgone⟩
    | evicted victim before =>
      obtain rfl := hoks _ (List.mem_append_right _ List.mem_cons_self) victim before rfl
      exact hgone.erase
    | settled after => exact ⟨gone, hgone⟩

/-- As long as nothing is evicted, captures are only pushed. -/
lemma grows_slots (v : GrowthPolicy) (h : List StoreEvent) {t : List StoreEvent}
    (hnone : evictions t = 0) : (slots v h).Grows (slots v (h ++ t)) := by
  induction t using List.reverseRecOn with
  | nil =>
    rw [List.append_nil]
    exact .refl _
  | append_singleton t e ih =>
    rw [evictions_concat, Nat.add_eq_zero_iff] at hnone
    rw [← List.append_assoc, slots_concat]
    cases e with
    | opened bin txt => exact ((ih hnone.1).push v).push v
    | wrote bytes ms => exact ih hnone.1
    | evicted victim before => exact absurd hnone.2 Nat.one_ne_zero
    | settled after => exact ih hnone.1

/-! ### Pointers to captures -/

namespace Capture

variable {c c' c'' : Capture}

/-- From `c` to `c'` nothing was evicted, and `captures_` still fits the buffer that it had. -/
def InPlace (v : GrowthPolicy) (c c' : Capture) : Prop :=
  evictions c'.history = evictions c.history ∧
    c'.store.captures.length ≤ (slots v c.history).capacity

instance (v : GrowthPolicy) (c c' : Capture) : Decidable (c.InPlace v c') :=
  inferInstanceAs (Decidable (_ ∧ _))

lemma Backed.length_slots (h : c.Backed v) :
    (slots v c.history).elements.length = c.store.captures.length := by
  rw [TexecomBridge.length_slots, ← length_contents, h, List.length_map]

/-- The captures that have been evicted are those that have no slot any more. -/
lemma Inv.without_slots (h : c.Inv) (hbacked : c.Backed v) :
    (slots v c.history).Without (evictions c.history) := by
  obtain ⟨gone, hgone⟩ := TexecomBridge.without_slots v fun e he victim before heq =>
    (heq ▸ h.events e he : StoreEvent.Ok c.maxTotalBytes (.evicted victim before)).1
  obtain rfl : gone = evictions c.history := by
    have hlength := hgone.1
    have hstored := congrArg List.length h.shelves.captures_eq
    have hle := h.shelves.le_length
    rw [hbacked.length_slots, pushed_slots] at hlength
    rw [List.length_drop] at hstored
    omega
  exact hgone

lemma exists_evictions_add (hpre : c.history <+: c'.history) :
    ∃ t, c'.history = c.history ++ t ∧
      evictions c'.history = evictions c.history + evictions t := by
  obtain ⟨t, ht⟩ := hpre
  refine ⟨t, ht.symm, ?_⟩
  rw [← ht, evictions, List.countP_append]
  rfl

/-- A pointer to a stored capture leads to it exactly as long as nothing is evicted and `captures_`
is not moved. -/
lemma find_place_iff (hinv : c.Inv) (hbacked : c.Backed v) (hinv' : c'.Inv)
    (hbacked' : c'.Backed v) (hpre : c.history <+: c'.history) {i : ℕ}
    (hi : i < c.store.captures.length) :
    (slots v c'.history).find ((slots v c.history).place i)
        = (slots v c.history).find ((slots v c.history).place i) ↔ c.InPlace v c' := by
  obtain ⟨t, ht, hcount⟩ := exists_evictions_add hpre
  rw [← hbacked.length_slots] at hi
  by_cases hnone : evictions t = 0
  · have hgrows := grows_slots v c.history hnone
    rw [← ht] at hgrows
    rw [hgrows.find_eq_iff hi, hbacked'.length_slots]
    exact (and_iff_right (by rw [hcount, hnone, Nat.add_zero])).symm
  · refine iff_of_false ?_ fun h => hnone (by have := h.1; omega)
    exact (hinv.without_slots hbacked).find_ne (hinv'.without_slots hbacked') (by omega) hi

/-- What is in place later was in place all the time. -/
lemma InPlace.of_prefix (h : c.InPlace v c'') (hbacked' : c'.Backed v) (hbacked'' : c''.Backed v)
    (hpre : c.history <+: c'.history) (hpre' : c'.history <+: c''.history) : c.InPlace v c' := by
  obtain ⟨hsame, hfits⟩ := h
  obtain ⟨t, -, hcount⟩ := exists_evictions_add hpre
  obtain ⟨t', ht', hcount'⟩ := exists_evictions_add hpre'
  have hgrows := grows_slots v c'.history (t := t') (by omega)
  rw [← ht'] at hgrows
  have hlength := hgrows.prefix_elements.length_le
  rw [hbacked'.length_slots, hbacked''.length_slots] at hlength
  exact ⟨by omega, hlength.trans hfits⟩

end Capture
end TexecomBridge
