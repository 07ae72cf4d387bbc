import TexecomBridge.Library.Buffers

/-!
# Pointers to the elements of a vector

A vector keeps its elements side by side in one buffer, and a pointer to one of them is a slot in
that buffer. A push that finds the buffer full moves all elements to another one, and an erase moves
those behind it up by a slot. A pointer is good as long as its slot holds the element for which it
was taken.
-/

/-- A slot in one of the buffers that a vector has had. -/
structure Place where
  buffer : ℕ
  slot : ℕ

/-- The elements of a vector, each known by how many were pushed before it, and the buffer they lie
in. No buffer gets the number of another. -/
structure Slots where
  pushed : ℕ
  elements : List ℕ
  buffer : ℕ
  capacity : ℕ
  fits : elements.length ≤ capacity

namespace Slots

def empty : Slots := ⟨0, [], 0, 0, le_rfl⟩

/-- A new element behind the others, in the same buffer if there is room. -/
def push (v : GrowthPolicy) (s : Slots) : Slots :=
  if h : s.elements.length < s.capacity then
    { s with
      pushed := s.pushed + 1
      elements := s.elements ++ [s.pushed]
      fits := by rwa [List.length_append] }
  else
    { pushed := s.pushed + 1
      elements := s.elements ++ [s.pushed]
      buffer := s.buffer + 1
      capacity := v.grow s.elements.length 1
      fits := by
        rw [List.length_append]
        exact v.le_grow _ _ }

def erase (i : ℕ) (s : Slots) : Slots :=
  { s with
    elements := s.elements.eraseIdx i
    fits := (List.length_eraseIdx_le _ _).trans s.fits }

/-- A pointer to the element at `i`. -/
def place (s : Slots) (i : ℕ) : Place := ⟨s.buffer, i⟩

/-- The element in the slot, unless the vector has left the buffer. -/
def find (s : Slots) (p : Place) : Option ℕ :=
  if p.buffer = s.buffer then s.elements[p.slot]? else none

variable {s s' s'' : Slots} {v : GrowthPolicy}

@[simp] lemma elements_push (v : GrowthPolicy) (s : Slots) :
    (s.push v).elements = s.elements ++ [s.pushed] := by
  unfold push
  split_ifs <;> rfl

@[simp] lemma pushed_push (v : GrowthPolicy) (s : Slots) : (s.push v).pushed = s.pushed + 1 := by
  unfold push
  split_ifs <;> rfl

@[simp] lemma elements_erase (i : ℕ) (s : Slots) :
    (s.erase i).elements = s.elements.eraseIdx i := rfl

@[simp] lemma pushed_erase (i : ℕ) (s : Slots) : (s.erase i).pushed = s.pushed := rfl

@[simp] lemma find_place (s : Slots) (i : ℕ) : s.find (s.place i) = s.elements[i]? := if_pos rfl

lemma find_place_of_ne (h : s'.buffer ≠ s.buffer) (i : ℕ) : s'.find (s.place i) = none :=
  if_neg (Ne.symm h)

lemma find_place_of_eq (h : s'.buffer = s.buffer) (i : ℕ) :
    s'.find (s.place i) = s'.elements[i]? :=
  if_pos h.symm

/-! ### Only the oldest elements are erased -/

/-- The elements are all that were pushed but for the first `gone`. -/
def Without (s : Slots) (gone : ℕ) : Prop :=
  s.elements.length + gone = s.pushed ∧ s.elements = List.range' gone s.elements.length

lemma without_empty : empty.Without 0 := ⟨rfl, rfl⟩

lemma Without.push {gone : ℕ} (h : s.Without gone) (v : GrowthPolicy) :
    (s.push v).Without gone := by
  obtain ⟨hlength, helements⟩ := h
  constructor
  · rw [elements_push, pushed_push, List.length_append, List.length_singleton]
    omega
  · rw [elements_push, List.length_append, List.length_singleton, List.range'_concat, Nat.one_mul,
      Nat.add_comm gone, hlength, ← helements]

/-- The first element is erased, if there is one. -/
lemma Without.erase {gone : ℕ} (h : s.Without gone) :
    ∃ gone', (s.erase 0).Without gone' := by
  obtain ⟨hlength, helements⟩ := h
  cases hs : s.elements with
  | nil =>
    rw [hs] at hlength
    refine ⟨gone, ?_, ?_⟩
    · rw [elements_erase, pushed_erase, hs]
      exact hlength
    · rw [elements_erase, hs]
      rfl
  | cons x xs =>
    rw [hs, List.length_cons, List.range'_succ] at helements
    rw [hs, List.length_cons] at hlength
    refine ⟨gone + 1, ?_, ?_⟩
    · rw [elements_erase, pushed_erase, hs, List.eraseIdx_cons_zero]
      omega
    · rw [elements_erase, hs, List.eraseIdx_cons_zero]
      exact (List.cons.inj helements).2

lemma Without.getElem? {gone : ℕ} (h : s.Without gone) (i : ℕ) :
    s.elements[i]? = if i < s.elements.length then some (gone + i) else none := by
  conv_lhs => rw [h.2]
  split_ifs with hi
  · rw [List.getElem?_range' hi, Nat.one_mul]
  · rw [List.getElem?_eq_none (by rw [List.length_range']; exact not_lt.mp hi)]

/-- Once an element was erased, no slot holds what it held. -/
lemma Without.find_ne {gone gone' : ℕ} (h : s.Without gone) (h' : s'.Without gone')
    (hne : gone' ≠ gone) {i : ℕ} (hi : i < s.elements.length) :
    s'.find (s.place i) ≠ s.find (s.place i) := by
  rw [find_place, h.getElem?, if_pos hi]
  by_cases hbuffer : s'.buffer = s.buffer
  · rw [find_place_of_eq hbuffer, h'.getElem?]
    split_ifs
    · intro heq
      exact hne (Nat.add_right_cancel (Option.some.inj heq))
    · exact (Option.some_ne_none _).symm
  · rw [find_place_of_ne hbuffer]
    exact (Option.some_ne_none _).symm

/-! ### Only pushes -/

/-- From `s` to `s'` elements were only pushed: the buffer is the same as long as they fit. -/
structure Grows (s s' : Slots) : Prop where
  prefix_elements : s.elements <+: s'.elements
  buffer_le : s.buffer ≤ s'.buffer
  capacity_eq : s'.buffer = s.buffer → s'.capacity = s.capacity
  buffer_eq_iff : s'.buffer = s.buffer ↔ s'.elements.length ≤ s.capacity

lemma Grows.refl (s : Slots) : s.Grows s :=
  ⟨List.prefix_rfl, le_rfl, fun _ => rfl, iff_of_true rfl s.fits⟩

lemma Grows.push (h : s.Grows s') (v : GrowthPolicy) : s.Grows (s'.push v) := by
  obtain ⟨hpre, hle, hcapacity, hiff⟩ := h
  have hfits := s'.fits
  have hpre' : s.elements <+: (s'.push v).elements := by
    rw [elements_push]
    exact hpre.trans (List.prefix_append _ _)
  have hlength : (s'.push v).elements.length = s'.elements.length + 1 := by
    rw [elements_push, List.length_append, List.length_singleton]
  by_cases hroom : s'.elements.length < s'.capacity
  · have hpush : (s'.push v).buffer = s'.buffer ∧ (s'.push v).capacity = s'.capacity := by
      rw [Slots.push, dif_pos hroom]
      exact ⟨rfl, rfl⟩
    refine ⟨hpre', ?_, ?_, ?_⟩
    · rwa [hpush.1]
    · rwa [hpush.1, hpush.2]
    · rw [hpush.1, hlength]
      refine ⟨fun hsame => ?_, fun hle => hiff.mpr (Nat.le_of_succ_le hle)⟩
      rw [← hcapacity hsame]
      exact hroom
  · have hpush : (s'.push v).buffer = s'.buffer + 1 := by
      rw [Slots.push, dif_neg hroom]
    have hnew : (s'.push v).buffer ≠ s.buffer := by omega
    refine ⟨hpre', by omega, fun hsame => absurd hsame hnew, iff_of_false hnew fun hle => ?_⟩
    -- Had the vector still been in the first buffer, there would have been room in it.
    rw [hlength] at hle
    have hsame := hcapacity (hiff.mpr (Nat.le_of_succ_le hle))
    omega

/-- A pointer stays good as long as all elements fit the buffer it leads into. -/
lemma Grows.find_eq_iff (h : s.Grows s') {i : ℕ} (hi : i < s.elements.length) :
    s'.find (s.place i) = s.find (s.place i) ↔ s'.elements.length ≤ s.capacity := by
  obtain ⟨more, hmore⟩ := h.prefix_elements
  have hkept : s'.elements[i]? = s.elements[i]? := by
    rw [← hmore, List.getElem?_append_left hi]
  rw [← h.buffer_eq_iff, find_place]
  constructor
  · intro hfind
    by_contra hne
    rw [find_place_of_ne hne, List.getElem?_eq_getElem hi] at hfind
    cases hfind
  · intro hsame
    rw [find_place_of_eq hsame, hkept]

end Slots
