import Mathlib.Data.Vector.Basic
import Mathlib.Data.List.Basic
import Mathlib.Tactic

/-!
# Circular arrays

A window of `size` elements kept in a fixed array of `N` slots, starting at `tail` and wrapping at
the end. `head` is the slot the next element goes to. The index invariants are fields, so that
every circular array has a well-defined list of contents, `Circular.toList`, oldest first.
-/

/-- A circular array of capacity `N` over `T`. -/
structure Circular (T : Type*) (N : ℕ) where
  data : Vector T N
  head : ℕ
  tail : ℕ
  size : ℕ
  tail_lt : tail < N
  size_le : size ≤ N
  head_eq : head = (tail + size) % N

namespace Circular

variable {T : Type*} {N : ℕ}

lemma capacity_pos (c : Circular T N) : 0 < N :=
  Nat.lt_of_le_of_lt (Nat.zero_le _) c.tail_lt

lemma head_lt (c : Circular T N) : c.head < N := by
  rw [c.head_eq]
  exact Nat.mod_lt _ c.capacity_pos

/-- The slot at position `i`, wrapping at the capacity. -/
def slot (c : Circular T N) (i : ℕ) : T :=
  c.data[(⟨i % N, Nat.mod_lt _ c.capacity_pos⟩ : Fin N)]

/-- The contents, oldest first. -/
def toList (c : Circular T N) : List T :=
  (List.range c.size).map fun i => c.slot (c.tail + i)

@[simp] lemma length_toList (c : Circular T N) : c.toList.length = c.size := by
  simp [toList]

lemma toList_eq_nil_iff {c : Circular T N} : c.toList = [] ↔ c.size = 0 := by
  rw [← List.length_eq_zero_iff, length_toList]

/-! ### Construction -/

/-- The empty array over slots that all hold `init`. -/
def empty (init : T) (hN : 0 < N) : Circular T N where
  data := Vector.replicate N init
  head := 0
  tail := 0
  size := 0
  tail_lt := hN
  size_le := Nat.zero_le _
  head_eq := by simp

/-- Forget the contents. The slots keep their old values. -/
def clear (c : Circular T N) : Circular T N where
  data := c.data
  head := 0
  tail := 0
  size := 0
  tail_lt := c.capacity_pos
  size_le := Nat.zero_le _
  head_eq := by simp

@[simp] lemma toList_empty (init : T) (hN : 0 < N) : (empty init hN).toList = [] := by
  simp [toList, empty]

@[simp] lemma size_empty (init : T) (hN : 0 < N) : (empty init hN).size = 0 := rfl

@[simp] lemma toList_clear (c : Circular T N) : c.clear.toList = [] := by
  simp [toList, clear]

@[simp] lemma size_clear (c : Circular T N) : c.clear.size = 0 := rfl

/-! ### Writing at the head -/

/-- Write `v` in the slot at `head` and advance it. A full array is left alone. -/
def put (c : Circular T N) (v : T) : Circular T N :=
  if h : c.size < N then
    { data := c.data.set c.head v c.head_lt
      head := (c.head + 1) % N
      tail := c.tail
      size := c.size + 1
      tail_lt := c.tail_lt
      size_le := h
      head_eq := by rw [c.head_eq, Nat.mod_add_mod, Nat.add_assoc] }
  else c

lemma size_put {c : Circular T N} (h : c.size < N) (v : T) : (c.put v).size = c.size + 1 := by
  simp [put, h]

lemma slot_put_head {c : Circular T N} (h : c.size < N) (v : T) :
    (c.put v).slot (c.tail + c.size) = v := by
  simp [put, h, slot, ← c.head_eq]

/-- The slots that hold the contents are not the one at `head`. -/
lemma slot_put_of_lt {c : Circular T N} (h : c.size < N) (v : T) {i : ℕ} (hi : i < c.size) :
    (c.put v).slot (c.tail + i) = c.slot (c.tail + i) := by
  have hne : c.head ≠ (c.tail + i) % N := by
    rw [c.head_eq]
    intro heq
    have : c.size ≡ i [MOD N] := Nat.ModEq.add_left_cancel' c.tail heq
    exact hi.ne (Nat.ModEq.eq_of_lt_of_lt this h (hi.trans h)).symm
  simp only [put, h, ↓reduceDIte, slot, Fin.getElem_fin]
  exact Vector.getElem_set_ne _ _ hne

/-- Writing at the head appends. -/
lemma toList_put {c : Circular T N} (h : c.size < N) (v : T) :
    (c.put v).toList = c.toList ++ [v] := by
  have htail : (c.put v).tail = c.tail := by simp [put, h]
  rw [toList, size_put h, List.range_succ, List.map_append, htail, List.map_singleton,
    slot_put_head h, toList]
  congr 1
  apply List.map_congr_left
  intro i hi
  exact slot_put_of_lt h v (List.mem_range.mp hi)

/-! ### Reading at the tail -/

/-- The oldest element. -/
def front? (c : Circular T N) : Option T :=
  if c.size = 0 then none else some (c.slot c.tail)

/-- Forget the oldest element. An empty array is left alone. -/
def dropFront (c : Circular T N) : Circular T N :=
  if h : c.size = 0 then c
  else
    { data := c.data
      head := c.head
      tail := (c.tail + 1) % N
      size := c.size - 1
      tail_lt := Nat.mod_lt _ c.capacity_pos
      size_le := (Nat.sub_le _ _).trans c.size_le
      head_eq := by
        rw [Nat.mod_add_mod, c.head_eq]
        congr 1
        omega }

lemma size_dropFront (c : Circular T N) : c.dropFront.size = c.size - 1 := by
  unfold dropFront
  split_ifs with h
  · omega
  · rfl

lemma front?_eq_head? (c : Circular T N) : c.front? = c.toList.head? := by
  unfold front?
  split_ifs with h
  · rw [toList_eq_nil_iff.mpr h, List.head?_nil]
  · obtain ⟨n, hn⟩ := Nat.exists_eq_succ_of_ne_zero h
    simp [toList, hn, List.range_succ_eq_map]

/-- Forgetting the oldest element drops the head of the contents. -/
lemma toList_dropFront (c : Circular T N) : c.dropFront.toList = c.toList.tail := by
  unfold dropFront
  split_ifs with h
  · rw [toList_eq_nil_iff.mpr h, List.tail_nil]
  · obtain ⟨n, hn⟩ := Nat.exists_eq_succ_of_ne_zero h
    simp only [toList, hn, Nat.succ_eq_add_one, Nat.add_sub_cancel, List.range_succ_eq_map,
      List.map_cons, List.tail_cons, List.map_map]
    apply List.map_congr_left
    intro i _
    simp only [slot, Function.comp_apply, Nat.mod_add_mod, Nat.add_assoc, Nat.succ_eq_one_add]

end Circular
