import Mathlib.Data.List.Sublists
import Mathlib.Tactic

/-!
# Lists with a given number of elements missing

`Missing k xs ys` says that `xs` is `ys` with exactly `k` elements removed and the others in order.
-/

/-- `xs` is `ys` with exactly `k` elements removed. -/
structure Missing {α : Type*} (k : ℕ) (xs ys : List α) : Prop where
  sublist : xs.Sublist ys
  length_eq : ys.length = xs.length + k

namespace Missing

variable {α : Type*} {j k : ℕ} {xs ys zs : List α}

lemma refl (xs : List α) : Missing 0 xs xs := ⟨List.Sublist.refl _, rfl⟩

/-- Nothing is missing only from the list itself. -/
lemma eq_of_zero (h : Missing 0 xs ys) : xs = ys :=
  h.sublist.eq_of_length h.length_eq.symm

/-- A counter that did not move says that nothing is missing, unless it could have come around. -/
lemma eq_zero_of_counted (h : Missing k xs ys) {before after : UInt32}
    (hcount : after = before + UInt32.ofNat k) (hsame : after = before)
    (hfew : ys.length < 2 ^ 32) : k = 0 := by
  have hzero : UInt32.ofNat k = 0 := by
    rw [hsame] at hcount
    exact UInt32.left_eq_add.mp hcount
  have hk : k % 2 ^ 32 = 0 := congrArg UInt32.toNat hzero
  have hle : k ≤ ys.length := by
    rw [h.length_eq]
    exact Nat.le_add_left k _
  rwa [Nat.mod_eq_of_lt (hle.trans_lt hfew)] at hk

/-- What is missing at each of two stages is missing in all. -/
lemma trans (h : Missing j xs ys) (h' : Missing k ys zs) : Missing (j + k) xs zs := by
  constructor
  · exact h.sublist.trans h'.sublist
  · rw [h'.length_eq, h.length_eq, Nat.add_assoc]

lemma prepend (h : Missing k xs ys) (zs : List α) : Missing k (zs ++ xs) (zs ++ ys) := by
  constructor
  · exact h.sublist.append_left zs
  · rw [List.length_append, List.length_append, h.length_eq, Nat.add_assoc]

lemma append (h : Missing k xs ys) (zs : List α) : Missing k (xs ++ zs) (ys ++ zs) :=
  ⟨h.sublist.append_right zs, by simp only [List.length_append, h.length_eq]; omega⟩

/-- An element that is not appended is one more missing. -/
lemma skip (h : Missing k xs ys) (y : α) : Missing (k + 1) xs (ys ++ [y]) :=
  ⟨h.sublist.trans (List.sublist_append_left _ _), by simp [h.length_eq]; omega⟩

/-- Removing one element from the middle is one more missing. -/
lemma erase {as bs : List α} {a : α} (h : Missing k (as ++ a :: bs) ys) :
    Missing (k + 1) (as ++ bs) ys := by
  refine ⟨List.Sublist.trans ?_ h.sublist, ?_⟩
  · exact (List.Sublist.refl as).append (List.sublist_cons_self a bs)
  · have := h.length_eq
    simp only [List.length_append, List.length_cons] at this ⊢
    omega

end Missing
