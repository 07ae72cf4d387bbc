import Mathlib.Data.List.Forall2
import Mathlib.Tactic

/-!
# Keeping the newest

A list that grows at its end, of which the newest elements are kept as far as their sizes fit a
budget. Whoever removes the oldest elements one by one, each only while those that are left exceed
the budget, is left with the longest end of the list that fits.
-/

namespace Newest

variable {α : Type*} {size : α → ℕ} {max n : ℕ} {xs ys : List α}

def total (size : α → ℕ) (xs : List α) : ℕ := (xs.map size).sum

/-- The longest end of a list that fits. -/
def newest (size : α → ℕ) (max : ℕ) : List α → List α
  | [] => []
  | x :: xs => if total size (x :: xs) ≤ max then x :: xs else newest size max xs

/-- Each of the `n` oldest elements had to go: with it, those behind it exceed the budget. -/
def Overfull (size : α → ℕ) (max n : ℕ) (xs : List α) : Prop :=
  ∀ k < n, max < total size (xs.drop k)

lemma total_append (xs ys : List α) :
    total size (xs ++ ys) = total size xs + total size ys := by
  simp [total]

lemma total_le_of_forall₂ (h : List.Forall₂ (fun x y => size x ≤ size y) xs ys) :
    total size xs ≤ total size ys := by
  induction h with
  | nil => exact le_rfl
  | cons hfirst _ ih => exact Nat.add_le_add hfirst ih

/-! ### The longest end that fits -/

lemma total_newest_le (xs : List α) : total size (newest size max xs) ≤ max := by
  induction xs with
  | nil => exact Nat.zero_le _
  | cons x xs ih =>
    rw [newest]
    split_ifs with hfits
    · exact hfits
    · exact ih

lemma newest_of_fits (h : total size xs ≤ max) : newest size max xs = xs := by
  cases xs with
  | nil => rfl
  | cons x xs => exact if_pos h

/-! ### Removing the oldest -/

lemma overfull_zero (xs : List α) : Overfull size max 0 xs :=
  fun k hk => absurd hk (Nat.not_lt_zero k)

/-- One more may go while those that are left exceed the budget. -/
lemma Overfull.succ (h : Overfull size max n xs) (hover : max < total size (xs.drop n)) :
    Overfull size max (n + 1) xs := by
  intro k hk
  rcases Nat.lt_succ_iff_lt_or_eq.mp hk with hk | rfl
  · exact h k hk
  · exact hover

/-- A new element makes none of them fit, -/
lemma Overfull.append (h : Overfull size max n xs) (ys : List α) :
    Overfull size max n (xs ++ ys) := by
  intro k hk
  rw [List.drop_append, total_append]
  exact (h k hk).trans_le (Nat.le_add_right _ _)

/-- nor does one that grows. -/
lemma Overfull.grow (h : Overfull size max n xs)
    (hgrown : List.Forall₂ (fun x y => size x ≤ size y) xs ys) : Overfull size max n ys :=
  fun k hk => (h k hk).trans_le (total_le_of_forall₂ (List.forall₂_drop k hgrown))

/-- Once those that are left fit, they are the longest end that does. -/
lemma Overfull.newest_eq (h : Overfull size max n xs) (hfits : total size (xs.drop n) ≤ max) :
    newest size max xs = xs.drop n := by
  induction n generalizing xs with
  | zero => exact newest_of_fits hfits
  | succ n ih =>
    cases xs with
    | nil => rfl
    | cons x xs =>
      have hfirst : ¬ total size (x :: xs) ≤ max := not_le.mpr (h 0 (Nat.succ_pos n))
      rw [newest, if_neg hfirst]
      exact ih (fun k hk => h (k + 1) (Nat.succ_lt_succ hk)) hfits

/-- Every end that fits is among those that are left. -/
lemma Overfull.suffix_drop (h : Overfull size max n xs) (hsuffix : ys <:+ xs)
    (hfits : total size ys ≤ max) : ys <:+ xs.drop n := by
  rw [List.suffix_iff_eq_drop.mp hsuffix] at hfits ⊢
  have hle : n ≤ xs.length - ys.length := by
    by_contra hlt
    exact absurd hfits (not_le.mpr (h _ (not_le.mp hlt)))
  rw [← Nat.add_sub_cancel' hle, ← List.drop_drop]
  exact List.drop_suffix _ _

end Newest
