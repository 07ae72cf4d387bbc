import Mathlib.Data.List.Basic
import Mathlib.Data.List.Forall2
import Mathlib.Data.List.Nodup

/-!
# Positions and keys

A list split at one position, and changed there; two lists that correspond position by position.
Where every element has a key and no key is there twice, a key picks out one element.
-/

namespace List

variable {α β : Type*}

/-! ### One position -/

lemma exists_split {xs : List α} {i : ℕ} {x : α} (h : xs[i]? = some x) :
    ∃ front back, xs = front ++ x :: back ∧ front.length = i := by
  obtain ⟨hi, rfl⟩ := getElem?_eq_some_iff.mp h
  refine ⟨xs.take i, xs.drop (i + 1), ?_, length_take_of_le (Nat.le_of_lt hi)⟩
  rw [← drop_eq_getElem_cons hi, take_append_drop]

lemma set_split (front : List α) (x y : α) (back : List α) :
    (front ++ x :: back).set front.length y = front ++ y :: back := by
  rw [set_append_right _ _ (Nat.le_refl _), Nat.sub_self, set_cons_zero]

lemma modify_split (front : List α) (x : α) (back : List α) (f : α → α) :
    (front ++ x :: back).modify front.length f = front ++ f x :: back := by
  induction front with
  | nil => rfl
  | cons y front ih => simp [ih]

/-- What stands at a position of the first list has a counterpart at that of the second. -/
lemma Forall₂.exists_getElem? {R : α → β → Prop} {xs : List α} {ys : List β}
    (h : Forall₂ R xs ys) {i : ℕ} {x : α} (hx : xs[i]? = some x) :
    ∃ y, ys[i]? = some y ∧ R x y := by
  obtain ⟨hi, rfl⟩ := getElem?_eq_some_iff.mp hx
  have hi' := h.length_eq ▸ hi
  exact ⟨ys[i], getElem?_eq_getElem hi', h.get hi hi'⟩

/-! ### Distinct keys -/

variable [DecidableEq β] {f : α → β} {xs : List α} {x : α}

/-- A first-match lookup finds the element that has the key. -/
lemma find?_key (h : (xs.map f).Nodup) (hx : x ∈ xs) : xs.find? (f · = f x) = some x := by
  induction xs with
  | nil => cases hx
  | cons y xs ih =>
    rw [map_cons, nodup_cons] at h
    rcases mem_cons.mp hx with rfl | hx
    · exact find?_cons_of_pos (decide_eq_true rfl)
    · have hne : ¬ decide (f y = f x) = true := fun heq =>
        h.1 (mem_map.mpr ⟨x, hx, (of_decide_eq_true heq).symm⟩)
      rw [find?_cons, eq_false_of_ne_true hne]
      exact ih h.2 hx

end List
