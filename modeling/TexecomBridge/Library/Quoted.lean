import Mathlib.Data.List.Basic
import Mathlib.Tactic

/-!
# Quoted values in a text

A reader that finds the values a text has behind a given mark, each up to a closing character. Text
in which no mark begins is passed over.
-/

namespace Quoted

variable {α : Type*} [DecidableEq α] {mark s s' t v : List α} {close m : α}

/-- The value behind each mark. -/
def quoted (mark : List α) (close : α) : List α → List (List α)
  | [] => []
  | c :: cs =>
    if mark <+: c :: cs then
      ((c :: cs).drop mark.length).takeWhile (· ≠ close) :: quoted mark close cs
    else quoted mark close cs

/-- Reading on behind `s` misses nothing. -/
def Plain (mark : List α) (close : α) (s : List α) : Prop :=
  ∀ t, quoted mark close (s ++ t) = quoted mark close t

/-- No mark begins in `s`, not even one that goes on behind it. -/
def clear (mark : List α) : List α → Bool
  | [] => true
  | c :: cs => !mark.isPrefixOf (c :: cs) && !(c :: cs).isPrefixOf mark && clear mark cs

lemma Plain.append (h : Plain mark close s) (h' : Plain mark close s') :
    Plain mark close (s ++ s') := by
  intro t
  rw [List.append_assoc, h, h']

end Quoted
