import Mathlib.Data.List.Basic

/-!
# Segments of a list

A list cut before each of its marked elements: a segment is what an element is marked with and the
unmarked elements behind it, up to the next marked one. Segments are kept newest first.
-/

namespace List

variable {α κ : Type*} {mark : α → Option κ}

/-- A marked element opens a segment, any other is added to the newest. -/
def segmentStep (mark : α → Option κ) (ss : List (κ × List α)) (x : α) : List (κ × List α) :=
  match mark x with
  | some k => (k, []) :: ss
  | none => ss.modifyHead fun s => (s.1, s.2 ++ [x])

def segments (mark : α → Option κ) (xs : List α) : List (κ × List α) :=
  xs.foldl (segmentStep mark) []

@[simp] lemma segments_nil : ([] : List α).segments mark = [] := rfl

lemma segmentStep_marked (ss : List (κ × List α)) {x : α} {k : κ} (hx : mark x = some k) :
    segmentStep mark ss x = (k, []) :: ss := by
  rw [segmentStep, hx]

lemma segmentStep_unmarked (ss : List (κ × List α)) {x : α} (hx : mark x = none) :
    segmentStep mark ss x = ss.modifyHead fun s => (s.1, s.2 ++ [x]) := by
  rw [segmentStep, hx]

lemma segments_append (xs ys : List α) :
    (xs ++ ys).segments mark = ys.foldl (segmentStep mark) (xs.segments mark) :=
  foldl_append

lemma segments_concat_marked (xs : List α) {x : α} {k : κ} (hx : mark x = some k) :
    (xs ++ [x]).segments mark = (k, []) :: xs.segments mark := by
  rw [segments_append, foldl_cons, foldl_nil, segmentStep_marked _ hx]

/-- Unmarked elements are added to the newest segment, if there is one. -/
lemma segments_append_unmarked (xs : List α) {ys : List α} (hys : ∀ y ∈ ys, mark y = none) :
    (xs ++ ys).segments mark = (xs.segments mark).modifyHead fun s => (s.1, s.2 ++ ys) := by
  rw [segments_append]
  induction ys generalizing xs with
  | nil => cases xs.segments mark <;> simp
  | cons y ys ih =>
    have hstep := ih (xs ++ [y]) fun y' hy' => hys y' (mem_cons_of_mem _ hy')
    rw [segments_append, foldl_cons, foldl_nil] at hstep
    rw [foldl_cons, hstep, segmentStep_unmarked _ (hys y mem_cons_self)]
    cases xs.segments mark <;> simp

end List
