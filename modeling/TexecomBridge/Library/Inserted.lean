import Mathlib.Data.List.Basic

/-!
# Lists with insertions

Two lists of which the second has further elements in between, while the others correspond.
-/

namespace TexecomBridge

variable {α β γ δ : Type*}

/-- `ys` is `xs`, element by element up to `R`, with `ins c` inserted for each `c` of `cs`, in
order. -/
inductive Inserted (R : α → β → Prop) (ins : γ → β) : List γ → List α → List β → Prop
  | nil : Inserted R ins [] [] []
  | pair {cs : List γ} {xs : List α} {ys : List β} (h : Inserted R ins cs xs ys) {x : α} {y : β}
    (hxy : R x y) : Inserted R ins cs (xs ++ [x]) (ys ++ [y])
  | insert {cs : List γ} {xs : List α} {ys : List β} (h : Inserted R ins cs xs ys) (c : γ) :
    Inserted R ins (cs ++ [c]) xs (ys ++ [ins c])

namespace Inserted

variable {R : α → β → Prop} {ins : γ → β} {cs : List γ} {xs : List α} {ys : List β}

/-- Corresponding elements can be appended to both. -/
lemma append (h : Inserted R ins cs xs ys) {xs' : List α} {ys' : List β}
    (h' : List.Forall₂ R xs' ys') : Inserted R ins cs (xs ++ xs') (ys ++ ys') := by
  induction h' generalizing xs ys with
  | nil => simpa using h
  | cons hxy h' ih => simpa using ih (h.pair hxy)

/-- A reading that respects `R` and skips what is inserted reads the same. -/
lemma flatMap_eq (h : Inserted R ins cs xs ys) {f : α → List δ} {g : β → List δ}
    (hfg : ∀ x y, R x y → g y = f x) (hins : ∀ c, g (ins c) = []) :
    ys.flatMap g = xs.flatMap f := by
  induction h with
  | nil => rfl
  | pair h hxy ih =>
    rw [List.flatMap_append, List.flatMap_append, ih, List.flatMap_singleton,
      List.flatMap_singleton, hfg _ _ hxy]
  | insert h c ih => rw [List.flatMap_append, ih, List.flatMap_singleton, hins, List.append_nil]

end Inserted
end TexecomBridge
