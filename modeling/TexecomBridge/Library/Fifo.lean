import Mathlib.Data.List.Basic
import Mathlib.Tactic

/-!
# Bounded FIFO queues

A queue of at most `N` elements as a plain list, oldest first, with calls that report failure and
write through out-parameters. Any other machine that takes the same calls implements the queue when
related states answer every call alike and stay related.
-/

/-! ### Machines that answer -/

section Machine

variable {σ τ ι ω : Type*}

/-- The answers to a run of inputs, in order. -/
def answers (step : σ → ι → ω × σ) (s : σ) : List ι → List ω
  | [] => []
  | i :: is => (step s i).1 :: answers step (step s i).2 is

/-- The state after a run of inputs. -/
def stateAfter (step : σ → ι → ω × σ) (s : σ) (is : List ι) : σ :=
  is.foldl (fun s i => (step s i).2) s

/-- Related states answer alike and stay related. -/
def Simulates (R : σ → τ → Prop) (f : σ → ι → ω × σ) (g : τ → ι → ω × τ) : Prop :=
  ∀ s t, R s t → ∀ i, (f s i).1 = (g t i).1 ∧ R (f s i).2 (g t i).2

variable {R : σ → τ → Prop} {f : σ → ι → ω × σ} {g : τ → ι → ω × τ} {s : σ} {t : τ}

lemma Simulates.answers_eq (h : Simulates R f g) (hs : R s t) (is : List ι) :
    answers f s is = answers g t is := by
  induction is generalizing s t with
  | nil => rfl
  | cons i is ih =>
    obtain ⟨hanswer, hnext⟩ := h s t hs i
    rw [answers, answers, hanswer, ih hnext]

lemma Simulates.stateAfter (h : Simulates R f g) (hs : R s t) (is : List ι) :
    R (stateAfter f s is) (stateAfter g t is) := by
  induction is generalizing s t with
  | nil => exact hs
  | cons i is ih => exact ih (h s t hs i).2

end Machine

namespace Fifo

variable {T : Type*} {N : ℕ}

/-! ### Operations -/

/-- Append, or fail when full. -/
def push (N : ℕ) (v : T) (xs : List T) : Bool × List T :=
  if xs.length = N then (false, xs) else (true, xs ++ [v])

/-- Remove the front and hand it out, or fail when there is none. -/
def pop (out : T) : List T → Bool × T × List T
  | [] => (false, out, [])
  | x :: xs => (true, x, xs)

/-- Hand out the front without removing it. -/
def peek (out : T) : List T → Bool × T
  | [] => (false, out)
  | x :: _ => (true, x)

/-- Remove the front, or fail when there is none. -/
def dropOldest : List T → Bool × List T
  | [] => (false, [])
  | _ :: xs => (true, xs)

/-- Remove the front when full, then append. -/
def pushOverwrite (N : ℕ) (v : T) (xs : List T) : List T :=
  (if xs.length = N then xs.tail else xs) ++ [v]

/-! ### Calls -/

/-- A call. Where it writes through an out-parameter, `out` is the value there before. -/
inductive Call (T : Type*)
  | push (v : T)
  | pop (out : T)
  | peek (out : T)
  | dropOldest
  | pushOverwrite (v : T)
  | clear

/-- What is in the out-parameter before the call. -/
def Call.out : Call T → Option T
  | .pop out => some out
  | .peek out => some out
  | _ => none

/-- What the caller sees: the result, if the call has one, the out-parameter, if it has one, and
then the size, the free space, and whether the queue is empty or full. -/
structure Answer (T : Type*) where
  result : Option Bool
  out : Option T
  size : ℕ
  freeSpace : ℕ
  empty : Bool
  full : Bool
  deriving DecidableEq

/-- The answer of a queue that holds `xs`. -/
def answer (N : ℕ) (result : Option Bool) (out : Option T) (xs : List T) : Answer T :=
  ⟨result, out, xs.length, N - xs.length, xs.isEmpty, xs.length = N⟩

def step (N : ℕ) (xs : List T) : Call T → Answer T × List T
  | .push v => let r := push N v xs; (answer N (some r.1) none r.2, r.2)
  | .pop out => let r := pop out xs; (answer N (some r.1) (some r.2.1) r.2.2, r.2.2)
  | .peek out => let r := peek out xs; (answer N (some r.1) (some r.2) xs, xs)
  | .dropOldest => let r := dropOldest xs; (answer N (some r.1) none r.2, r.2)
  | .pushOverwrite v => let ys := pushOverwrite N v xs; (answer N none none ys, ys)
  | .clear => (answer N none none [], [])

/-- A call that fails leaves the queue and the out-parameter alone. -/
lemma step_of_failed {xs : List T} {c : Call T} (h : (step N xs c).1.result = some false) :
    (step N xs c).2 = xs ∧ (step N xs c).1.out = c.out := by
  cases c with
  | push v =>
    by_cases hfull : xs.length = N
    · simp [step, push, hfull, answer, Call.out]
    · simp [step, push, hfull, answer] at h
  | pop out =>
    cases xs with
    | nil => exact ⟨rfl, rfl⟩
    | cons x xs => cases h
  | peek out =>
    cases xs with
    | nil => exact ⟨rfl, rfl⟩
    | cons x xs => cases h
  | dropOldest =>
    cases xs with
    | nil => exact ⟨rfl, rfl⟩
    | cons x xs => cases h
  | pushOverwrite v => cases h
  | clear => cases h

end Fifo
