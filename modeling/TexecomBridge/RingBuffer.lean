import TexecomBridge.Library.Circular

/-!
# Byte ring buffers

The fixed-capacity ring both data directions of the bridge go through. A method that writes
through an out-parameter takes its old value and returns the new one; a method that returns `bool`
returns it beside the buffer.
-/

namespace TexecomBridge

/-- `RingBuffer<T, N>`: storage, head, tail and size are those of a circular array. -/
abbrev RingBuffer (T : Type*) (N : ℕ) := Circular T N

namespace RingBuffer

variable {T : Type*} {N : ℕ}

def empty (rb : RingBuffer T N) : Bool := rb.size = 0

def full (rb : RingBuffer T N) : Bool := rb.size = N

def capacity (_ : RingBuffer T N) : ℕ := N

def freeSpace (rb : RingBuffer T N) : ℕ := N - rb.size

/-- Push one value, or return `false` when full. -/
def push (rb : RingBuffer T N) (v : T) : Bool × RingBuffer T N :=
  if rb.full then (false, rb) else (true, rb.put v)

/-- Pop one value into `out`, or return `false` when empty. -/
def pop (rb : RingBuffer T N) (out : T) : Bool × T × RingBuffer T N :=
  if rb.empty then (false, out, rb) else (true, rb.slot rb.tail, rb.dropFront)

/-- Read the next value without consuming it. -/
def peek (rb : RingBuffer T N) (out : T) : Bool × T :=
  if rb.empty then (false, out) else (true, rb.slot rb.tail)

/-- Drop the oldest element. -/
def dropOldest (rb : RingBuffer T N) : Bool × RingBuffer T N :=
  if rb.empty then (false, rb) else (true, rb.dropFront)

/-- Drop the oldest element if full, then push. -/
def pushOverwrite (rb : RingBuffer T N) (v : T) : RingBuffer T N :=
  let rb := if rb.full then rb.dropOldest.2 else rb
  (rb.push v).2

def clear (rb : RingBuffer T N) : RingBuffer T N := Circular.clear rb

@[simp] lemma full_eq_true_iff (rb : RingBuffer T N) : rb.full = true ↔ rb.size = N := by
  simp [full]

@[simp] lemma full_eq_false_iff (rb : RingBuffer T N) : rb.full = false ↔ rb.size < N := by
  have := rb.size_le
  simp only [full, decide_eq_false_iff_not]
  omega

@[simp] lemma empty_eq_true_iff (rb : RingBuffer T N) : rb.empty = true ↔ rb.size = 0 := by
  simp [empty]

@[simp] lemma toList_clear (rb : RingBuffer T N) : rb.clear.toList = [] :=
  Circular.toList_clear rb

@[simp] lemma size_clear (rb : RingBuffer T N) : rb.clear.size = 0 := rfl

/-! ### Pushing -/

lemma push_of_full {rb : RingBuffer T N} (h : rb.full = true) (v : T) :
    rb.push v = (false, rb) := by
  simp [push, h]

lemma push_of_room {rb : RingBuffer T N} (h : rb.size < N) (v : T) :
    rb.push v = (true, rb.put v) := by
  simp [push, (full_eq_false_iff rb).mpr h]

/-- A push that succeeds appends. -/
lemma toList_push {rb : RingBuffer T N} (h : rb.size < N) (v : T) :
    (rb.push v).2.toList = rb.toList ++ [v] := by
  rw [push_of_room h]
  exact Circular.toList_put h v

/-! ### Popping -/

lemma pop_of_empty {rb : RingBuffer T N} (h : rb.size = 0) (out : T) :
    rb.pop out = (false, out, rb) := by
  simp [pop, h]

/-- A pop that succeeds removes the head of the contents. -/
lemma pop_of_cons {rb : RingBuffer T N} {x : T} {xs : List T} (h : rb.toList = x :: xs) (out : T) :
    ∃ rb', rb.pop out = (true, x, rb') ∧ rb'.toList = xs := by
  have hsize : rb.size ≠ 0 := by
    rw [← Circular.length_toList, h]
    simp
  have hfront := Circular.front?_eq_head? rb
  simp only [Circular.front?, hsize, ↓reduceIte, h, List.head?_cons, Option.some.injEq] at hfront
  refine ⟨rb.dropFront, ?_, ?_⟩
  · simp [pop, empty, hsize, hfront]
  · rw [Circular.toList_dropFront, h, List.tail_cons]

lemma peek_of_empty {rb : RingBuffer T N} (h : rb.size = 0) (out : T) :
    rb.peek out = (false, out) := by
  simp [peek, h]

/-- A peek reads what a pop would remove. -/
lemma peek_eq_pop (rb : RingBuffer T N) (out : T) :
    rb.peek out = ((rb.pop out).1, (rb.pop out).2.1) := by
  unfold peek pop
  split_ifs <;> rfl

/-- Dropping the oldest element removes the head of the contents. -/
lemma toList_dropOldest (rb : RingBuffer T N) : rb.dropOldest.2.toList = rb.toList.tail := by
  unfold dropOldest
  split_ifs with h
  · rw [Circular.toList_eq_nil_iff.mpr ((empty_eq_true_iff rb).mp h), List.tail_nil]
  · exact Circular.toList_dropFront rb

lemma size_dropOldest (rb : RingBuffer T N) : rb.dropOldest.2.size = rb.size - 1 := by
  rw [← Circular.length_toList, toList_dropOldest, List.length_tail, Circular.length_toList]

/-- A full buffer has room once its oldest element is dropped. -/
lemma size_dropOldest_of_full {rb : RingBuffer T N} (h : rb.size = N) :
    rb.dropOldest.2.size < N := by
  have hpos := rb.capacity_pos
  rw [size_dropOldest]
  omega

end RingBuffer
end TexecomBridge
