import TexecomBridge.RingBuffer
import TexecomBridge.Library.Fifo

/-!
# The ring buffer is a bounded FIFO queue

Any sequence of calls on a ring buffer of any capacity is answered as it would be by a plain list
that holds at most that many elements.
-/

namespace TexecomBridge.RingBuffer

variable {T : Type*} {N : ℕ}

/-! ### Single calls -/

lemma push_eq (rb : RingBuffer T N) (v : T) :
    (rb.push v).1 = (Fifo.push N v rb.toList).1 ∧
      (rb.push v).2.toList = (Fifo.push N v rb.toList).2 := by
  by_cases hfull : rb.size = N
  · rw [push_of_full ((full_eq_true_iff rb).mpr hfull)]
    simp [Fifo.push, hfull]
  · have hroom : rb.size < N := lt_of_le_of_ne rb.size_le hfull
    rw [toList_push hroom, push_of_room hroom]
    simp [Fifo.push, hfull]

lemma pop_eq (rb : RingBuffer T N) (out : T) :
    (rb.pop out).1 = (Fifo.pop out rb.toList).1 ∧
      (rb.pop out).2.1 = (Fifo.pop out rb.toList).2.1 ∧
      (rb.pop out).2.2.toList = (Fifo.pop out rb.toList).2.2 := by
  cases hlist : rb.toList with
  | nil =>
    rw [pop_of_empty (Circular.toList_eq_nil_iff.mp hlist)]
    exact ⟨rfl, rfl, hlist⟩
  | cons x xs =>
    obtain ⟨rb', hpop, hrest⟩ := pop_of_cons hlist out
    rw [hpop]
    exact ⟨rfl, rfl, hrest⟩

lemma peek_eq (rb : RingBuffer T N) (out : T) : rb.peek out = Fifo.peek out rb.toList := by
  obtain ⟨hresult, hout, -⟩ := pop_eq rb out
  rw [peek_eq_pop, hresult, hout]
  cases rb.toList <;> rfl

lemma dropOldest_eq (rb : RingBuffer T N) :
    rb.dropOldest.1 = (Fifo.dropOldest rb.toList).1 ∧
      rb.dropOldest.2.toList = (Fifo.dropOldest rb.toList).2 := by
  rw [toList_dropOldest]
  cases hlist : rb.toList with
  | nil =>
    have hempty := (empty_eq_true_iff rb).mpr (Circular.toList_eq_nil_iff.mp hlist)
    simp [dropOldest, hempty, Fifo.dropOldest]
  | cons x xs =>
    have hempty : rb.empty = false := by
      rw [← Bool.not_eq_true, empty_eq_true_iff, ← Circular.toList_eq_nil_iff, hlist]
      exact List.cons_ne_nil x xs
    simp [dropOldest, hempty, Fifo.dropOldest]

/-- Whether or not something is dropped first, there is room, so the value is always stored. -/
lemma toList_pushOverwrite (rb : RingBuffer T N) (v : T) :
    (rb.pushOverwrite v).toList = Fifo.pushOverwrite N v rb.toList := by
  by_cases hfull : rb.size = N
  · have hroom := size_dropOldest_of_full hfull
    rw [pushOverwrite, if_pos ((full_eq_true_iff rb).mpr hfull), toList_push hroom,
      toList_dropOldest]
    simp [Fifo.pushOverwrite, hfull]
  · have hroom : rb.size < N := lt_of_le_of_ne rb.size_le hfull
    have hnot : ¬ rb.full = true := fun h => hfull ((full_eq_true_iff rb).mp h)
    rw [pushOverwrite, if_neg hnot, toList_push hroom]
    simp [Fifo.pushOverwrite, hfull]

/-! ### Runs -/

/-- The answer of a ring buffer. -/
def answer (result : Option Bool) (out : Option T) (rb : RingBuffer T N) : Fifo.Answer T :=
  ⟨result, out, rb.size, rb.freeSpace, rb.empty, rb.full⟩

def step (rb : RingBuffer T N) : Fifo.Call T → Fifo.Answer T × RingBuffer T N
  | .push v => let r := rb.push v; (answer (some r.1) none r.2, r.2)
  | .pop out => let r := rb.pop out; (answer (some r.1) (some r.2.1) r.2.2, r.2.2)
  | .peek out => let r := rb.peek out; (answer (some r.1) (some r.2) rb, rb)
  | .dropOldest => let r := rb.dropOldest; (answer (some r.1) none r.2, r.2)
  | .pushOverwrite v => let rb := rb.pushOverwrite v; (answer none none rb, rb)
  | .clear => let rb := rb.clear; (answer none none rb, rb)

/-- The accessors see the list of contents. -/
lemma answer_eq (rb : RingBuffer T N) (result : Option Bool) (out : Option T) :
    rb.answer result out = Fifo.answer N result out rb.toList := by
  have hempty : rb.empty = rb.toList.isEmpty := by
    rw [Bool.eq_iff_iff, empty_eq_true_iff, List.isEmpty_iff, Circular.toList_eq_nil_iff]
  rw [answer, Fifo.answer, Circular.length_toList, hempty]
  rfl

/-- A ring buffer with the contents `xs`. -/
def Represents (rb : RingBuffer T N) (xs : List T) : Prop := rb.toList = xs

lemma simulates_step : Simulates (Represents (T := T) (N := N)) step (Fifo.step N) := by
  rintro rb xs rfl c
  cases c with
  | push v =>
    obtain ⟨hresult, hlist⟩ := push_eq rb v
    simp only [step, Fifo.step, Represents, answer_eq, hresult, hlist, and_self]
  | pop out =>
    obtain ⟨hresult, hout, hlist⟩ := pop_eq rb out
    simp only [step, Fifo.step, Represents, answer_eq, hresult, hout, hlist, and_self]
  | peek out => simp only [step, Fifo.step, Represents, answer_eq, peek_eq, and_self]
  | dropOldest =>
    obtain ⟨hresult, hlist⟩ := dropOldest_eq rb
    simp only [step, Fifo.step, Represents, answer_eq, hresult, hlist, and_self]
  | pushOverwrite v =>
    simp only [step, Fifo.step, Represents, answer_eq, toList_pushOverwrite, and_self]
  | clear => simp only [step, Fifo.step, Represents, answer_eq, toList_clear, and_self]

/-- From the initial state on, whose slots hold value-initialised elements, the indices agree, the
contents are those of a queue of at most `N` elements, and so is every answer. A call that fails
changes nothing, and `push_overwrite` always stores its value. -/
theorem refines_fifo (init : T) (hN : 0 < N) (calls : List (Fifo.Call T)) :
    let start : RingBuffer T N := Circular.empty init hN
    let rb := stateAfter step start calls
    rb.head = (rb.tail + rb.size) % N ∧ rb.size ≤ N ∧
    rb.toList = stateAfter (Fifo.step N) [] calls ∧
    (∀ result out, rb.answer result out = Fifo.answer N result out rb.toList) ∧
    answers step start calls = answers (Fifo.step N) [] calls ∧
    (∀ c, (rb.step c).1.result = some false →
      (rb.step c).2.toList = rb.toList ∧ (rb.step c).1.out = c.out) ∧
    ∀ v, (rb.step (.pushOverwrite v)).2.toList.getLast? = some v := by
  intro start rb
  have hstart : Represents start [] := Circular.toList_empty init hN
  refine ⟨rb.head_eq, rb.size_le, simulates_step.stateAfter hstart calls, rb.answer_eq,
    simulates_step.answers_eq hstart calls, ?_, ?_⟩
  · intro c hfailed
    obtain ⟨hanswer, hnext⟩ := simulates_step rb rb.toList rfl c
    rw [hanswer] at hfailed
    obtain ⟨hlist, hout⟩ := Fifo.step_of_failed hfailed
    exact ⟨hnext.trans hlist, hanswer ▸ hout⟩
  · intro v
    obtain ⟨-, hnext⟩ := simulates_step rb rb.toList rfl (.pushOverwrite v)
    rw [hnext]
    exact List.getLast?_concat

/-- Three values pushed into room for two, with a pop before the last: the storage wraps. -/
theorem refines_fifo_wraps :
    let rb : RingBuffer ℕ 2 := stateAfter step (Circular.empty 0 (by decide))
      [.push 1, .push 2, .push 3, .pop 0, .push 3]
    rb.head = (rb.tail + rb.size) % 2 ∧ rb.tail = 1 ∧ rb.toList = [2, 3] := by
  intro rb
  obtain ⟨hhead, -, hlist, -⟩ := refines_fifo 0 (by decide : 0 < 2)
    [.push 1, .push 2, .push 3, .pop 0, .push 3]
  refine ⟨hhead, by decide, hlist.trans ?_⟩
  decide

end TexecomBridge.RingBuffer
