import TexecomBridge.Capture.Lifecycle

/-!
# The ring as a bounded queue

Enqueueing appends the chunks that fit, and a flush writes out everything in the order it was
queued. `record()` returns `true` for every push it does not filter out, also when some or all of
its chunks found no free slot.
-/

namespace TexecomBridge
namespace Capture

variable {c : Capture} {p : Platform} {direction : UInt8} {bytes : List UInt8}

/-! ### All or nothing -/

/-- What makes `record()` return `false`, whatever the ring holds. -/
def Refuses (c : Capture) (direction : UInt8) (bytes : List UInt8) : Prop :=
  c.mode = .none ∨ direction > 1 ∨ bytes = [] ∨ (c.mode = .bridgeOnly ∧ c.sessionActive = false) ∨
    (c.mode = .monitorOnly ∧ c.sessionActive = true)

instance (c : Capture) (direction : UInt8) (bytes : List UInt8) :
    Decidable (c.Refuses direction bytes) :=
  inferInstanceAs (Decidable (_ ∨ _))

/-- A slot of the ring is free for every chunk of `bytes`. -/
def Fits (c : Capture) (bytes : List UInt8) : Prop :=
  (bytes.length + (kMaxEventPayload - 1)) / kMaxEventPayload ≤ kCaptureRingEvents - c.ring.size

instance (c : Capture) (bytes : List UInt8) : Decidable (c.Fits bytes) :=
  inferInstanceAs (Decidable (_ ≤ _))

/-- The events queued behind those of `before` are of this direction and carry exactly `bytes`. -/
def QueuedWhole (before after : Capture) (direction : UInt8) (bytes : List UInt8) : Prop :=
  ∃ new : List Event, new ≠ [] ∧ after.ring.events = before.ring.events ++ new ∧
    (∀ e ∈ new, e.direction = direction) ∧ new.flatMap (·.payload) = bytes

/-- `record()` returns `true` exactly when all of the payload has been queued. When it returns
`false`, nothing but the drop counter has changed, and that has when nothing else stood in the way
than a full ring. -/
def AllOrNothing (c : Capture) (p : Platform) (direction : UInt8) (bytes : List UInt8) : Prop :=
  ((c.record p direction bytes).1 = true ↔
    QueuedWhole c (c.record p direction bytes).2 direction bytes) ∧
  ((c.record p direction bytes).1 = false →
    ∃ drops, (c.record p direction bytes).2 = { c with drops := drops } ∧
      (¬ c.Refuses direction bytes → drops ≠ c.drops))

lemma record_of_refuses (h : c.Refuses direction bytes) (p : Platform) :
    c.record p direction bytes = (false, c) := by
  rcases h with h | h | h | ⟨h, hactive⟩ | ⟨h, hactive⟩
  · simp [Capture.record, h]
  · simp [Capture.record, h]
  · simp [Capture.record, h]
  · simp [Capture.record, h, hactive]
  · simp [Capture.record, h, hactive]

lemma record_of_not_refuses (h : ¬ c.Refuses direction bytes) (p : Platform) :
    c.record p direction bytes = (true, c.enqueueEvent p direction bytes) := by
  simp only [Refuses, not_or] at h
  obtain ⟨hmode, hdir, hb, hbridge, hmonitor⟩ := h
  simp only [Capture.record, if_neg hmode, if_neg hdir, if_neg hb]
  rw [if_neg (by simpa using hbridge), if_neg (by simpa using hmonitor)]

/-- A strict part of the chunks carries less than was pushed. -/
lemma flatMap_take_chunkEvents_ne (p : Platform) (startUs : UInt64) (direction : UInt8)
    (bytes : List UInt8) {r : ℕ} (hr : r < (chunkEvents p startUs direction bytes 0).length) :
    ((chunkEvents p startUs direction bytes 0).take r).flatMap (·.payload) ≠ bytes := by
  intro heq
  have hall := @flatMap_chunkEvents p startUs direction bytes 0
  rw [← List.take_append_drop r (chunkEvents p startUs direction bytes 0), List.flatMap_append,
    heq] at hall
  have hnil := List.flatMap_eq_nil_iff.mp (List.append_right_eq_self.mp hall)
  have hmem : (chunkEvents p startUs direction bytes 0)[r] ∈
      (chunkEvents p startUs direction bytes 0).drop r := by
    rw [List.drop_eq_getElem_cons hr]
    exact List.mem_cons_self
  exact (payload_of_mem_chunkEvents (List.mem_of_mem_drop hmem)).1 (hnil _ hmem)

lemma queuedWhole_enqueueEvent (hb : bytes ≠ []) (hfits : c.Fits bytes) (p : Platform)
    (direction : UInt8) : QueuedWhole c (c.enqueueEvent p direction bytes) direction bytes := by
  have hevents := events_enqueueEvent p direction bytes c
  rw [List.take_of_length_le (by rwa [length_chunkEvents])] at hevents
  refine ⟨_, ?_, hevents, fun e he => direction_of_mem_chunkEvents he, flatMap_chunkEvents bytes 0⟩
  rw [chunkEvents_of_ne_nil p c.sessionStartUs direction hb]
  exact List.cons_ne_nil _ _

lemma not_queuedWhole_enqueueEvent (hfits : ¬ c.Fits bytes) (p : Platform) (direction : UInt8) :
    ¬ QueuedWhole c (c.enqueueEvent p direction bytes) direction bytes := by
  rintro ⟨new, -, hevents, -, hbytes⟩
  rw [events_enqueueEvent] at hevents
  rw [← List.append_cancel_left hevents] at hbytes
  refine flatMap_take_chunkEvents_ne p c.sessionStartUs direction bytes ?_ hbytes
  rw [length_chunkEvents]
  exact not_le.mp hfits

lemma allOrNothing_of_refuses (h : c.Refuses direction bytes) (p : Platform) :
    c.AllOrNothing p direction bytes := by
  rw [AllOrNothing, record_of_refuses h]
  refine ⟨iff_of_false Bool.false_ne_true ?_, fun _ => ⟨c.drops, rfl, absurd h⟩⟩
  rintro ⟨new, hne, hevents, -⟩
  exact hne (List.append_right_eq_self.mp hevents.symm)

lemma refuses_or_fits_of_allOrNothing (h : c.AllOrNothing p direction bytes) :
    c.Refuses direction bytes ∨ c.Fits bytes := by
  by_contra hnot
  obtain ⟨hrefuses, hfits⟩ := not_or.mp hnot
  rw [AllOrNothing, record_of_not_refuses hrefuses] at h
  exact not_queuedWhole_enqueueEvent hfits p direction (h.1.mp rfl)

/-- A call to `record()` is all or nothing and says so exactly when it is refused by mode, direction
or length, or a slot is free for every chunk. -/
theorem allOrNothing_iff (c : Capture) (p : Platform) (direction : UInt8) (bytes : List UInt8) :
    c.AllOrNothing p direction bytes ↔ c.Refuses direction bytes ∨ c.Fits bytes := by
  constructor
  · exact refuses_or_fits_of_allOrNothing
  · intro h
    by_cases hrefuses : c.Refuses direction bytes
    · exact allOrNothing_of_refuses hrefuses p
    · have hfits := h.resolve_left hrefuses
      have hb : bytes ≠ [] := fun hb => hrefuses (Or.inr (Or.inr (Or.inl hb)))
      rw [AllOrNothing, record_of_not_refuses hrefuses]
      refine ⟨iff_of_true rfl (queuedWhole_enqueueEvent hb hfits p direction), ?_⟩
      intro hfalse
      cases hfalse

/-- A session in which 64 one-byte batches arrive between two flushes, and then one more. -/
theorem not_allOrNothing : ¬ ∀ (cfg : Config) (ops : List Op) (p : Platform) (direction : UInt8)
    (bytes : List UInt8), (run cfg ops).AllOrNothing p direction bytes := by
  intro hall
  have h := refuses_or_fits_of_allOrNothing
    (hall ⟨.bridgeOnly, ascii "Premier 24", 131072, 19200⟩
      (.sessionStart .quiet :: List.replicate 64 (.record .quiet 0 [0x41])) .quiet 0 [0x41])
  revert h
  decide +kernel

/-! ### First in, first out -/

/-- Calls to the two helpers that work on the ring. -/
inductive QueueOp
  | enqueue (p : Platform) (direction : UInt8) (bytes : List UInt8)
  | flush (p : Platform)

/-- An enqueue is of direction 0 or 1. -/
def QueueOp.InOrder : QueueOp → Prop
  | .enqueue _ direction _ => direction ≤ 1
  | .flush _ => True

def queueStep (c : Capture) : QueueOp → Capture
  | .enqueue p direction bytes => c.enqueueEvent p direction bytes
  | .flush p => c.flushRing p

def queueRun (c : Capture) (ops : List QueueOp) : Capture := ops.foldl queueStep c

/-- The same on a list of at most 64 events: chunks are appended while there is room, and a flush
takes everything. -/
def pendingStep (startUs : UInt64) (q : List Event) : QueueOp → List Event
  | .enqueue p direction bytes =>
    q ++ (chunkEvents p startUs direction bytes 0).take (kCaptureRingEvents - q.length)
  | .flush _ => []

def pending (startUs : UInt64) (ops : List QueueOp) : List Event :=
  ops.foldl (pendingStep startUs) []

lemma sessionStartUs_writeBytes (p : Platform) (bytes : List UInt8) (c : Capture) :
    (c.writeBytes p bytes).sessionStartUs = c.sessionStartUs := by
  cases hsink : c.testSink with
  | none =>
    obtain ⟨_, _, _, _, hframe⟩ := writeBytes_frame hsink p bytes
    rw [hframe]
  | some out => simp [writeBytes, hsink]

lemma sessionStartUs_writeEvents (p : Platform) (es : List Event) (c : Capture) :
    (c.writeEvents p es).sessionStartUs = c.sessionStartUs := by
  induction es generalizing c with
  | nil => rfl
  | cons e es ih => rw [writeEvents_cons, ih, sessionStartUs_writeBytes]

lemma sessionStartUs_queueStep (hq : ∀ e ∈ c.ring.events, e.Queueable) (op : QueueOp) :
    (c.queueStep op).sessionStartUs = c.sessionStartUs := by
  cases op with
  | enqueue p direction bytes =>
    obtain ⟨_, _, _, hframe⟩ := enqueueEvent_frame p direction bytes c
    rw [queueStep, hframe]
  | flush p =>
    obtain ⟨r, -, hflush⟩ := flushRing_eq p hq
    rw [queueStep, hflush]
    exact sessionStartUs_writeEvents p _ c

/-- One call does to the queued events what it does to the list. -/
lemma events_queueStep (hq : ∀ e ∈ c.ring.events, e.Queueable) (op : QueueOp) :
    (c.queueStep op).ring.events = pendingStep c.sessionStartUs c.ring.events op := by
  cases op with
  | enqueue p direction bytes =>
    rw [queueStep, events_enqueueEvent, pendingStep, EventRing.length_events]
  | flush p =>
    obtain ⟨r, hr, hflush⟩ := flushRing_eq p hq
    rw [queueStep, hflush]
    exact hr

lemma queueable_pendingStep {startUs : UInt64} {q : List Event} (hq : ∀ e ∈ q, e.Queueable)
    {op : QueueOp} (hop : op.InOrder) : ∀ e ∈ pendingStep startUs q op, e.Queueable := by
  cases op with
  | enqueue p direction bytes =>
    intro e he
    rcases List.mem_append.mp he with he | he
    · exact hq e he
    · exact queueable_of_mem_chunkEvents hop (List.mem_of_mem_take he)
  | flush p => simp [pendingStep]

/-- From any ring state, the queued events are those of the list. -/
lemma events_queueRun (hq : ∀ e ∈ c.ring.events, e.Queueable) {ops : List QueueOp}
    (hops : ∀ op ∈ ops, op.InOrder) :
    (c.queueRun ops).ring.events = ops.foldl (pendingStep c.sessionStartUs) c.ring.events ∧
      ∀ e ∈ (c.queueRun ops).ring.events, e.Queueable := by
  induction ops generalizing c with
  | nil => exact ⟨rfl, hq⟩
  | cons op ops ih =>
    have hstep := events_queueStep hq op
    have hq' : ∀ e ∈ (c.queueStep op).ring.events, e.Queueable := by
      rw [hstep]
      exact queueable_pendingStep hq (hops op List.mem_cons_self)
    have hrest := ih hq' fun op' hop' => hops op' (List.mem_cons_of_mem _ hop')
    rw [hstep, sessionStartUs_queueStep hq] at hrest
    exact hrest

/-- An empty ring has head and tail in the same place. -/
lemma head_eq_tail {T : Type*} {N : ℕ} {r : Circular T N} (h : r.size = 0) : r.head = r.tail := by
  rw [r.head_eq, h, Nat.add_zero, Nat.mod_eq_of_lt r.tail_lt]

/-- After any calls on a ring that was empty, what is queued is what the list holds. A payload that
fits is appended as one event for each 256 bytes begun, of its direction, with 1 to 256 bytes each
and all of the payload among them. A flush writes the queued events in order, each as one record
that is parsed back as it, and leaves the ring empty. -/
theorem queue_loses_nothing {c : Capture} (hc : c.ring.size = 0) (ops : List QueueOp)
    (hops : ∀ op ∈ ops, op.InOrder) :
    let c' := c.queueRun ops
    let q := pending c.sessionStartUs ops
    c'.ring.events = q ∧
    (∀ (p : Platform) (direction : UInt8) (bytes : List UInt8), c'.Fits bytes →
      ∃ new, (c'.enqueueEvent p direction bytes).ring.events = q ++ new ∧
        new.length = (bytes.length + (kMaxEventPayload - 1)) / kMaxEventPayload ∧
        (∀ e ∈ new, e.direction = direction ∧ 1 ≤ e.payload.length ∧
          e.payload.length ≤ kMaxEventPayload) ∧
        new.flatMap (·.payload) = bytes) ∧
    ∀ p : Platform,
      c'.flushRing p = { c'.writeEvents p q with ring := (c'.flushRing p).ring } ∧
      (∀ e ∈ q, parseEvent e.serialize = some (e, e.serialize.length)) ∧
      (c'.flushRing p).ring.size = 0 ∧ (c'.flushRing p).ring.head = (c'.flushRing p).ring.tail := by
  intro c' q
  have hnil := EventRing.events_eq_nil_iff.mpr hc
  obtain ⟨hevents, hq⟩ := events_queueRun (c := c) (by simp [hnil]) hops
  rw [hnil] at hevents
  refine ⟨hevents, ?_, ?_⟩
  · intro p direction bytes hfits
    have henqueue := events_enqueueEvent p direction bytes c'
    rw [List.take_of_length_le (by rwa [length_chunkEvents]), hevents] at henqueue
    refine ⟨_, henqueue, length_chunkEvents bytes 0, fun e he => ?_, flatMap_chunkEvents bytes 0⟩
    obtain ⟨hne, hlen⟩ := payload_of_mem_chunkEvents he
    exact ⟨direction_of_mem_chunkEvents he, List.length_pos_iff.mpr hne, hlen⟩
  · intro p
    obtain ⟨r, hr, hflush⟩ := flushRing_eq p hq
    rw [hevents] at hflush hq
    have hempty := size_flushRing p c'
    refine ⟨?_, fun e he => ?_, hempty, head_eq_tail hempty⟩
    · conv_lhs => rw [hflush]
      rw [hflush]
      rfl
    · have hparse := parseEvent_serialize (hq e he).valid []
      rwa [List.append_nil, ← Event.length_serialize (hq e he).valid] at hparse

/-- A push of 600 bytes, a flush, and a push of 3 bytes into the slots behind it. -/
theorem queue_loses_nothing_reused : ∃ new,
    ((init.queueRun [.enqueue .quiet 0 (List.replicate 600 7), .flush .quiet]).enqueueEvent .quiet 1
      [1, 2, 3]).ring.events = new ∧ new.length = 1 ∧ new.flatMap (·.payload) = [1, 2, 3] := by
  have hops : ∀ op ∈ [QueueOp.enqueue .quiet 0 (List.replicate 600 7), .flush .quiet],
      op.InOrder := by
    intro op hop
    rcases List.mem_pair.mp hop with rfl | rfl
    · exact UInt8.zero_le
    · trivial
  obtain ⟨hevents, hpush, -⟩ := queue_loses_nothing (c := init) rfl _ hops
  obtain ⟨new, hnew, hlen, -, hbytes⟩ := hpush .quiet 1 [1, 2, 3] (by
    rw [Fits, ← EventRing.length_events, hevents]
    decide)
  exact ⟨new, hnew, hlen, hbytes⟩

end Capture
end TexecomBridge
