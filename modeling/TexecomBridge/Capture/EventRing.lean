import TexecomBridge.Capture.Archive

/-!
# The event ring

What is queued for the next flush, as a list of format events. A push splits its bytes into chunks
and queues those that fit; a flush writes every queued event in order and leaves the ring empty.
-/

namespace TexecomBridge

/-- What the format makes of a pending event: the bytes in use are the payload. -/
def PendingEvent.toEvent (e : PendingEvent) : Event :=
  ⟨e.direction, e.tsUs, e.bytes.take e.len.toNat⟩

/-- The queued events, oldest first. -/
def EventRing.events (r : EventRing) : List Event := r.toList.map PendingEvent.toEvent

/-- What the splitting loop queues: direction 0 or 1 and 1 to 256 bytes. -/
structure Event.Queueable (e : Event) : Prop where
  direction_le : e.direction ≤ 1
  payload_ne : e.payload ≠ []
  length_le : e.payload.length ≤ kMaxEventPayload

lemma Event.Queueable.valid {e : Event} (h : e.Queueable) : e.Valid :=
  ⟨h.direction_le, h.length_le.trans (by decide)⟩

lemma Event.Queueable.serialize_ne {e : Event} (h : e.Queueable) : e.serialize ≠ [] := by
  rw [← List.length_pos_iff, Event.length_serialize h.valid, kCaptureEventFixedSize]
  omega

namespace EventRing

@[simp] lemma length_events (r : EventRing) : r.events.length = r.size := by
  simp [events]

lemma events_eq_nil_iff {r : EventRing} : r.events = [] ↔ r.size = 0 := by
  rw [← List.length_eq_zero_iff, length_events]

lemma events_put {r : EventRing} (h : r.size < kCaptureRingEvents) (e : PendingEvent) :
    events (r.put e) = r.events ++ [e.toEvent] := by
  rw [events, Circular.toList_put h, List.map_append, events, List.map_singleton]

lemma events_dropFront (r : EventRing) : events r.dropFront = r.events.tail := by
  rw [events, Circular.toList_dropFront, List.map_tail, events]

end EventRing

namespace Capture

/-! ### Queueing -/

/-- The chunks of a push as events, each with the time it is queued at. -/
def chunkEvents (p : Platform) (startUs : UInt64) (direction : UInt8) (bytes : List UInt8) (i : ℕ) :
    List Event :=
  if bytes = [] then []
  else
    ⟨direction, (p.micros i).toUInt64 - startUs, bytes.take kMaxEventPayload⟩ ::
      chunkEvents p startUs direction (bytes.drop kMaxEventPayload) (i + 1)
termination_by bytes.length
decreasing_by
  have := List.length_pos_iff.mpr ‹¬bytes = []›
  simp only [List.length_drop, kMaxEventPayload]
  omega

section chunkEvents

variable (p : Platform) (startUs : UInt64) (direction : UInt8)

lemma chunkEvents_nil (i : ℕ) : chunkEvents p startUs direction [] i = [] := by
  rw [chunkEvents, if_pos rfl]

lemma chunkEvents_of_ne_nil {bytes : List UInt8} (h : bytes ≠ []) (i : ℕ) :
    chunkEvents p startUs direction bytes i =
      ⟨direction, (p.micros i).toUInt64 - startUs, bytes.take kMaxEventPayload⟩ ::
        chunkEvents p startUs direction (bytes.drop kMaxEventPayload) (i + 1) := by
  rw [chunkEvents, if_neg h]

/-- A push of at most 256 bytes is one event. -/
lemma chunkEvents_singleton {bytes : List UInt8} (h : bytes ≠ [])
    (hlen : bytes.length ≤ kMaxEventPayload) (i : ℕ) :
    chunkEvents p startUs direction bytes i
      = [⟨direction, (p.micros i).toUInt64 - startUs, bytes⟩] := by
  rw [chunkEvents_of_ne_nil p startUs direction h, List.take_of_length_le hlen,
    List.drop_of_length_le hlen, chunkEvents_nil]

variable {p startUs direction}

lemma direction_of_mem_chunkEvents {bytes : List UInt8} {i : ℕ} {e : Event}
    (he : e ∈ chunkEvents p startUs direction bytes i) : e.direction = direction := by
  induction bytes, i using chunkEvents.induct with
  | case1 i => simp [chunkEvents_nil] at he
  | case2 bytes i h ih =>
    rw [chunkEvents_of_ne_nil p startUs direction h] at he
    rcases List.mem_cons.mp he with rfl | he
    · rfl
    · exact ih he

/-- A chunk has 1 to 256 bytes. -/
lemma payload_of_mem_chunkEvents {bytes : List UInt8} {i : ℕ} {e : Event}
    (he : e ∈ chunkEvents p startUs direction bytes i) :
    e.payload ≠ [] ∧ e.payload.length ≤ kMaxEventPayload := by
  induction bytes, i using chunkEvents.induct with
  | case1 i => simp [chunkEvents_nil] at he
  | case2 bytes i h ih =>
    rw [chunkEvents_of_ne_nil p startUs direction h] at he
    rcases List.mem_cons.mp he with rfl | he
    · refine ⟨?_, by simp⟩
      simp [h, kMaxEventPayload]
    · exact ih he

lemma queueable_of_mem_chunkEvents (hdir : direction ≤ 1) {bytes : List UInt8} {i : ℕ} {e : Event}
    (he : e ∈ chunkEvents p startUs direction bytes i) : e.Queueable := by
  obtain ⟨hne, hlen⟩ := payload_of_mem_chunkEvents he
  refine ⟨?_, hne, hlen⟩
  rw [direction_of_mem_chunkEvents he]
  exact hdir

/-- The payloads of the chunks make up the bytes pushed. -/
lemma flatMap_chunkEvents (bytes : List UInt8) (i : ℕ) :
    (chunkEvents p startUs direction bytes i).flatMap (·.payload) = bytes := by
  induction bytes, i using chunkEvents.induct with
  | case1 i => simp [chunkEvents_nil]
  | case2 bytes i h ih =>
    rw [chunkEvents_of_ne_nil p startUs direction h, List.flatMap_cons, ih]
    exact List.take_append_drop _ _

/-- The number of chunks. -/
lemma length_chunkEvents (bytes : List UInt8) (i : ℕ) :
    (chunkEvents p startUs direction bytes i).length
      = (bytes.length + (kMaxEventPayload - 1)) / kMaxEventPayload := by
  induction bytes, i using chunkEvents.induct with
  | case1 i => simp [chunkEvents_nil, kMaxEventPayload]
  | case2 bytes i h ih =>
    have := List.length_pos_iff.mpr h
    rw [chunkEvents_of_ne_nil p startUs direction h, List.length_cons, ih]
    simp only [List.length_drop, kMaxEventPayload]
    omega

end chunkEvents

lemma toEvent_chunk (direction : UInt8) (tsUs : UInt64) (old bytes : List UInt8) :
    PendingEvent.toEvent
        { direction := direction
          tsUs := tsUs
          len := UInt16.ofNat (bytes.take kMaxEventPayload).length
          bytes := memcpy old (bytes.take kMaxEventPayload) }
      = ⟨direction, tsUs, bytes.take kMaxEventPayload⟩ := by
  have hlen : (bytes.take kMaxEventPayload).length < 2 ^ 16 := by
    have := List.length_take_le kMaxEventPayload bytes
    simp only [kMaxEventPayload] at this ⊢
    omega
  simp only [PendingEvent.toEvent, memcpy, UInt16.toNat_ofNat', Nat.mod_eq_of_lt hlen,
    List.take_left]

/-- The splitting loop queues the chunks that fit, and says whether all of them did. -/
lemma enqueueChunks_spec (p : Platform) (startUs : UInt64) (direction : UInt8) (bytes : List UInt8)
    (i : ℕ) (ring : EventRing) :
    let all := chunkEvents p startUs direction bytes i
    let room := kCaptureRingEvents - ring.size
    (enqueueChunks p startUs direction bytes i ring).1 = decide (all.length ≤ room) ∧
      (enqueueChunks p startUs direction bytes i ring).2.events
        = ring.events ++ all.take room := by
  induction bytes, i, ring using enqueueChunks.induct p startUs direction with
  | case1 i ring => simp [enqueueChunks, chunkEvents_nil]
  | case2 bytes i ring h hfull =>
    rw [enqueueChunks, if_neg h, if_pos hfull, chunkEvents_of_ne_nil p startUs direction h]
    simp [hfull]
  | case3 bytes i ring h hroom chunk ih =>
    have hlt : ring.size < kCaptureRingEvents := Nat.lt_of_le_of_ne ring.size_le hroom
    rw [enqueueChunks, if_neg h, if_neg hroom, chunkEvents_of_ne_nil p startUs direction h]
    obtain ⟨hflag, hevents⟩ := ih
    simp only [chunk, Circular.size_put hlt, EventRing.events_put hlt, toEvent_chunk] at hflag hevents
    have hsucc : kCaptureRingEvents - ring.size = kCaptureRingEvents - (ring.size + 1) + 1 := by
      omega
    refine ⟨?_, ?_⟩
    · rw [hflag, hsucc, List.length_cons]
      simp
    · rw [hevents, hsucc, List.take_succ_cons, List.append_assoc, List.singleton_append]

end Capture
end TexecomBridge
