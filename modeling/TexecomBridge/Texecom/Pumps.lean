import TexecomBridge.Texecom.Trace
import TexecomBridge.Capture.Lifecycle

/-!
# The loops of the pumps

One lemma for each loop: what it moves between its buffers, what it does to the sockets, and what
it leaves to the capture sink.
-/

namespace TexecomBridge

/-! ### UART to ring -/

/-- A byte that is pushed is the newest; what makes room for it is counted. -/
lemma pushDroppingOldest_spec (b : UInt8) (ring : RingBuffer UInt8 kBufferSize) (drops : UInt32) :
    ∃ d, Missing d (pushDroppingOldest b ring drops).1.toList (ring.toList ++ [b]) ∧
      (pushDroppingOldest b ring drops).2 = drops + UInt32.ofNat d := by
  by_cases hroom : ring.size < kBufferSize
  · refine ⟨0, ?_, ?_⟩
    · rw [pushDroppingOldest, RingBuffer.push_of_room hroom, Circular.toList_put hroom]
      exact Missing.refl _
    · rw [pushDroppingOldest, RingBuffer.push_of_room hroom]
      simp
  · have hsize : ring.size = kBufferSize := le_antisymm ring.size_le (not_lt.mp hroom)
    have hfull : ring.full = true := (RingBuffer.full_eq_true_iff ring).mpr hsize
    have hroom' := RingBuffer.size_dropOldest_of_full hsize
    obtain ⟨x, xs, hlist⟩ : ∃ x xs, ring.toList = x :: xs := by
      apply List.exists_cons_of_ne_nil
      rw [ne_eq, Circular.toList_eq_nil_iff, hsize]
      decide
    have htail : ring.dropOldest.2.toList = xs := by
      rw [RingBuffer.toList_dropOldest, hlist, List.tail_cons]
    refine ⟨1, ?_, ?_⟩
    · rw [pushDroppingOldest, RingBuffer.push_of_full hfull, hlist]
      simp only
      rw [RingBuffer.toList_push hroom', htail]
      have hwhole : Missing 0 ([] ++ x :: (xs ++ [b])) (x :: xs ++ [b]) := Missing.refl _
      exact hwhole.erase
    · rw [pushDroppingOldest, RingBuffer.push_of_full hfull]
      rfl

/-- The drain loop moves a batch of at most `room` bytes to the ring. Those that did not fit are
counted, and the newest are kept. -/
lemma drainUart_spec (uart : ℕ → UartAnswer) (room : ℕ) (batch : List UInt8)
    (ring : RingBuffer UInt8 kBufferSize) (drops : UInt32) :
    ∃ new d, (drainUart uart room batch ring drops).batch = batch ++ new ∧ new.length ≤ room ∧
      Missing d (drainUart uart room batch ring drops).ring.toList (ring.toList ++ new) ∧
      (drainUart uart room batch ring drops).drops = drops + UInt32.ofNat d := by
  induction room generalizing batch ring drops with
  | zero => exact ⟨[], 0, by simp [drainUart], le_rfl, by simpa [drainUart] using Missing.refl _,
      by simp [drainUart]⟩
  | succ room ih =>
    cases hanswer : uart batch.length with
    | unavailable =>
      exact ⟨[], 0, by simp [drainUart, hanswer], Nat.zero_le _,
        by simpa [drainUart, hanswer] using Missing.refl _, by simp [drainUart, hanswer]⟩
    | failed =>
      exact ⟨[], 0, by simp [drainUart, hanswer], Nat.zero_le _,
        by simpa [drainUart, hanswer] using Missing.refl _, by simp [drainUart, hanswer]⟩
    | byte b =>
      obtain ⟨d, hmissing, hdrops⟩ := pushDroppingOldest_spec b ring drops
      obtain ⟨new, d', hbatch, hlength, hmissing', hdrops'⟩ := ih (batch ++ [b])
        (pushDroppingOldest b ring drops).1 (pushDroppingOldest b ring drops).2
      have hstep : drainUart uart (room + 1) batch ring drops
          = drainUart uart room (batch ++ [b]) (pushDroppingOldest b ring drops).1
            (pushDroppingOldest b ring drops).2 := by
        rw [drainUart, hanswer]
      rw [hstep]
      refine ⟨b :: new, d' + d, ?_, ?_, ?_, ?_⟩
      · rw [hbatch, List.append_assoc, List.singleton_append]
      · exact Nat.succ_le_succ hlength
      · have hprefixed := hmissing.append new
        rw [List.append_assoc, List.singleton_append] at hprefixed
        exact hmissing'.trans hprefixed
      · rw [hdrops', hdrops, Nat.add_comm d', UInt32.ofNat_add, UInt32.add_assoc]

/-! ### Ring to socket -/

/-- The stage is within its array and the offset within the stage. -/
structure SendState.Bounded (s : SendState) : Prop where
  stage_le : s.stage.length ≤ kSendStageSize
  off_le : s.off ≤ s.stage.length

lemma SendState.Bounded.topUp {s : SendState} (h : s.Bounded) : s.topUp.Bounded := by
  unfold SendState.topUp
  split_ifs
  · constructor
    · have hlength := (refill_spec kSendStageSize [] s.ring).2
      rwa [List.length_nil, Nat.zero_add] at hlength
    · exact Nat.zero_le _
  · exact h

lemma SendState.Bounded.advance {s : SendState} (h : s.Bounded) {n : ℕ}
    (hn : n ≤ s.remaining.length) : (s.advance n).Bounded := by
  constructor
  · exact h.stage_le
  · have hoff := h.off_le
    simp only [SendState.remaining, List.length_drop] at hn
    simp only [SendState.advance]
    omega

/-- Bytes reported as sent are the first that were pending. -/
lemma SendState.take_append_pending_advance (s : SendState) (n : ℕ) :
    s.remaining.take n ++ (s.advance n).pending = s.pending := by
  simp only [SendState.remaining, SendState.pending, SendState.advance]
  rw [← List.append_assoc, ← List.drop_drop, List.take_append_drop]

/-- The send loop writes to the client only, sends what was pending from the front, and keeps the
rest. -/
lemma sendLoop_spec (inp : Tick) (conn : Conn) (k : ℕ) (s : SendState) :
    (∀ o ∈ (sendLoop inp conn k s).io, ∃ offered answer, o = .write conn offered answer) ∧
      clientTx (sendLoop inp conn k s).io ++ (sendLoop inp conn k s).state.pending = s.pending ∧
      (s.Bounded → (sendLoop inp conn k s).state.Bounded) := by
  induction k, s using sendLoop.induct inp conn with
  | case1 k s hempty =>
    rw [sendLoop, dif_pos hempty]
    exact ⟨by simp, s.pending_topUp, fun h => h.topUp⟩
  | case2 k s hempty hanswer =>
    rw [sendLoop, dif_neg hempty, hanswer]
    exact ⟨by simp, s.pending_topUp, fun h => h.topUp⟩
  | case3 k s hempty hanswer =>
    rw [sendLoop, dif_neg hempty, hanswer]
    exact ⟨by simp, s.pending_topUp, fun h => h.topUp⟩
  | case4 k s hempty n hanswer hshort =>
    have hn := inp.write_le k _ n hanswer
    rw [sendLoop, dif_neg hempty, hanswer]
    simp only [if_pos hshort]
    refine ⟨by simp, ?_, fun h => h.topUp.advance hn⟩
    have hpending := s.topUp.take_append_pending_advance n
    rw [s.pending_topUp] at hpending
    simpa [clientTx, Obs.clientTx] using hpending
  | case5 k s hempty n hanswer hfull ih =>
    have hn := inp.write_le k _ n hanswer
    obtain ⟨hwrites, hpending', hbounded⟩ := ih
    rw [sendLoop, dif_neg hempty, hanswer]
    simp only [if_neg hfull]
    refine ⟨?_, ?_, fun h => hbounded (h.topUp.advance hn)⟩
    · intro o ho
      rcases List.mem_cons.mp ho with rfl | ho
      · exact ⟨_, _, rfl⟩
      · exact hwrites o ho
    · have hpending := s.topUp.take_append_pending_advance n
      rw [s.pending_topUp, ← hpending'] at hpending
      simpa [clientTx, Obs.clientTx, List.flatMap_cons] using hpending

lemma inSession_sendLoop (inp : Tick) (conn : Conn) (k : ℕ) (s : SendState) :
    ∀ o ∈ (sendLoop inp conn k s).io, o.inSession := by
  intro o ho
  obtain ⟨offered, answer, rfl⟩ := (sendLoop_spec inp conn k s).1 o ho
  trivial

/-- Writes to the client add to nothing but what the client is sent. -/
lemma quiet_sendLoop (inp : Tick) (conn : Conn) (k : ℕ) (s : SendState) :
    panelTx (sendLoop inp conn k s).io = [] ∧ clientRx (sendLoop inp conn k s).io = [] ∧
      refusals (sendLoop inp conn k s).io = [] ∧ batches (sendLoop inp conn k s).io = [] ∧
      panelRx (sendLoop inp conn k s).io = [] := by
  refine ⟨?_, ?_, ?_, ?_, ?_⟩ <;>
  · apply List.flatMap_eq_nil_iff.mpr
    intro o ho
    obtain ⟨_, _, rfl⟩ := (sendLoop_spec inp conn k s).1 o ho
    rfl

/-! ### What is queued for capture -/

/-- What a capture keeps of an event. -/
def Event.key (e : Event) : UInt8 × List UInt8 := (e.direction, e.payload)

namespace Capture

/-- The queued batches, oldest first. -/
def queued (c : Capture) : List (UInt8 × List UInt8) := c.ring.events.map Event.key

/-- `c'` is `c` but for the event ring and the counters of what did not fit. -/
def Queues (c c' : Capture) : Prop :=
  ∃ ring drops warn, c' = { c with ring := ring, drops := drops, warnThrottle := warn }

lemma Queues.refl (c : Capture) : c.Queues c := ⟨_, _, _, rfl⟩

lemma Queues.trans {c c' c'' : Capture} (h : c.Queues c') (h' : c'.Queues c'') : c.Queues c'' := by
  obtain ⟨_, _, _, rfl⟩ := h
  obtain ⟨_, _, _, rfl⟩ := h'
  exact ⟨_, _, _, rfl⟩

/-- A batch is queued, or is one drop. -/
structure Took (c : Capture) (batches : List (UInt8 × List UInt8)) (c' : Capture) : Prop where
  queues : c.Queues c'
  queued : ∃ k, Missing k c'.queued (c.queued ++ batches) ∧ c'.drops = c.drops + UInt32.ofNat k

lemma Took.refl (c : Capture) : c.Took [] c := by
  refine ⟨Queues.refl c, 0, ?_, by simp⟩
  rw [List.append_nil]
  exact Missing.refl _

lemma Took.trans {c c' c'' : Capture} {bs bs' : List (UInt8 × List UInt8)} (h : c.Took bs c')
    (h' : c'.Took bs' c'') : c.Took (bs ++ bs') c'' := by
  obtain ⟨k, hmissing, hdrops⟩ := h.queued
  obtain ⟨k', hmissing', hdrops'⟩ := h'.queued
  refine ⟨h.queues.trans h'.queues, k' + k, ?_, ?_⟩
  · have happended := hmissing.append bs'
    rw [List.append_assoc] at happended
    exact hmissing'.trans happended
  · rw [hdrops', hdrops, Nat.add_comm k', UInt32.ofNat_add, UInt32.add_assoc]

/-- A session is recorded. -/
def Recording (c : Capture) : Prop := c.mode.opens ∧ c.sessionActive = true

lemma Queues.config_eq {c c' : Capture} (h : c.Queues c') : c'.config = c.config := by
  obtain ⟨_, _, _, rfl⟩ := h
  rfl

lemma Queues.sessionActive_eq {c c' : Capture} (h : c.Queues c') :
    c'.sessionActive = c.sessionActive := by
  obtain ⟨_, _, _, rfl⟩ := h
  rfl

lemma Queues.recording {c c' : Capture} (h : c.Queues c') (hc : c.Recording) : c'.Recording := by
  obtain ⟨_, _, _, rfl⟩ := h
  exact hc

end Capture

/-- A batch the pumps can offer to the capture sink. -/
structure Recordable (direction : UInt8) (bytes : List UInt8) : Prop where
  direction_le : direction ≤ 1
  ne_nil : bytes ≠ []
  length_le : bytes.length ≤ kMaxEventPayload

lemma recordIfWanted_queues (p : Platform) (direction : UInt8) (bytes : List UInt8) (c : Capture) :
    c.Queues (recordIfWanted p direction bytes c) := by
  unfold recordIfWanted
  split_ifs
  · exact Capture.record_frame p direction bytes c
  · exact Capture.Queues.refl c

lemma inv_recordIfWanted {c : Capture} (h : c.Inv) (p : Platform) (direction : UInt8)
    (bytes : List UInt8) : (recordIfWanted p direction bytes c).Inv := by
  unfold recordIfWanted
  split_ifs
  · exact h.record p direction bytes
  · exact h

/-- While a session is recorded, every batch is queued or counted. -/
lemma recordIfWanted_took {c : Capture} (hc : c.Recording) (p : Platform) {direction : UInt8}
    {bytes : List UInt8} (hb : Recordable direction bytes) :
    c.Took [(direction, bytes)] (recordIfWanted p direction bytes c) := by
  refine ⟨recordIfWanted_queues p direction bytes c, ?_⟩
  obtain ⟨hmode, hactive⟩ := hc
  have hrec : recordIfWanted p direction bytes c = c.enqueueEvent p direction bytes := by
    rw [recordIfWanted, if_pos (Capture.wouldRecord_of_opens hmode hactive),
      Capture.record_of_opens p hmode hactive hb.direction_le hb.ne_nil]
  have hevents := Capture.events_enqueueEvent p direction bytes c
  have hdrops := Capture.drops_enqueueEvent p direction bytes c
  rw [Capture.chunkEvents_singleton p c.sessionStartUs direction hb.ne_nil hb.length_le 0]
    at hevents hdrops
  rw [List.length_singleton] at hdrops
  rw [hrec, Capture.queued, hevents, hdrops, List.map_append]
  by_cases hroom : 1 ≤ kCaptureRingEvents - c.ring.size
  · refine ⟨0, ?_, by simp [hroom]⟩
    rw [List.take_of_length_le (by simpa using hroom)]
    exact Missing.refl _
  · have hnone : kCaptureRingEvents - c.ring.size = 0 := by omega
    refine ⟨1, ?_, by simp [hnone]⟩
    rw [hnone, List.take_zero, List.map_nil, List.append_nil]
    exact (Missing.refl _).skip _

/-! ### Socket to ring -/

/-- The peer has closed, or the read failed. -/
def ReadAnswer.endsSession : ReadAnswer → Bool
  | .closed => true
  | .wouldBlock => false
  | .error => true
  | .data _ => false

section readLoop

variable {inp : Tick} {k : ℕ} {ring : RingBuffer UInt8 kBufferSize}

lemma readLoop_of_full (hfull : ring.full = true) (conn : Conn) (capture : Capture) :
    readLoop inp conn k ring capture = ⟨ring, capture, [], false⟩ := by
  rw [readLoop, if_pos hfull]

/-- An answer without data ends the loop; unless it is would-block, it ends the session. -/
lemma readLoop_of_no_data (hfull : ¬ ring.full = true)
    (hdata : ∀ bytes, inp.read k (wanted ring) ≠ .data bytes) (conn : Conn) (capture : Capture) :
    readLoop inp conn k ring capture =
      ⟨ring, capture, [.read conn (wanted ring) (inp.read k (wanted ring))],
        (inp.read k (wanted ring)).endsSession⟩ := by
  rw [readLoop, if_neg hfull]
  split
  · rename_i hanswer
    rw [hanswer]
    rfl
  · rename_i hanswer
    rw [hanswer]
    rfl
  · rename_i hanswer
    rw [hanswer]
    rfl
  · exact absurd ‹_› (hdata _)

lemma readLoop_of_data (hfull : ¬ ring.full = true) {bytes : List UInt8}
    (hdata : inp.read k (wanted ring) = .data bytes) (conn : Conn) (capture : Capture) :
    readLoop inp conn k ring capture =
      { readLoop inp conn (k + 1) (pushAll bytes ring).1
          (recordIfWanted (inp.atRead k) 1 bytes capture) with
        io := .read conn (wanted ring) (.data bytes) :: (pushAll bytes ring).2 ++
          (readLoop inp conn (k + 1) (pushAll bytes ring).1
            (recordIfWanted (inp.atRead k) 1 bytes capture)).io } := by
  rw [readLoop, if_neg hfull]
  split <;> simp_all

/-- An answer without data adds nothing to what was read. -/
lemma quiet_read (hdata : ∀ bytes, inp.read k (wanted ring) ≠ .data bytes) (conn : Conn) :
    clientRx [.read conn (wanted ring) (inp.read k (wanted ring))] = [] ∧
      batches [.read conn (wanted ring) (inp.read k (wanted ring))] = [] := by
  cases hanswer : inp.read k (wanted ring) with
  | data bytes => exact absurd hanswer (hdata bytes)
  | _ => exact ⟨rfl, rfl⟩

/-- What was read fits in the ring. -/
lemma read_fits {bytes : List UInt8} (hdata : inp.read k (wanted ring) = .data bytes) :
    ring.size + bytes.length ≤ kBufferSize ∧ Recordable 1 bytes := by
  obtain ⟨hne, hlen⟩ := inp.read_le _ _ _ hdata
  have hle := ring.size_le
  constructor
  · simp only [wanted] at hlen
    omega
  · exact ⟨by decide, hne, hlen.trans (min_le_right _ _)⟩

/-- Induction on the read loop: it stops at a full ring or at an answer without data, else goes on
with what was read in the ring. -/
@[elab_as_elim]
lemma readLoop_induction (inp : Tick) (conn : Conn)
    {motive : ℕ → RingBuffer UInt8 kBufferSize → Capture → Prop}
    (full : ∀ k ring capture, ring.full = true → motive k ring capture)
    (no_data : ∀ k ring capture, ¬ ring.full = true →
      (∀ bytes, inp.read k (wanted ring) ≠ .data bytes) → motive k ring capture)
    (data : ∀ k ring capture bytes, ¬ ring.full = true → inp.read k (wanted ring) = .data bytes →
      motive (k + 1) (pushAll bytes ring).1 (recordIfWanted (inp.atRead k) 1 bytes capture) →
      motive k ring capture) (k : ℕ) (ring : RingBuffer UInt8 kBufferSize) (capture : Capture) :
    motive k ring capture := by
  induction k, ring, capture using readLoop.induct inp conn with
  | case1 k ring capture hfull => exact full k ring capture hfull
  | case2 k ring capture hfull hanswer =>
    exact no_data k ring capture hfull fun bytes hdata => by simp [hanswer] at hdata
  | case3 k ring capture hfull hanswer =>
    exact no_data k ring capture hfull fun bytes hdata => by simp [hanswer] at hdata
  | case4 k ring capture hfull hanswer =>
    exact no_data k ring capture hfull fun bytes hdata => by simp [hanswer] at hdata
  | case5 k ring capture hfull bytes hanswer ih => exact data k ring capture bytes hfull hanswer ih

end readLoop

/-- The read loop reads from the client only, and every byte it reads is pushed to the ring and
offered to the capture sink. -/
lemma readLoop_spec (inp : Tick) (conn : Conn) (k : ℕ) (ring : RingBuffer UInt8 kBufferSize)
    (capture : Capture) :
    let r := readLoop inp conn k ring capture
    (∀ o ∈ r.io, ∃ want answer, o = .read conn want answer) ∧
      r.ring.toList = ring.toList ++ clientRx r.io ∧
      capture.Queues r.capture ∧ (capture.Inv → r.capture.Inv) ∧
      (capture.Recording → capture.Took (batches r.io) r.capture) := by
  induction k, ring, capture using readLoop_induction inp conn with
  | full k ring capture hfull =>
    rw [readLoop_of_full hfull]
    exact ⟨by simp, by simp [clientRx], .refl _, id, fun _ => .refl _⟩
  | no_data k ring capture hfull hdata =>
    obtain ⟨hrx, hbatches⟩ := quiet_read hdata conn
    rw [readLoop_of_no_data hfull hdata]
    refine ⟨by simp, ?_, .refl _, id, fun _ => ?_⟩
    · rw [hrx, List.append_nil]
    · rw [hbatches]
      exact .refl _
  | data k ring capture bytes hfull hanswer ih =>
    obtain ⟨hfit, hbytes⟩ := read_fits hanswer
    obtain ⟨hring, hrefused⟩ := pushAll_spec hfit
    obtain ⟨hreads, hring', hqueues, hinv, htook⟩ := ih
    have hfirst := recordIfWanted_queues (inp.atRead k) 1 bytes capture
    rw [readLoop_of_data hfull hanswer, hrefused]
    refine ⟨?_, ?_, hfirst.trans hqueues, fun h => hinv (inv_recordIfWanted h _ _ _), fun h => ?_⟩
    · intro o ho
      rcases List.mem_cons.mp ho with rfl | ho
      · exact ⟨_, _, rfl⟩
      · exact hreads o ho
    · rw [hring', hring, List.append_assoc]
      rfl
    · exact (recordIfWanted_took h (inp.atRead k) hbytes).trans (htook (hfirst.recording h))

lemma inSession_readLoop (inp : Tick) (conn : Conn) (k : ℕ) (ring : RingBuffer UInt8 kBufferSize)
    (capture : Capture) : ∀ o ∈ (readLoop inp conn k ring capture).io, o.inSession := by
  intro o ho
  obtain ⟨want, answer, rfl⟩ := (readLoop_spec inp conn k ring capture).1 o ho
  trivial

lemma recordable_readLoop (inp : Tick) (conn : Conn) (k : ℕ) (ring : RingBuffer UInt8 kBufferSize)
    (capture : Capture) :
    ∀ b ∈ batches (readLoop inp conn k ring capture).io, Recordable b.1 b.2 := by
  induction k, ring, capture using readLoop_induction inp conn with
  | full k ring capture hfull =>
    rw [readLoop_of_full hfull]
    simp [batches]
  | no_data k ring capture hfull hdata =>
    rw [readLoop_of_no_data hfull hdata, (quiet_read hdata conn).2]
    simp
  | data k ring capture bytes hfull hanswer ih =>
    obtain ⟨hfit, hbytes⟩ := read_fits hanswer
    rw [readLoop_of_data hfull hanswer, (pushAll_spec hfit).2]
    intro b hb
    rcases List.mem_append.mp hb with hb | hb
    · rw [List.mem_singleton.mp hb]
      exact hbytes
    · exact ih b hb

/-- Reads from the client add to nothing but what was read from it. -/
lemma quiet_readLoop (inp : Tick) (conn : Conn) (k : ℕ) (ring : RingBuffer UInt8 kBufferSize)
    (capture : Capture) : panelTx (readLoop inp conn k ring capture).io = [] ∧
      refusals (readLoop inp conn k ring capture).io = [] ∧
      clientTx (readLoop inp conn k ring capture).io = [] ∧
      panelRx (readLoop inp conn k ring capture).io = [] := by
  refine ⟨?_, ?_, ?_, ?_⟩ <;>
  · apply List.flatMap_eq_nil_iff.mpr
    intro o ho
    obtain ⟨_, _, rfl⟩ := (readLoop_spec inp conn k ring capture).1 o ho
    rfl

/-! ### Ring to UART -/

/-- Every byte in the ring is handed to the UART. -/
lemma drainToUart_spec (ring : RingBuffer UInt8 kBufferSize) :
    (drainToUart ring).1 = ring.toList ∧ (drainToUart ring).2.toList = [] := by
  induction hbytes : ring.toList generalizing ring with
  | nil =>
    have hpeek := RingBuffer.peek_of_empty (Circular.toList_eq_nil_iff.mp hbytes) 0
    rw [drainToUart]
    split
    · simp_all
    · exact ⟨rfl, hbytes⟩
  | cons b bs ih =>
    obtain ⟨ring', hpop, hring'⟩ := RingBuffer.pop_of_cons hbytes b
    obtain ⟨ring₀, hpop₀, -⟩ := RingBuffer.pop_of_cons hbytes 0
    have hpeek := RingBuffer.peek_eq_pop ring 0
    rw [hpop₀] at hpeek
    have hstep : drainToUart ring = (b :: (drainToUart ring').1, (drainToUart ring').2) := by
      rw [drainToUart]
      split
      · rename_i b' hb'
        obtain rfl : b = b' := by
          rw [hpeek] at hb'
          simpa using hb'
        rw [hpop]
      · simp_all
    obtain ⟨hhanded, hleft⟩ := ih ring' hring'
    rw [hstep]
    exact ⟨by rw [hhanded], hleft⟩

/-- Handing bytes to the panel adds to nothing else. -/
lemma quiet_uartTx (bs : List UInt8) : panelTx (bs.map .uartTx) = bs ∧
    clientRx (bs.map .uartTx) = [] ∧ refusals (bs.map .uartTx) = [] ∧
    batches (bs.map .uartTx) = [] ∧ clientTx (bs.map .uartTx) = [] ∧
    panelRx (bs.map .uartTx) = [] := by
  induction bs with
  | nil => exact ⟨rfl, rfl, rfl, rfl, rfl, rfl⟩
  | cons b bs ih =>
    obtain ⟨htx, hquiet⟩ := ih
    refine ⟨?_, hquiet⟩
    rw [panelTx] at htx ⊢
    rw [List.map_cons, List.flatMap_cons, htx]
    rfl

lemma inSession_uartTx (bs : List UInt8) : ∀ o ∈ bs.map Obs.uartTx, o.inSession := by
  intro o ho
  obtain ⟨b, -, rfl⟩ := List.mem_map.mp ho
  trivial

end TexecomBridge
