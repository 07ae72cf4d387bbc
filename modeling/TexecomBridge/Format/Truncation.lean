import TexecomBridge.Format.RoundTrip

/-!
# Cut-off captures

A capture that was cut anywhere behind its header is read back to its last whole event. The reading
loop terminates on every input, and never looks outside it.
-/

namespace TexecomBridge

instance (e : Event) : Decidable e.Valid :=
  decidable_of_iff (e.direction ≤ 1 ∧ e.payload.length ≤ 0xFFFF)
    ⟨fun ⟨hdir, hlen⟩ => ⟨hdir, hlen⟩, fun h => ⟨h.direction_le, h.length_le⟩⟩

/-- The events that a list of `serialize_event` calls writes: a call with a direction or a length
out of range writes nothing. -/
def writtenEvents (calls : List Event) : List Event := calls.filter fun e => e.Valid

lemma Event.serialize_of_not_valid {e : Event} (he : ¬ e.Valid) : e.serialize = [] := by
  rw [Event.serialize, serializeEvent]
  split_ifs with hdir hlen
  · rfl
  · rfl
  · exact absurd ⟨UInt8.not_lt.mp hdir, Nat.le_of_not_lt hlen⟩ he

lemma flatMap_writtenEvents (calls : List Event) :
    (writtenEvents calls).flatMap Event.serialize = calls.flatMap Event.serialize := by
  induction calls with
  | nil => rfl
  | cons e calls ih =>
    rw [writtenEvents] at ih ⊢
    by_cases he : e.Valid
    · rw [List.filter_cons_of_pos (by simpa using he), List.flatMap_cons, List.flatMap_cons, ih]
    · rw [List.filter_cons_of_neg (by simpa using he), List.flatMap_cons, ih,
        Event.serialize_of_not_valid he, List.nil_append]

lemma valid_of_mem_writtenEvents {calls : List Event} {e : Event} (he : e ∈ writtenEvents calls) :
    e.Valid := by
  simpa using (List.mem_filter.mp he).2

/-- The offset in a capture at which the record of its `i`-th event ends. -/
def endOffset (es : List Event) (i : ℕ) : ℕ :=
  kCaptureHeaderSize + ((es.take (i + 1)).flatMap Event.serialize).length

lemma endOffset_cons_zero (e : Event) (es : List Event) :
    endOffset (e :: es) 0 = kCaptureHeaderSize + e.serialize.length := by
  simp [endOffset]

lemma endOffset_cons_succ (e : Event) (es : List Event) (i : ℕ) :
    endOffset (e :: es) (i + 1) = e.serialize.length + endOffset es i := by
  simp only [endOffset, List.take_succ_cons, List.flatMap_cons, List.length_append]
  omega

/-! ### Reading a prefix -/

/-- A record that is not there whole does not parse, not even as another event. -/
lemma parseEvent_take_serialize {e : Event} (he : e.Valid) {k : ℕ} (hk : k < e.serialize.length) :
    parseEvent (e.serialize.take k) = none := by
  by_contra hsome
  obtain ⟨⟨e', n⟩, hparse⟩ := Option.ne_none_iff_exists'.mp hsome
  obtain ⟨-, hn⟩ := parseEvent_consumed hparse
  obtain ⟨he', hbytes⟩ := serialize_of_parseEvent hparse
  -- what was parsed also parses with the rest of the record behind it, and that is `e`
  have hsplit : e.serialize = e'.serialize ++ e.serialize.drop n := by
    rw [hbytes, List.take_take, Nat.min_eq_left (hn.trans (List.length_take_le _ _)),
      List.take_append_drop]
  have hwhole := parseEvent_serialize he []
  rw [List.append_nil, hsplit, parseEvent_serialize he'] at hwhole
  obtain rfl : e' = e := (Prod.mk.inj (Option.some.inj hwhole)).1
  have hlen := congrArg List.length hbytes
  rw [List.length_take, List.length_take] at hlen
  omega

/-- Reading the first `k` bytes of a list of records gives the events whose record ends there or
before, and then a parse fails. -/
lemma readEvents_take {es : List Event} (hes : ∀ e ∈ es, e.Valid) (k : ℕ) :
    ∃ m, (readEvents ((es.flatMap Event.serialize).take k)).1 = es.take m ∧
      ∀ i < es.length, i < m ↔ endOffset es i ≤ kCaptureHeaderSize + k := by
  induction es generalizing k with
  | nil => exact ⟨0, by simp [readEvents_nil], by simp⟩
  | cons e es ih =>
    have he := hes e List.mem_cons_self
    by_cases hk : e.serialize.length ≤ k
    · obtain ⟨m, hread, hm⟩ := ih (fun e' he' => hes e' (List.mem_cons_of_mem _ he'))
        (k - e.serialize.length)
      refine ⟨m + 1, ?_, ?_⟩
      · have hfirst := parseEvent_serialize he
          ((es.flatMap Event.serialize).take (k - e.serialize.length))
        rw [List.flatMap_cons, List.take_append, List.take_of_length_le hk,
          readEvents_of_some hfirst, List.drop_left' (Event.length_serialize he), hread,
          List.take_succ_cons]
      · intro i hi
        cases i with
        | zero => simp [endOffset_cons_zero, hk]
        | succ i =>
          rw [List.length_cons, Nat.succ_lt_succ_iff] at hi
          rw [Nat.succ_lt_succ_iff, hm i hi, endOffset_cons_succ]
          omega
    · rw [not_le] at hk
      refine ⟨0, ?_, ?_⟩
      · have hnone := parseEvent_take_serialize he hk
        rw [List.flatMap_cons, List.take_append, Nat.sub_eq_zero_of_le hk.le, List.take_zero,
          List.append_nil, readEvents_of_none hnone]
        rfl
      · intro i hi
        have hend : e.serialize.length + kCaptureHeaderSize ≤ endOffset (e :: es) i := by
          cases i with
          | zero => rw [endOffset_cons_zero, Nat.add_comm]
          | succ i =>
            rw [endOffset_cons_succ, endOffset]
            omega
        constructor
        · exact fun h => absurd h (Nat.not_lt_zero i)
        · intro h
          omega

/-! ### Reading anything -/

/-- The loop stops only where no event can be parsed. -/
lemma parseEvent_rest (inp : List UInt8) : parseEvent (readEvents inp).2 = none := by
  induction inp using readEvents.induct with
  | case1 inp h => rwa [readEvents_of_none h]
  | case2 inp e n h ih => rwa [readEvents_of_some h]

/-- One successful call of the reading loop, from `inp` to what is left of it. -/
def ReadStep (rest inp : List UInt8) : Prop :=
  ∃ e n, parseEvent inp = some (e, n) ∧ rest = inp.drop n

/-- There is no infinite sequence of successful calls. -/
lemma wellFounded_readStep : WellFounded ReadStep := by
  refine Subrelation.wf ?_ (measure List.length).wf
  rintro rest inp ⟨e, n, hparse, rfl⟩
  obtain ⟨hlow, hhigh⟩ := parseEvent_consumed hparse
  have hpos : 0 < n := lt_of_lt_of_le (by decide) hlow
  change (inp.drop n).length < inp.length
  rw [List.length_drop]
  exact Nat.sub_lt (hpos.trans_le hhigh) hpos

/-- The payload that a parse returns is a range of the input behind the fixed fields, and the bytes
consumed end with it. -/
lemma payload_of_parseEvent {inp : List UInt8} {e : Event} {n : ℕ}
    (h : parseEvent inp = some (e, n)) : n = kCaptureEventFixedSize + e.payload.length ∧
      e.payload = (inp.drop kCaptureEventFixedSize).take e.payload.length := by
  obtain ⟨-, rfl, hfits, rfl⟩ := parseEvent_eq_some h
  have hlen : ((inp.drop kCaptureEventFixedSize).take (readU16Le (inp.drop 9)).toNat).length
      = (readU16Le (inp.drop 9)).toNat := by
    rw [List.length_take, List.length_drop]
    omega
  exact ⟨by rw [hlen], by rw [hlen]⟩

/-- A capture cut at any `k` behind its header is read back to the events that end at `k` or before,
and then the parse fails. On any bytes whatever, the loop terminates, each successful parse consumes
at least 11 bytes and at most what is there, and the payload it returns lies inside the input. -/
theorem cut_capture_read :
    (∀ (h : CaptureHeader) (calls : List Event) (k : ℕ), kCaptureHeaderSize ≤ k →
      let es := writtenEvents calls
      let inp := ((serializeHeader h ++ calls.flatMap Event.serialize).take k).drop
        kCaptureHeaderSize
      ∃ m, (readEvents inp).1 = es.take m ∧
        (∀ i < es.length, i < m ↔ endOffset es i ≤ k) ∧ parseEvent (readEvents inp).2 = none) ∧
    WellFounded ReadStep ∧
    ∀ (inp : List UInt8) (e : Event) (n : ℕ), parseEvent inp = some (e, n) →
      11 ≤ n ∧ n ≤ inp.length ∧ n = kCaptureEventFixedSize + e.payload.length ∧
        e.payload = (inp.drop kCaptureEventFixedSize).take e.payload.length := by
  refine ⟨?_, wellFounded_readStep, ?_⟩
  · intro h calls k hk es inp
    have hvalid : ∀ e ∈ es, e.Valid := fun e he => valid_of_mem_writtenEvents he
    obtain ⟨m, hread, hm⟩ := readEvents_take hvalid (k - kCaptureHeaderSize)
    have hinp : inp = (es.flatMap Event.serialize).take (k - kCaptureHeaderSize) := by
      rw [flatMap_writtenEvents]
      have hlen := length_serializeHeader h
      simp only [inp]
      rw [List.drop_take, ← hlen, List.drop_left]
    rw [Nat.add_sub_cancel' hk] at hm
    refine ⟨m, ?_, hm, parseEvent_rest inp⟩
    rw [hinp, hread]
  · intro inp e n hparse
    obtain ⟨hlow, hhigh⟩ := parseEvent_consumed hparse
    exact ⟨hlow, hhigh, payload_of_parseEvent hparse⟩

/-- Two events of 13 and 12 bytes, cut one byte before the end of the second. -/
theorem cut_capture_read_mid_record :
    let h : CaptureHeader := ⟨1, 0, Vector.replicate 16 0x50, 19200⟩
    let calls : List Event := [⟨0, 5, [0x10, 0x11]⟩, ⟨1, 7, [0x41]⟩]
    (readEvents (((serializeHeader h ++ calls.flatMap Event.serialize).take 56).drop
      kCaptureHeaderSize)).1 = [⟨0, 5, [0x10, 0x11]⟩] := by
  intro h calls
  obtain ⟨m, hread, hm, -⟩ := cut_capture_read.1 h calls 56 (by decide)
  have hfirst := (hm 0 (by decide)).mpr (by decide)
  have hsecond := mt (hm 1 (by decide)).mp (by decide)
  obtain rfl : m = 1 := by omega
  rw [hread]
  rfl

end TexecomBridge
