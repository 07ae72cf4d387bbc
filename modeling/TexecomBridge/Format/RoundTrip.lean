import TexecomBridge.Format.Basic

/-!
# TXCP is uniquely decodable

What the serialisers write is read back as it was, and what the parsers accept is written back byte
for byte, except for the two reserved header bytes.
-/

namespace TexecomBridge

open LittleEndian

/-! ### Fields -/

/-- Or-ing in byte `i`, in a word of `w` bits, extends the number read so far. -/
private lemma or_next_byte {p : List UInt8} {i : ℕ} (w : ℕ) (hi : i < p.length)
    (hw : 8 * i + 8 ≤ w) :
    ofBytes (p.take i) ||| ((p.getD i 0).toNat <<< (8 * i)) % 2 ^ w = ofBytes (p.take (i + 1)) := by
  have hb := p[i].toNat_lt
  have hpow : (256 : ℕ) ^ i = 2 ^ (8 * i) := by rw [pow_mul]; norm_num
  have hlow : ofBytes (p.take i) < 2 ^ (8 * i) := by
    have := ofBytes_lt (p.take i)
    rwa [List.length_take_of_le hi.le, hpow] at this
  have hfit : p[i].toNat <<< (8 * i) < 2 ^ w := by
    rw [Nat.shiftLeft_eq]
    calc p[i].toNat * 2 ^ (8 * i) < 2 ^ 8 * 2 ^ (8 * i) :=
          Nat.mul_lt_mul_of_pos_right hb (Nat.two_pow_pos _)
      _ = 2 ^ (8 * i + 8) := by rw [← pow_add, Nat.add_comm]
      _ ≤ 2 ^ w := Nat.pow_le_pow_right (by decide) hw
  have hget : p.getD i 0 = p[i] := by simp [hi]
  rw [hget, Nat.mod_eq_of_lt hfit, or_shiftLeft _ hlow, List.take_succ_eq_append_getElem hi,
    ofBytes_append, List.length_take_of_le hi.le, hpow]
  simp [ofBytes]

lemma u16Codec : IsCodec UInt16.toNat 2 writeU16Le readU16Le where
  injective := fun _ _ h => UInt16.toNat_inj.mp h
  toNat_lt v := v.toNat_lt
  write_eq v := by
    simp only [writeU16Le, toBytes, List.cons.injEq, and_true]
    constructor <;> apply UInt8.toNat_inj.mp
    · simp [Nat.and_two_pow_sub_one_eq_mod _ 8]
    · simp [Nat.and_two_pow_sub_one_eq_mod _ 8, Nat.shiftRight_eq_div_pow]
  toNat_read p h := by
    have h₀ := or_next_byte (p := p) (i := 0) 16 (by omega) (by decide)
    have h₁ := or_next_byte (p := p) (i := 1) 16 (by omega) (by decide)
    rw [← h₁, ← h₀]
    simp [readU16Le, ofBytes]

lemma u32Codec : IsCodec UInt32.toNat 4 writeU32Le readU32Le where
  injective := fun _ _ h => UInt32.toNat_inj.mp h
  toNat_lt v := v.toNat_lt
  write_eq v := by
    simp only [writeU32Le, toBytes, List.cons.injEq, and_true, Nat.div_div_eq_div_mul]
    refine ⟨?_, ?_, ?_, ?_⟩ <;> apply UInt8.toNat_inj.mp <;>
      simp [Nat.and_two_pow_sub_one_eq_mod _ 8, Nat.shiftRight_eq_div_pow]
  toNat_read p h := by
    have h₀ := or_next_byte (p := p) (i := 0) 32 (by omega) (by decide)
    have h₁ := or_next_byte (p := p) (i := 1) 32 (by omega) (by decide)
    have h₂ := or_next_byte (p := p) (i := 2) 32 (by omega) (by decide)
    have h₃ := or_next_byte (p := p) (i := 3) 32 (by omega) (by decide)
    rw [← h₃, ← h₂, ← h₁, ← h₀]
    simp [readU32Le, ofBytes]

/-- After `k` rounds of the loop the first `k` bytes have been read. -/
private lemma toNat_readU64Le_loop {p : List UInt8} {k : ℕ} (hk : k ≤ 8) (hp : k ≤ p.length) :
    ((List.range k).foldl (fun v i => v ||| (p.getD i 0).toUInt64 <<< UInt64.ofNat (8 * i)) 0).toNat
      = ofBytes (p.take k) := by
  induction k with
  | zero => simp [ofBytes]
  | succ k ih =>
    have hshift : 8 * k % 2 ^ 64 % 64 = 8 * k := by omega
    rw [List.range_succ, List.foldl_append, List.foldl_cons, List.foldl_nil, UInt64.toNat_or,
      ih (by omega) (by omega), UInt64.toNat_shiftLeft, UInt64.toNat_ofNat', hshift,
      UInt8.toNat_toUInt64]
    exact or_next_byte 64 hp (by omega)

lemma u64Codec : IsCodec UInt64.toNat 8 writeU64Le readU64Le where
  injective := fun _ _ h => UInt64.toNat_inj.mp h
  toNat_lt v := v.toNat_lt
  write_eq v := by
    simp only [writeU64Le, toBytes, List.range, List.range.loop, List.map_cons, List.map_nil,
      List.cons.injEq, and_true, Nat.div_div_eq_div_mul]
    refine ⟨?_, ?_, ?_, ?_, ?_, ?_, ?_, ?_⟩ <;> apply UInt8.toNat_inj.mp <;>
      simp [Nat.and_two_pow_sub_one_eq_mod _ 8, Nat.shiftRight_eq_div_pow]
  toNat_read p h := toNat_readU64Le_loop le_rfl h

/-! ### Header -/

private lemma length_kCaptureMagic : kCaptureMagic.length = 4 := rfl

private lemma length_panelName (h : CaptureHeader) : h.panelName.toList.length = 16 :=
  Vector.length_toList

@[simp] lemma length_serializeHeader (h : CaptureHeader) :
    (serializeHeader h).length = kCaptureHeaderSize := by
  simp only [serializeHeader, List.length_append, length_kCaptureMagic, length_panelName,
    u16Codec.length_write, u32Codec.length_write]
  rfl

/-- The fields of a serialised header, each with everything that follows it. -/
private lemma drop_serializeHeader (h : CaptureHeader) (rest : List UInt8) :
    let s := serializeHeader h ++ rest
    s.take 4 = kCaptureMagic ∧ (∃ r, s.drop 4 = writeU16Le h.version ++ r) ∧
      (∃ r, s.drop 6 = writeU32Le h.startUnixS ++ r) ∧ (∃ r, s.drop 10 = h.panelName.toList ++ r) ∧
      ∃ r, s.drop 26 = writeU32Le h.baudRate ++ r := by
  intro s
  let afterName := writeU32Le h.baudRate ++ ([0, 0] ++ rest)
  let afterStart := h.panelName.toList ++ afterName
  let afterVersion := writeU32Le h.startUnixS ++ afterStart
  have hs : s = kCaptureMagic ++ (writeU16Le h.version ++ afterVersion) := by
    simp [s, serializeHeader, afterVersion, afterStart, afterName]
  have d4 : s.drop 4 = writeU16Le h.version ++ afterVersion := by
    rw [hs, List.drop_left' length_kCaptureMagic]
  have d6 : s.drop 6 = afterVersion := by
    rw [show 6 = 4 + 2 from rfl, ← List.drop_drop, d4, List.drop_left' (u16Codec.length_write _)]
  have d10 : s.drop 10 = afterStart := by
    rw [show 10 = 6 + 4 from rfl, ← List.drop_drop, d6, List.drop_left' (u32Codec.length_write _)]
  have d26 : s.drop 26 = afterName := by
    rw [show 26 = 10 + 16 from rfl, ← List.drop_drop, d10, List.drop_left' (length_panelName h)]
  exact ⟨by rw [hs, List.take_left' length_kCaptureMagic], ⟨_, d4⟩, ⟨_, d6⟩, ⟨_, d10⟩, ⟨_, d26⟩⟩

/-- A header of the current version is read back, whatever follows it. -/
lemma parseHeader_serializeHeader {h : CaptureHeader} (hv : h.version = kCaptureFormatVersion)
    (rest : List UInt8) : parseHeader (serializeHeader h ++ rest) = some h := by
  obtain ⟨hmagic, ⟨_, d4⟩, ⟨_, d6⟩, ⟨_, d10⟩, ⟨_, d26⟩⟩ := drop_serializeHeader h rest
  have hlen : ¬ (serializeHeader h ++ rest).length < kCaptureHeaderSize := by simp
  have hversion : readU16Le ((serializeHeader h ++ rest).drop 4) = h.version := by
    rw [d4, u16Codec.read_write]
  have hname : (Vector.ofFn fun i : Fin kCapturePanelNameLen =>
      (serializeHeader h ++ rest).getD (10 + i) 0) = h.panelName := by
    ext i hi
    have hget : ((serializeHeader h ++ rest).drop 10)[i]? = some h.panelName[i] := by
      rw [d10, List.getElem?_append_left (by rw [length_panelName]; exact hi)]
      simp [hi]
    rw [List.getElem?_drop] at hget
    simp [hget]
  rw [parseHeader, if_neg hlen, if_neg (by simp [hmagic]), if_neg (by simp [hversion, hv]), hversion,
    d6, d26, u32Codec.read_write, u32Codec.read_write, hname]

/-- A header that parses has the current version and is written back, but for the reserved bytes. -/
lemma serializeHeader_of_parseHeader {inp : List UInt8} {h : CaptureHeader}
    (hp : parseHeader inp = some h) :
    h.version = kCaptureFormatVersion ∧ serializeHeader h = inp.take 30 ++ [0, 0] := by
  have hlen : ¬ inp.length < kCaptureHeaderSize := fun hc => by simp [parseHeader, hc] at hp
  rw [parseHeader, if_neg hlen] at hp
  have hmagic : inp.take 4 = kCaptureMagic := by
    by_contra hc
    simp [hc] at hp
  have hversion : readU16Le (inp.drop 4) = kCaptureFormatVersion := by
    by_contra hc
    simp [hmagic, hc] at hp
  rw [if_neg (by simp [hmagic]), if_neg (by simp [hversion])] at hp
  simp only [kCaptureHeaderSize, not_lt] at hlen
  obtain rfl := Option.some.inj hp
  refine ⟨hversion, ?_⟩
  have hname : (Vector.ofFn fun i : Fin kCapturePanelNameLen => inp.getD (10 + i) 0).toList
      = (inp.drop 10).take 16 := by
    apply List.ext_getElem
    · simp [kCapturePanelNameLen]; omega
    · intro i h₁ h₂
      simp only [List.length_take, List.length_drop] at h₂
      simp [show 10 + i < inp.length by omega]
  have hsplit : inp.take 30 = inp.take 4 ++ (inp.drop 4).take 2 ++ (inp.drop 6).take 4
      ++ (inp.drop 10).take 16 ++ (inp.drop 26).take 4 := by
    rw [show 30 = 26 + 4 from rfl, List.take_add, show 26 = 10 + 16 from rfl, List.take_add,
      show 10 = 6 + 4 from rfl, List.take_add, show 6 = 4 + 2 from rfl, List.take_add]
  rw [serializeHeader, hname, u16Codec.write_read (by simp; omega),
    u32Codec.write_read (by simp; omega), u32Codec.write_read (by simp; omega), ← hmagic, hsplit]

/-! ### Events -/

lemma Event.serialize_of_valid {e : Event} (he : e.Valid) :
    e.serialize = [e.direction] ++ writeU64Le e.timestampUs ++
      writeU16Le (UInt16.ofNat e.payload.length) ++ e.payload := by
  have hdir : ¬ e.direction > 1 := UInt8.not_lt.mpr he.direction_le
  have hlen : ¬ e.payload.length > 0xFFFF := not_lt.mpr he.length_le
  rw [Event.serialize, serializeEvent, if_neg hdir, if_neg hlen]

lemma Event.length_serialize {e : Event} (he : e.Valid) :
    e.serialize.length = kCaptureEventFixedSize + e.payload.length := by
  simp only [Event.serialize_of_valid he, List.length_append, List.length_singleton,
    u64Codec.length_write, u16Codec.length_write, kCaptureEventFixedSize]

/-- A valid event is read back from the start of any string it begins. -/
lemma parseEvent_serialize {e : Event} (he : e.Valid) (rest : List UInt8) :
    parseEvent (e.serialize ++ rest) = some (e, kCaptureEventFixedSize + e.payload.length) := by
  let afterTime := writeU16Le (UInt16.ofNat e.payload.length) ++ (e.payload ++ rest)
  have hs : e.serialize ++ rest = e.direction :: (writeU64Le e.timestampUs ++ afterTime) := by
    simp [Event.serialize_of_valid he, afterTime]
  have d9 : (e.serialize ++ rest).drop 9 = afterTime := by
    rw [hs, List.drop_succ_cons, List.drop_left' (u64Codec.length_write _)]
  have d11 : (e.serialize ++ rest).drop 11 = e.payload ++ rest := by
    rw [show 11 = 9 + 2 from rfl, ← List.drop_drop, d9, List.drop_left' (u16Codec.length_write _)]
  have htime : readU64Le ((e.serialize ++ rest).drop 1) = e.timestampUs := by
    rw [hs, List.drop_succ_cons, List.drop_zero, u64Codec.read_write]
  have hlength : (readU16Le ((e.serialize ++ rest).drop 9)).toNat = e.payload.length := by
    rw [d9, u16Codec.read_write, UInt16.toNat_ofNat', Nat.mod_eq_of_lt]
    exact Nat.lt_succ_of_le he.length_le
  have hdir : (e.serialize ++ rest).getD 0 0 = e.direction := by rw [hs]; rfl
  have hfits : ¬ (e.serialize ++ rest).length < kCaptureEventFixedSize + e.payload.length := by
    simp [Event.length_serialize he]
  have hshort : ¬ (e.serialize ++ rest).length < kCaptureEventFixedSize := by omega
  simp only [parseEvent, if_neg hshort, hdir, if_neg (UInt8.not_lt.mpr he.direction_le), hlength,
    if_neg hfits, htime]
  rw [kCaptureEventFixedSize, d11, List.take_left]

/-- An event that parses is valid and is written back as the bytes it was read from. -/
lemma serialize_of_parseEvent {inp : List UInt8} {e : Event} {n : ℕ}
    (h : parseEvent inp = some (e, n)) : e.Valid ∧ e.serialize = inp.take n := by
  obtain ⟨hdir, rfl, hfits, rfl⟩ := parseEvent_eq_some h
  simp only [kCaptureEventFixedSize] at hfits ⊢
  have hlen := (readU16Le (inp.drop 9)).toNat_lt
  have htake : ((inp.drop 11).take (readU16Le (inp.drop 9)).toNat).length
      = (readU16Le (inp.drop 9)).toNat := by
    rw [List.length_take, List.length_drop]
    omega
  have hvalid : Event.Valid ⟨inp.getD 0 0, readU64Le (inp.drop 1),
      (inp.drop 11).take (readU16Le (inp.drop 9)).toNat⟩ := by
    refine ⟨hdir, ?_⟩
    rw [htake]
    exact Nat.le_of_lt_succ hlen
  refine ⟨hvalid, ?_⟩
  have hfirst : inp.take 1 = [inp.getD 0 0] := by
    match inp, hfits with
    | b :: _, _ => rfl
  have hfixed : inp.take 11 = inp.take 1 ++ (inp.drop 1).take 8 ++ (inp.drop 9).take 2 := by
    rw [show 11 = 9 + 2 from rfl, List.take_add, show 9 = 1 + 8 from rfl, List.take_add]
  rw [Event.serialize_of_valid hvalid, htake, UInt16.ofNat_toNat,
    u64Codec.write_read (by rw [List.length_drop]; omega),
    u16Codec.write_read (by rw [List.length_drop]; omega), ← hfirst, ← hfixed, List.take_add]

/-! ### The reading loop -/

lemma readEvents_of_none {inp : List UInt8} (h : parseEvent inp = none) :
    readEvents inp = ([], inp) := by
  rw [readEvents]
  split <;> simp_all

lemma readEvents_of_some {inp : List UInt8} {e : Event} {n : ℕ}
    (h : parseEvent inp = some (e, n)) :
    readEvents inp = (e :: (readEvents (inp.drop n)).1, (readEvents (inp.drop n)).2) := by
  rw [readEvents]
  split <;> simp_all

lemma readEvents_nil : readEvents [] = ([], []) :=
  readEvents_of_none (by simp [parseEvent, kCaptureEventFixedSize])

/-- The loop reads back a list of valid events and goes on with what follows it. -/
lemma readEvents_flatMap {es : List Event} (hes : ∀ e ∈ es, e.Valid) (rest : List UInt8) :
    readEvents (es.flatMap Event.serialize ++ rest)
      = (es ++ (readEvents rest).1, (readEvents rest).2) := by
  induction es with
  | nil => rfl
  | cons e es ih =>
    have he := hes e List.mem_cons_self
    have hparse := parseEvent_serialize he (es.flatMap Event.serialize ++ rest)
    rw [List.flatMap_cons, List.append_assoc, readEvents_of_some hparse,
      List.drop_left' (Event.length_serialize he),
      ih fun e' he' => hes e' (List.mem_cons_of_mem _ he')]
    rfl

/-- Whatever the loop is given, what it read and what it left make up the input. -/
lemma flatMap_readEvents (inp : List UInt8) :
    (∀ e ∈ (readEvents inp).1, e.Valid) ∧
      (readEvents inp).1.flatMap Event.serialize ++ (readEvents inp).2 = inp := by
  induction inp using readEvents.induct with
  | case1 inp h => simp [readEvents_of_none h]
  | case2 inp e n h ih =>
    obtain ⟨hvalid, hbytes⟩ := serialize_of_parseEvent h
    rw [readEvents_of_some h]
    refine ⟨?_, ?_⟩
    · intro e' he'
      rcases List.mem_cons.mp he' with rfl | he'
      · exact hvalid
      · exact ih.1 e' he'
    · rw [List.flatMap_cons, List.append_assoc, ih.2, hbytes, List.take_append_drop]

/-! ### Whole captures -/

/-- A well-formed capture is read back as it was written. -/
lemma parseCapture_serializeCapture {h : CaptureHeader} {es : List Event}
    (hv : h.version = kCaptureFormatVersion) (hes : ∀ e ∈ es, e.Valid) :
    parseCapture (serializeCapture h es) = some (h, es) := by
  have hread := readEvents_flatMap hes []
  rw [List.append_nil, readEvents_nil, List.append_nil] at hread
  rw [parseCapture, serializeCapture, parseHeader_serializeHeader hv]
  simp only [List.drop_left' (length_serializeHeader h), hread]

/-- The input with the two reserved header bytes zeroed. -/
def clearReserved (inp : List UInt8) : List UInt8 :=
  inp.take 30 ++ [0, 0] ++ inp.drop 32

/-- TXCP version 1 is uniquely decodable: writing and then reading returns the header and the
events and stops at the end, and reading to the end and then writing returns the bytes, with the
reserved ones zeroed. -/
theorem txcp_uniquely_decodable :
    (∀ (h : CaptureHeader) (es : List Event), h.version = kCaptureFormatVersion →
      (∀ e ∈ es, e.Valid) →
        parseHeader (serializeCapture h es) = some h ∧
          readEvents ((serializeCapture h es).drop kCaptureHeaderSize) = (es, [])) ∧
    (∀ (inp : List UInt8) (h : CaptureHeader) (es : List Event), parseHeader inp = some h →
      readEvents (inp.drop kCaptureHeaderSize) = (es, []) →
        serializeCapture h es = clearReserved inp) := by
  refine ⟨fun h es hv hes => ⟨parseHeader_serializeHeader hv _, ?_⟩, fun inp h es hh hread => ?_⟩
  · have hread := readEvents_flatMap hes []
    rw [List.append_nil, readEvents_nil, List.append_nil] at hread
    rw [serializeCapture, List.drop_left' (length_serializeHeader h), hread]
  · have hbytes := (flatMap_readEvents (inp.drop kCaptureHeaderSize)).2
    rw [hread, List.append_nil] at hbytes
    rw [serializeCapture, (serializeHeader_of_parseHeader hh).2, hbytes]
    rfl

/-- One event in each direction. -/
theorem txcp_uniquely_decodable_exchange :
    let h : CaptureHeader := ⟨1, 0, Vector.replicate 16 0x50, 19200⟩
    let es : List Event := [⟨0, 5, [0x10]⟩, ⟨1, 7, [0x41, 0x42]⟩]
    parseHeader (serializeCapture h es) = some h ∧
      readEvents ((serializeCapture h es).drop kCaptureHeaderSize) = (es, []) := by
  intro h es
  apply txcp_uniquely_decodable.1 h es rfl
  intro e he
  rcases List.mem_pair.mp he with rfl | rfl
  · exact ⟨by decide, by decide⟩
  · exact ⟨by decide, by decide⟩

end TexecomBridge
