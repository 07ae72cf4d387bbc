import TexecomBridge.Library.LittleEndian

/-!
# The TXCP binary format

The serialisers and parsers of the capture format, version 1: a 32-byte header followed by event
records. A pointer into a buffer is the list of bytes from there on; an output buffer is the list
of bytes written to it, in the order of their offsets.
-/

namespace TexecomBridge

def kCaptureHeaderSize : ℕ := 32
def kCaptureEventFixedSize : ℕ := 11
def kCaptureFormatVersion : UInt16 := 1
/-- "TXCP" -/
def kCaptureMagic : List UInt8 := [0x54, 0x58, 0x43, 0x50]
def kCapturePanelNameLen : ℕ := 16

/-! ### Little-endian fields -/

def writeU16Le (v : UInt16) : List UInt8 :=
  [(v &&& 0xFF).toUInt8, ((v >>> 8) &&& 0xFF).toUInt8]

def writeU32Le (v : UInt32) : List UInt8 :=
  [(v &&& 0xFF).toUInt8, ((v >>> 8) &&& 0xFF).toUInt8, ((v >>> 16) &&& 0xFF).toUInt8,
    ((v >>> 24) &&& 0xFF).toUInt8]

def writeU64Le (v : UInt64) : List UInt8 :=
  (List.range 8).map fun i => ((v >>> UInt64.ofNat (8 * i)) &&& 0xFF).toUInt8

def readU16Le (p : List UInt8) : UInt16 :=
  (p.getD 0 0).toUInt16 ||| (p.getD 1 0).toUInt16 <<< 8

def readU32Le (p : List UInt8) : UInt32 :=
  (p.getD 0 0).toUInt32 ||| (p.getD 1 0).toUInt32 <<< 8 ||| (p.getD 2 0).toUInt32 <<< 16 |||
    (p.getD 3 0).toUInt32 <<< 24

def readU64Le (p : List UInt8) : UInt64 :=
  (List.range 8).foldl (fun v i => v ||| (p.getD i 0).toUInt64 <<< UInt64.ofNat (8 * i)) 0

/-! ### Header -/

structure CaptureHeader where
  version : UInt16
  startUnixS : UInt32
  panelName : Vector UInt8 kCapturePanelNameLen
  baudRate : UInt32
  deriving DecidableEq

/-- Null-pad `n` to the 16 bytes of the field, or cut it there. -/
def CaptureHeader.setPanelName (h : CaptureHeader) (n : List UInt8) : CaptureHeader :=
  { h with panelName := Vector.ofFn fun i => n.getD i 0 }

def serializeHeader (h : CaptureHeader) : List UInt8 :=
  kCaptureMagic ++ writeU16Le h.version ++ writeU32Le h.startUnixS ++ h.panelName.toList ++
    writeU32Le h.baudRate ++ [0, 0]

/-- The caller guarantees 32 readable bytes; a shorter buffer has no header in it. -/
def parseHeader (inp : List UInt8) : Option CaptureHeader :=
  if inp.length < kCaptureHeaderSize then none
  else if inp.take 4 ≠ kCaptureMagic then none
  else if readU16Le (inp.drop 4) ≠ kCaptureFormatVersion then none
  else some
    { version := readU16Le (inp.drop 4)
      startUnixS := readU32Le (inp.drop 6)
      panelName := Vector.ofFn fun i => inp.getD (10 + i) 0
      baudRate := readU32Le (inp.drop 26) }

/-! ### Events -/

structure Event where
  direction : UInt8
  timestampUs : UInt64
  payload : List UInt8
  deriving DecidableEq

/-- What the format can carry: direction 0 or 1 and a 16-bit payload length. -/
structure Event.Valid (e : Event) : Prop where
  direction_le : e.direction ≤ 1
  length_le : e.payload.length ≤ 0xFFFF

/-- The bytes written; none when the direction or the length is out of range. -/
def serializeEvent (direction : UInt8) (timestampUs : UInt64) (bytes : List UInt8) : List UInt8 :=
  if direction > 1 then []
  else if bytes.length > 0xFFFF then []
  else [direction] ++ writeU64Le timestampUs ++ writeU16Le (UInt16.ofNat bytes.length) ++ bytes

/-- The event at the start of `inp` and the number of bytes it takes, or `none` for the result 0. -/
def parseEvent (inp : List UInt8) : Option (Event × ℕ) :=
  if inp.length < kCaptureEventFixedSize then none
  else
    let direction := inp.getD 0 0
    if direction > 1 then none
    else
      let timestampUs := readU64Le (inp.drop 1)
      let length := readU16Le (inp.drop 9)
      if inp.length < kCaptureEventFixedSize + length.toNat then none
      else some (⟨direction, timestampUs, (inp.drop kCaptureEventFixedSize).take length.toNat⟩,
        kCaptureEventFixedSize + length.toNat)

/-- What a parse that succeeds has checked and returns. -/
lemma parseEvent_eq_some {inp : List UInt8} {e : Event} {n : ℕ}
    (h : parseEvent inp = some (e, n)) :
    inp.getD 0 0 ≤ 1 ∧ n = kCaptureEventFixedSize + (readU16Le (inp.drop 9)).toNat ∧
      n ≤ inp.length ∧ e = ⟨inp.getD 0 0, readU64Le (inp.drop 1),
        (inp.drop kCaptureEventFixedSize).take (readU16Le (inp.drop 9)).toNat⟩ := by
  simp only [parseEvent] at h
  split_ifs at h with hshort hdir hlen
  simp only [Option.some.injEq, Prod.mk.injEq] at h
  obtain ⟨rfl, rfl⟩ := h
  exact ⟨UInt8.not_lt.mp hdir, rfl, Nat.le_of_not_lt hlen, rfl⟩

/-- A parse consumes at least the fixed fields and at most what is there. -/
lemma parseEvent_consumed {inp : List UInt8} {e : Event} {n : ℕ}
    (h : parseEvent inp = some (e, n)) : kCaptureEventFixedSize ≤ n ∧ n ≤ inp.length := by
  obtain ⟨-, rfl, hle, -⟩ := parseEvent_eq_some h
  exact ⟨Nat.le_add_right _ _, hle⟩

/-- The reading loop: parse events until `parseEvent` fails, and return them with what is left. -/
def readEvents (inp : List UInt8) : List Event × List UInt8 :=
  match _h : parseEvent inp with
  | none => ([], inp)
  | some (e, n) =>
    let r := readEvents (inp.drop n)
    (e :: r.1, r.2)
termination_by inp.length
decreasing_by
  obtain ⟨hlow, hhigh⟩ := parseEvent_consumed _h
  simp only [kCaptureEventFixedSize] at hlow
  simp only [List.length_drop]
  omega

def Event.serialize (e : Event) : List UInt8 :=
  serializeEvent e.direction e.timestampUs e.payload

/-- Header and events as the capture holds them. -/
def serializeCapture (h : CaptureHeader) (es : List Event) : List UInt8 :=
  serializeHeader h ++ es.flatMap Event.serialize

/-- Read a whole capture: `none` unless the header parses and the events end where the bytes do. -/
def parseCapture (inp : List UInt8) : Option (CaptureHeader × List Event) :=
  match parseHeader inp with
  | none => none
  | some h =>
    match readEvents (inp.drop kCaptureHeaderSize) with
    | (es, []) => some (h, es)
    | (_, _ :: _) => none

end TexecomBridge
