import TexecomBridge.Library.Circular
import TexecomBridge.Format.Basic
import TexecomBridge.Text

/-!
# The capture sink

The event ring and the in-RAM capture store: recording, flushing, the hex sidecar, and eviction of
the oldest captures when the byte budget is exceeded. This is the device build. Log lines are not
modelled; `size_t` counters count bytes that are held in memory, and are naturals.
-/

namespace TexecomBridge

def kDefaultCaptureMaxRamBytes : ℕ := 131072
def kCaptureRingEvents : ℕ := 64
def kMaxEventPayload : ℕ := 256

/-- When to record. -/
inductive Mode
  | none
  | bridgeOnly
  | monitorOnly
  | both
  deriving DecidableEq

/-- What the platform answers during one call into `Capture`: the successive `micros()`, then
`millis()`, `time()`, and the bytes that lie on the stack after the banner buffer. -/
structure Platform where
  micros : ℕ → UInt32
  millis : UInt32
  time : ℤ
  stack : ℕ → UInt8

/-- A platform on which nothing ever happens. -/
def Platform.quiet : Platform := ⟨fun _ => 0, 0, 0, fun _ => 0⟩

/-- A slot of the event ring. `bytes` is the whole 256-byte array, `len` of which are in use. -/
structure PendingEvent where
  direction : UInt8
  tsUs : UInt64
  len : UInt16
  bytes : List UInt8

abbrev EventRing := Circular PendingEvent kCaptureRingEvents

structure RamCapture where
  name : List UInt8
  bytes : List UInt8
  mtimeMs : UInt32
  isText : Bool
  deriving DecidableEq

/-- The in-RAM capture store. -/
structure Store where
  captures : List RamCapture
  totalBytesUsed : ℕ
  currentBinIdx : ℤ
  currentTxtIdx : ℤ
  deriving DecidableEq

/-- What has happened to the store: a pair was pushed, a flushed write went to the live pair, a
capture was evicted, or the budget has been enforced after an open or a write. -/
inductive StoreEvent
  | opened (bin txt : RamCapture)
  | wrote (bytes : List UInt8) (millis : UInt32)
  | evicted (victim : ℕ) (before : Store)
  | settled (after : Store)
  deriving DecidableEq

/-- `testSink` holds what a test sink, if set, was given. `history` is a history variable: the
code writes it and never reads it. -/
structure Capture where
  mode : Mode
  panelName : List UInt8
  maxTotalBytes : ℕ
  baudRate : UInt32
  testSink : Option (List UInt8)
  sessionActive : Bool
  sessionStartUs : UInt64
  fileSeq : UInt32
  drops : UInt32
  bytesWrittenTotal : UInt32
  warnThrottle : UInt32
  budgetWarnEmitted : Bool
  store : Store
  ring : EventRing
  history : List StoreEvent

/-! ### The store -/

namespace Store

def init : Store := ⟨[], 0, -1, -1⟩

/-- Append to the capture at `idx`; an index out of range is ignored. -/
def appendTo (ms : UInt32) (idx : ℤ) (bytes : List UInt8) (s : Store) : Store :=
  if idx < 0 ∨ (s.captures.length : ℤ) ≤ idx then s
  else if bytes = [] then s
  else
    { s with
      captures := s.captures.modify idx.toNat fun c =>
        { c with bytes := c.bytes ++ bytes, mtimeMs := ms }
      totalBytesUsed := s.totalBytesUsed + bytes.length }

/-- The oldest capture that is not live. -/
def victim (s : Store) : Option ℕ :=
  (List.range s.captures.length).find? fun i => (i : ℤ) ≠ s.currentBinIdx ∧ (i : ℤ) ≠ s.currentTxtIdx

/-- Erase a capture; the indices behind it shift down by one. -/
def evict (v : ℕ) (s : Store) : Store where
  captures := s.captures.eraseIdx v
  totalBytesUsed := s.totalBytesUsed - (s.captures[v]?.map (·.bytes.length)).getD 0
  currentBinIdx := if s.currentBinIdx > v then s.currentBinIdx - 1 else s.currentBinIdx
  currentTxtIdx := if s.currentTxtIdx > v then s.currentTxtIdx - 1 else s.currentTxtIdx

/-- The size of the capture at `idx`. -/
def sizeAt (s : Store) (idx : ℤ) : ℕ := (s.captures[idx.toNat]?.map (·.bytes.length)).getD 0

lemma victim_lt {s : Store} {v : ℕ} (h : s.victim = some v) : v < s.captures.length :=
  List.mem_range.mp (List.mem_of_find?_eq_some h)

end Store

/-! ### The hex sidecar -/

/-- `char line[96]` while a row is built: the bytes in it, the write position, and whether a byte
was ever written outside it. -/
structure LineBuffer where
  line : List UInt8
  pos : ℕ
  outside : Bool

def kLineSize : ℕ := 96

namespace LineBuffer

def init : LineBuffer := ⟨List.replicate kLineSize 0, 0, false⟩

/-- Store `bytes` at the write position, without moving it. -/
def poke (bytes : List UInt8) (l : LineBuffer) : LineBuffer :=
  if l.pos + bytes.length ≤ kLineSize then
    { l with line := l.line.take l.pos ++ bytes ++ l.line.drop (l.pos + bytes.length) }
  else { l with outside := true }

/-- `pos += snprintf(line + pos, sizeof(line) - pos, text)`. Past the end of the line the size
wraps around and bounds nothing. -/
def print (text : List UInt8) (l : LineBuffer) : LineBuffer :=
  let l' :=
    if l.pos = kLineSize then l
    else if l.pos < kLineSize then l.poke (snprintf (kLineSize - l.pos) text ++ [0])
    else l.poke (text ++ [0])
  { l' with pos := l.pos + text.length }

/-- `line[pos++] = c` -/
def put (c : UInt8) (l : LineBuffer) : LineBuffer :=
  { l.poke [c] with pos := l.pos + 1 }

/-- The bytes before the write position. -/
def written (l : LineBuffer) : List UInt8 := l.line.take l.pos

end LineBuffer

/-- The character shown for a byte. -/
def printable (c : UInt8) : UInt8 := if 0x20 ≤ c ∧ c < 0x7F then c else 46

/-- The sixteen hex columns, blank where the row has no byte. -/
def hexdumpColumns (row : List UInt8) (l : LineBuffer) : LineBuffer :=
  (List.range 16).foldl (fun l j =>
    if j < row.length then l.print (hex2 (row.getD j 0) ++ ascii " ") else l.print (ascii "   ")) l

/-- The characters of the ASCII column, as long as the guard lets them through. -/
def hexdumpAscii : List UInt8 → LineBuffer → LineBuffer
  | [], l => l
  | c :: cs, l => if l.pos < kLineSize - 4 then hexdumpAscii cs (l.put (printable c)) else l

/-- One row: address, sixteen hex columns, the ASCII column between bars. -/
def hexdumpLine (addr : UInt32) (row : List UInt8) : LineBuffer :=
  let l := LineBuffer.init.print (hex8 addr ++ ascii "  ")
  let l := hexdumpColumns row l
  let l := l.print (ascii " |")
  let l := hexdumpAscii row l
  if l.pos < kLineSize - 2 then (l.put 124).put 10 else l

/-- The loop over rows of 16 bytes, from file offset `off` on. -/
def writeHexdumpRows (ms : UInt32) (off : ℕ) (bytes : List UInt8) (s : Store) : Store :=
  if bytes = [] then s
  else
    writeHexdumpRows ms (off + 16) (bytes.drop 16) <|
      s.appendTo ms s.currentTxtIdx (hexdumpLine (UInt32.ofNat off) (bytes.take 16)).written
termination_by bytes.length
decreasing_by
  rename_i h
  have := List.length_pos_iff.mpr h
  simp only [List.length_drop]
  omega

def writeHexdump (ms : UInt32) (fileOffset : ℕ) (bytes : List UInt8) (s : Store) : Store :=
  if s.currentTxtIdx < 0 then s else writeHexdumpRows ms fileOffset bytes s

namespace Capture

/-! ### Configuration -/

def init : Capture where
  mode := .bridgeOnly
  panelName := ascii "Premier 24"
  maxTotalBytes := kDefaultCaptureMaxRamBytes
  baudRate := 19200
  testSink := none
  sessionActive := false
  sessionStartUs := 0
  fileSeq := 0
  drops := 0
  bytesWrittenTotal := 0
  warnThrottle := 0
  budgetWarnEmitted := false
  store := Store.init
  ring := Circular.empty ⟨0, 0, 0, List.replicate kMaxEventPayload 0⟩ (by decide)
  history := []

def setMode (m : Mode) (c : Capture) : Capture := { c with mode := m }

def setPanelName (n : List UInt8) (c : Capture) : Capture := { c with panelName := n }

def setMaxTotalBytes (n : ℕ) (c : Capture) : Capture :=
  { c with maxTotalBytes := if n = 0 then kDefaultCaptureMaxRamBytes else n }

def setBaudRate (n : UInt32) (c : Capture) : Capture := { c with baudRate := n }

/-- Would a `record()` be persisted? -/
def wouldRecord (c : Capture) : Bool :=
  if c.mode = .none then false
  else if c.mode = .bridgeOnly ∧ !c.sessionActive then false
  else true

/-! ### Eviction -/

/-- Evict the oldest captures until the budget is met or only the live pair is left. -/
def enforceBudget (c : Capture) : Capture :=
  if c.store.totalBytesUsed > c.maxTotalBytes then
    match _h : c.store.victim with
    | none => { c with budgetWarnEmitted := true }
    | some v => enforceBudget
        { c with store := c.store.evict v, history := c.history ++ [.evicted v c.store] }
  else c
termination_by c.store.captures.length
decreasing_by
  have := Store.victim_lt _h
  simp only [Store.evict, List.length_eraseIdx_of_lt this]
  omega

/-! ### Opening and closing -/

def closeCurrentCapture (c : Capture) : Capture :=
  if c.store.currentBinIdx < 0 then c
  else { c with store := { c.store with currentBinIdx := -1, currentTxtIdx := -1 } }

/-- `time()` if it is past November 2023, else 0 for "not synced". -/
def Platform.nowUnix (p : Platform) : UInt32 :=
  if p.time > 1700000000 then UInt32.ofNat p.time.toNat else 0

/-- `wintex-{unix_ts}-{seq}` or `wintex-boot{boot_ms}-{seq}`, with the extension. -/
def captureName (nowUnix nowMs seq : UInt32) (ext : List UInt8) : List UInt8 :=
  snprintf 64
    (if nowUnix > 0 then ascii "wintex-" ++ decimal nowUnix ++ ascii "-" ++ decimal3 seq ++ ext
    else ascii "wintex-boot" ++ decimal nowMs ++ ascii "-" ++ decimal3 seq ++ ext)

/-- The text of the `.txt` banner, before it is cut to its buffer. -/
def bannerText (panelName : List UInt8) (baudRate nowUnix : UInt32) : List UInt8 :=
  ascii "# TXCP capture v" ++ decimal kCaptureFormatVersion.toUInt32 ++ ascii " panel=" ++
    cString panelName ++ ascii " baud=" ++ decimal baudRate ++ ascii " start_unix=" ++
    decimal nowUnix ++ ascii "\n"

/-- `banner_n`: the length that `snprintf` asked for. One that an `int` cannot hold is reported as
an error, and becomes 0. -/
def bannerN (text : List UInt8) : ℕ := if text.length < 2 ^ 31 then text.length else 0

/-- The `banner_n` bytes copied from the 128-byte buffer. Past the buffer they come from the
stack. -/
def bannerBytes (p : Platform) (text : List UInt8) : List UInt8 :=
  (snprintf 128 text ++ [0] ++ (List.range (text.length - 128)).map p.stack).take (bannerN text)

def captureHeader (panelName : List UInt8) (baudRate nowUnix : UInt32) : CaptureHeader :=
  { (CaptureHeader.mk kCaptureFormatVersion nowUnix (Vector.replicate _ 0) 19200).setPanelName
      panelName with baudRate := baudRate }

/-- The pair of a new session. -/
def newBin (p : Platform) (c : Capture) : RamCapture :=
  let nowUnix := Platform.nowUnix p
  { name := captureName nowUnix p.millis (c.fileSeq + 1) (ascii ".bin")
    bytes := serializeHeader (captureHeader c.panelName c.baudRate nowUnix)
    mtimeMs := p.millis
    isText := false }

@[inherit_doc newBin]
def newTxt (p : Platform) (c : Capture) : RamCapture :=
  let nowUnix := Platform.nowUnix p
  { name := captureName nowUnix p.millis (c.fileSeq + 1) (ascii ".txt")
    bytes := bannerBytes p (bannerText c.panelName c.baudRate nowUnix)
    mtimeMs := p.millis
    isText := true }

/-- Push the `.bin` first, then the `.txt`. -/
def pushNewPair (p : Platform) (c : Capture) : Capture :=
  let withBin := c.store.captures ++ [newBin p c]
  let withTxt := withBin ++ [newTxt p c]
  { c with
    fileSeq := c.fileSeq + 1
    store :=
      { captures := withTxt
        totalBytesUsed := c.store.totalBytesUsed + kCaptureHeaderSize +
          bannerN (bannerText c.panelName c.baudRate (Platform.nowUnix p))
        currentBinIdx := (withBin.length : ℤ) - 1
        currentTxtIdx := (withTxt.length : ℤ) - 1 }
    history := c.history ++ [.opened (newBin p c) (newTxt p c)] }

def openNewCapture (p : Platform) (c : Capture) : Capture :=
  let c := (c.closeCurrentCapture.pushNewPair p).enforceBudget
  { c with budgetWarnEmitted := false, history := c.history ++ [.settled c.store] }

/-! ### Writing -/

/-- Append to the live `.bin` and its sidecar. The sidecar shows offsets in the `.bin`, so the
size is taken before the append. -/
def appendToLive (p : Platform) (bytes : List UInt8) (c : Capture) : Capture :=
  let binOffset := c.store.sizeAt c.store.currentBinIdx
  let store := c.store.appendTo p.millis c.store.currentBinIdx bytes
  { c with
    store := writeHexdump p.millis binOffset bytes store
    bytesWrittenTotal := c.bytesWrittenTotal + UInt32.ofNat bytes.length
    history := c.history ++ [.wrote bytes p.millis] }

def writeBytes (p : Platform) (bytes : List UInt8) (c : Capture) : Capture :=
  match c.testSink with
  | some out =>
    { c with
      testSink := some (out ++ bytes)
      bytesWrittenTotal := c.bytesWrittenTotal + UInt32.ofNat bytes.length }
  | none =>
    if c.store.currentBinIdx < 0 then { c with drops := c.drops + 1 }
    else
      let c := (c.appendToLive p bytes).enforceBudget
      { c with history := c.history ++ [.settled c.store] }

/-! ### The event ring -/

/-- Overwrite the front of an array; what lies behind stays. -/
def memcpy (dst src : List UInt8) : List UInt8 := src ++ dst.drop src.length

/-- The splitting loop: chunk `i` goes to the slot at the head. `false` when the ring was full
before the last chunk. -/
def enqueueChunks (p : Platform) (startUs : UInt64) (direction : UInt8) (bytes : List UInt8) (i : ℕ)
    (ring : EventRing) : Bool × EventRing :=
  if bytes = [] then (true, ring)
  else if ring.size = kCaptureRingEvents then (false, ring)
  else
    let chunk := bytes.take kMaxEventPayload
    enqueueChunks p startUs direction (bytes.drop kMaxEventPayload) (i + 1) <| ring.put
      { direction := direction
        tsUs := (p.micros i).toUInt64 - startUs
        len := UInt16.ofNat chunk.length
        bytes := memcpy (ring.slot ring.head).bytes chunk }
termination_by bytes.length
decreasing_by
  have := List.length_pos_iff.mpr ‹¬bytes = []›
  simp only [List.length_drop, kMaxEventPayload]
  omega

def enqueueEvent (p : Platform) (direction : UInt8) (bytes : List UInt8) (c : Capture) : Capture :=
  match enqueueChunks p c.sessionStartUs direction bytes 0 c.ring with
  | (true, ring) => { c with ring := ring }
  | (false, ring) =>
    { c with ring := ring, drops := c.drops + 1, warnThrottle := c.warnThrottle + 1 }

/-- The serialised form of a pending event, made from the `len` bytes in use. -/
def PendingEvent.serialize (e : PendingEvent) : List UInt8 :=
  serializeEvent e.direction e.tsUs (e.bytes.take e.len.toNat)

/-- One round of the flush loop: write the event at the tail, then pop it. -/
def flushOne (p : Platform) (c : Capture) : Capture :=
  match c.ring.front? with
  | none => c
  | some e =>
    let out := PendingEvent.serialize e
    let c := if out.length > 0 then c.writeBytes p out else c
    { c with ring := c.ring.dropFront }

/-- The loop runs once for each pending event: a write leaves the ring alone. -/
def flushRing (p : Platform) (c : Capture) : Capture := (flushOne p)^[c.ring.size] c

/-! ### Lifecycle -/

def record (p : Platform) (direction : UInt8) (bytes : List UInt8) (c : Capture) :
    Bool × Capture :=
  if c.mode = .none then (false, c)
  else if direction > 1 then (false, c)
  else if bytes = [] then (false, c)
  else if c.mode = .bridgeOnly ∧ !c.sessionActive then (false, c)
  else if c.mode = .monitorOnly ∧ c.sessionActive then (false, c)
  else (true, c.enqueueEvent p direction bytes)

def loop (p : Platform) (c : Capture) : Capture :=
  if c.ring.size = 0 then c else c.flushRing p

def onSessionStart (p : Platform) (c : Capture) : Capture :=
  let c := { c with sessionActive := true, sessionStartUs := (p.micros 0).toUInt64 }
  if c.mode = .none then c
  else if c.mode = .monitorOnly then c
  else c.openNewCapture p

def onSessionEnd (p : Platform) (c : Capture) : Capture :=
  { ((c.flushRing p).closeCurrentCapture) with sessionActive := false }

/-! ### Runs -/

/-- What can be set before `setup()`. -/
structure Config where
  mode : Mode
  panelName : List UInt8
  maxTotalBytes : ℕ
  baudRate : UInt32

/-- A capture sink as configured, before anything has happened. -/
def configured (cfg : Config) : Capture :=
  (((init.setMode cfg.mode).setPanelName cfg.panelName).setMaxTotalBytes cfg.maxTotalBytes).setBaudRate
    cfg.baudRate

/-- The calls the owner of a capture sink makes. -/
inductive Op
  | sessionStart (p : Platform)
  | sessionEnd (p : Platform)
  | record (p : Platform) (direction : UInt8) (bytes : List UInt8)
  | loop (p : Platform)

def step (c : Capture) : Op → Capture
  | .sessionStart p => c.onSessionStart p
  | .sessionEnd p => c.onSessionEnd p
  | .record p direction bytes => (c.record p direction bytes).2
  | .loop p => c.loop p

def run (cfg : Config) (ops : List Op) : Capture := ops.foldl step (configured cfg)

end Capture
end TexecomBridge
