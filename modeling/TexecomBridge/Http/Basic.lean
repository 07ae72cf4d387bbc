import TexecomBridge.Capture.Names

/-!
# The capture route

The HTTP handler that lists the capture store and serves its captures: the filename validator, the
accessors it reads the store through, and the responses it makes. A URL is the decoded path.
-/

namespace TexecomBridge

/-! ### Filenames -/

/-- `std::tolower` in the C locale. -/
def toLower (c : UInt8) : UInt8 := if 65 ≤ c ∧ c ≤ 90 then c + 32 else c

/-- No control character, path separator or drive specifier. -/
def isSafeChar (c : UInt8) : Bool :=
  if c < 0x20 ∨ c = 0x7F then false
  else if c = 47 ∨ c = 92 then false
  else if c = 58 then false
  else true

def isSafeCaptureFilename (name : List UInt8) : Bool :=
  if name = [] then false
  else if name.length > 96 then false
  else if name.head? = some 46 then false
  else if !name.all isSafeChar then false
  else if name.length < 5 then false
  else
    let ext := (name.drop (name.length - 4)).map toLower
    if ext ≠ ascii ".bin" ∧ ext ≠ ascii ".txt" then false else true

/-! ### Snapshot accessors -/

/-- The metadata of a stored capture. -/
structure RamCaptureSnapshot where
  name : List UInt8
  size : ℕ
  mtimeMs : UInt32
  deriving DecidableEq

def RamCapture.snapshot (c : RamCapture) : RamCaptureSnapshot := ⟨c.name, c.bytes.length, c.mtimeMs⟩

namespace Capture

def listCaptures (c : Capture) : List RamCaptureSnapshot := c.store.captures.map RamCapture.snapshot

/-- The bytes of the first capture of this name. -/
def getCaptureBytes (c : Capture) (name : List UInt8) : Option (List UInt8) :=
  (c.store.captures.find? (·.name = name)).map (·.bytes)

end Capture

/-! ### Requests and responses -/

inductive HttpMethod
  | get
  | other
  deriving DecidableEq

structure Request where
  method : HttpMethod
  url : List UInt8

/-- A redirect, a response sent in one piece, or one that is streamed: `chunks` is what the calls to
`httpd_resp_send_chunk()` are given, in order. -/
inductive Response
  | redirect (location : List UInt8)
  | send (code : ℕ) (contentType body : List UInt8)
  | stream (status contentType contentLength contentDisposition : List UInt8)
      (chunks : List (List UInt8))
  deriving DecidableEq

/-- What the platform answers while a request is handled: `millis()`, and whether the `n`-th call to
`httpd_resp_send_chunk()` succeeds. -/
structure HttpPlatform where
  millis : UInt32
  sent : ℕ → Bool

def kStreamChunkBytes : ℕ := 1024

/-- Only the four characters that matter inside an HTML page. -/
def htmlEscape (inp : List UInt8) : List UInt8 :=
  inp.flatMap fun c =>
    if c = 38 then ascii "&amp;"
    else if c = 60 then ascii "&lt;"
    else if c = 62 then ascii "&gt;"
    else if c = 34 then ascii "&quot;"
    else [c]

structure CaptureHttpHandler where
  capture : Capture
  pathPrefix : List UInt8

namespace CaptureHttpHandler

/-! ### The listing -/

/-- How long ago the capture was written to, by the clock of the device. -/
def modifiedText (nowMs : UInt32) (e : RamCaptureSnapshot) : List UInt8 :=
  if e.mtimeMs ≠ 0 ∧ nowMs ≥ e.mtimeMs then
    snprintf 32 (decimal ((nowMs - e.mtimeMs) / 1000) ++ ascii "s ago")
  else ascii "&mdash;"

def listingRow (nowMs : UInt32) (e : RamCaptureSnapshot) : List UInt8 :=
  ascii "<tr><td><a href=\"" ++ htmlEscape e.name ++ ascii "\">" ++ htmlEscape e.name ++
    ascii "</a></td><td>" ++ toStringSize e.size ++ ascii "</td><td>" ++ modifiedText nowMs e ++
    ascii "</td></tr>"

/-- Everything up to the table. -/
def listingHead (c : Capture) : List UInt8 :=
  ascii "<!doctype html>\n<html><head><meta charset=\"utf-8\">" ++
    ascii "<title>Texecom captures</title>" ++
    ascii "<style>body\x7bfont-family:sans-serif;margin:2em;\x7d" ++
    ascii "table\x7bborder-collapse:collapse;\x7d" ++
    ascii "th,td\x7bpadding:.3em .8em;text-align:left;border-bottom:1px solid #ccc;\x7d" ++
    ascii "th\x7bbackground:#f4f4f4;\x7d</style></head><body>" ++
    ascii "<h1>Texecom captures</h1>" ++
    snprintf 128 (ascii "<p>Storage: in-RAM (" ++ decimal (UInt32.ofNat c.store.totalBytesUsed) ++
      ascii " / " ++ decimal (UInt32.ofNat c.maxTotalBytes) ++ ascii " bytes used)</p>")

/-- The table of the captures, or a note that there are none. -/
def listingTable (nowMs : UInt32) (entries : List RamCaptureSnapshot) : List UInt8 :=
  if entries = [] then ascii "<p><em>No capture files yet.</em></p>"
  else
    ascii "<table><tr><th>File</th><th>Size (bytes)</th><th>Modified</th></tr>" ++
      entries.flatMap (listingRow nowMs) ++ ascii "</table>"

/-- The entries in the order of their names. -/
def sortedEntries (c : Capture) : List RamCaptureSnapshot :=
  c.listCaptures.mergeSort fun a b => a.name ≤ b.name

def sendListing (h : CaptureHttpHandler) (p : HttpPlatform) : Response :=
  let body := listingHead h.capture ++ listingTable p.millis (sortedEntries h.capture) ++
    ascii "</body></html>"
  .send 200 (ascii "text/html; charset=utf-8") (cString body)

/-! ### A download -/

/-- The calls from the `i`-th on: chunk after chunk up to the first that fails, and in any case the
empty one that ends the response. -/
def sendChunks (p : HttpPlatform) (i : ℕ) (src : List UInt8) : List (List UInt8) :=
  if src = [] then [[]]
  else if p.sent i then
    src.take kStreamChunkBytes :: sendChunks p (i + 1) (src.drop kStreamChunkBytes)
  else [src.take kStreamChunkBytes, []]
termination_by src.length
decreasing_by
  have := List.length_pos_iff.mpr ‹¬src = []›
  simp only [List.length_drop, kStreamChunkBytes]
  omega

def notFound : Response := .send 404 (ascii "text/plain") (ascii "Not Found")

/-- The content type is chosen by the last four characters, case-sensitively. -/
def isBin (name : List UInt8) : Bool :=
  name.length ≥ 4 ∧ cString (name.drop (name.length - 4)) = ascii ".bin"

def contentType (name : List UInt8) : List UInt8 :=
  if isBin name then ascii "application/octet-stream" else ascii "text/plain; charset=utf-8"

def contentDisposition (name : List UInt8) : List UInt8 :=
  cString ((if isBin name then ascii "attachment; filename=\"" else ascii "inline; filename=\"") ++
    name ++ ascii "\"")

def sendFile (h : CaptureHttpHandler) (p : HttpPlatform) (name : List UInt8) : Response :=
  match h.capture.getCaptureBytes name with
  | none => notFound
  | some bytes =>
    .stream (ascii "200 OK") (contentType name)
      (snprintf 24 (decimal (UInt32.ofNat bytes.length))) (contentDisposition name)
      (sendChunks p 0 bytes)

/-! ### Dispatch -/

def canHandle (h : CaptureHttpHandler) (request : Request) : Bool :=
  if request.method ≠ .get then false
  else if request.url = h.pathPrefix then true
  else if request.url.length < h.pathPrefix.length + 1 then false
  else if request.url.take h.pathPrefix.length ≠ h.pathPrefix then false
  else request.url.getD h.pathPrefix.length 0 = 47

/-- `none` when `substr` throws, which it does on a URL shorter than the prefix. -/
def handleRequest (h : CaptureHttpHandler) (p : HttpPlatform) (request : Request) :
    Option Response :=
  let url := request.url
  if url = h.pathPrefix then some (.redirect (h.pathPrefix ++ ascii "/"))
  else if url.length < h.pathPrefix.length + 1 then none
  else
    let tail := url.drop (h.pathPrefix.length + 1)
    if tail = [] then some (h.sendListing p)
    else if !isSafeCaptureFilename tail then some notFound
    else some (h.sendFile p tail)

end CaptureHttpHandler

/-- The prefix as the handler keeps it, with one trailing slash stripped. -/
def canonicalPrefix (urlPrefix : List UInt8) : List UInt8 :=
  let pathPrefix := if urlPrefix = [] then ascii "/captures" else urlPrefix
  if pathPrefix.length > 1 ∧ pathPrefix.getLast? = some 47 then pathPrefix.dropLast else pathPrefix

/-- The handler that `setup()` registers. -/
def registerCaptureHttpHandler (capture : Capture) : CaptureHttpHandler :=
  ⟨capture, canonicalPrefix (ascii "/captures")⟩

end TexecomBridge
