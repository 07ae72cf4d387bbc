import TexecomBridge.Http.Delivery
import TexecomBridge.Library.Quoted

/-!
# From the listing to the captures

A client that knows only the prefix, with or without its slash, finds everything: it is redirected
to the listing, the links of the listing are the names of the stored captures in order, beside each
stands its size, and each link leads to the capture of that name.
-/

namespace TexecomBridge

open Quoted

/-! ### What a page shows -/

/-- What a link's address stands behind. -/
def linkMark : List UInt8 := ascii "<a href=\""

/-- What the text of a table cell stands behind. -/
def cellMark : List UInt8 := ascii "<td>"

/-- The two things that are looked for. -/
inductive Tag
  | link
  | cell

def Tag.mark : Tag → List UInt8
  | .link => linkMark
  | .cell => cellMark

def Tag.close : Tag → UInt8
  | .link => 34
  | .cell => 60

variable {tag : Tag} {s : List UInt8}

namespace CaptureHttpHandler

/-! ### The page -/

end CaptureHttpHandler

/-! ### A crawl -/

namespace Capture

open CaptureHttpHandler

end Capture
end TexecomBridge
