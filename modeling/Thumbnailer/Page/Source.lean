import Thumbnailer.Page.Size
import Thumbnailer.Raster.Bitmap

/-!
# Page sources

The renderer never sees a document format. Anything that reports a page count, page sizes in
points and can rasterize a page (or a part of it) at a resolution will do: a `Source` is
that record. A failure to rasterize carries a message.
-/

namespace Thumbnailer
namespace Page

/-- A document as the renderer sees it. -/
structure Source where
  /-- The number of pages. -/
  numPages : Nat
  /-- The size of a page in points; `none` for a page the source does not know. -/
  pageSize : Nat → Option Size
  /-- The raster of page `p` at `dx × dy` DPI, or of a part of it. -/
  rasterize : (p : Nat) → (dx dy : Float) → Option Crop → Except String Raster.Bitmap

namespace Source

/-- The same document, except that every page rasterizes to a 0 × 0 bitmap. -/
def blanked (s : Source) : Source :=
  { s with rasterize := fun _ _ _ _ => .ok (Raster.Bitmap.blank 0 0) }

/-- The same document, except that every rasterization fails with `page N is corrupt`. -/
def corrupt (s : Source) : Source :=
  { s with rasterize := fun p _ _ _ => .error ("page " ++ toString p ++ " is corrupt") }

end Source

end Page
end Thumbnailer
