import Thumbnailer.Page.Source

/-!
# Synthetic documents

A document held in memory whose pages are gradients: pixel `(x, y)` of page `p`, rasterized
to `W × H` pixels, is `[(47 p) mod 256, ⌊255 x / W⌋, ⌊255 y / H⌋, 255]` (the fractions in
double precision, `W` and `H` taken as at least 1). A crop paints the same pixels as the
full raster does at the crop's offset; its corner and size are converted to pixels like page
sides and cut to the full raster.
-/

namespace Thumbnailer
namespace Page

/-- A synthetic document: one size per page. -/
structure Synthetic where
  pages : List Size

namespace Synthetic

/-- `n` US Letter pages. -/
def letter (n : Nat) : Synthetic := ⟨List.replicate n Size.letter⟩

/-- The colour of pixel `(x, y)` of page `p` in a full `w × h` raster. -/
def paint (p x y w h : Nat) : Raster.Rgba :=
  let fx := Float.ofNat x / Float.ofNat (max w 1)
  let fy := Float.ofNat y / Float.ofNat (max h 1)
  ⟨(p * 47 % 256).toUInt8, (fx * 255).toUInt8, (fy * 255).toUInt8, 255⟩

/-- The pixel window `(left, top, width, height)` of a crop inside a `w × h` raster. -/
def window (w h : Nat) (dx dy : Float) : Option Crop → Nat × Nat × Nat × Nat
  | none => (0, 0, w, h)
  | some r =>
    let left := toPixels (r.x * dx / pointsPerInch)
    let top := toPixels (r.y * dy / pointsPerInch)
    let cw := toPixels (r.width * dx / pointsPerInch)
    let ch := toPixels (r.height * dy / pointsPerInch)
    (min left w, min top h, min cw (w - left), min ch (h - top))

/-- Rasterizes page `p` (or a crop of it) at `dx × dy` DPI. -/
def rasterize (d : Synthetic) (p : Nat) (dx dy : Float) (crop : Option Crop) :
    Except String Raster.Bitmap :=
  match d.pages[p]? with
  | none => .error ("no page " ++ toString p)
  | some size =>
    let (w, h) := size.pixelsAt dx dy
    let (left, top, cw, ch) := window w h dx dy crop
    .ok (Raster.Bitmap.ofFn cw ch fun x y => paint p (left + x) (top + y) w h)

/-- The document as a page source. -/
def source (d : Synthetic) : Source where
  numPages := d.pages.length
  pageSize p := d.pages[p]?
  rasterize := d.rasterize

end Synthetic

end Page
end Thumbnailer
