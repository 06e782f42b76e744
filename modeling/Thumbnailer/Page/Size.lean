import Thumbnailer.Numeric.FloatOrder

/-!
# Page geometry

Pages are measured in points, 72 to the inch; thumbnails and rasters in pixels. A page of
`w × h` points rasterized at `dx × dy` DPI has `round(w · dx / 72) × round(h · dy / 72)` pixels,
each side rounded half away from zero, floored at 0 and saturating at the largest 32-bit word
(NaN giving 0).
-/

namespace Thumbnailer
namespace Page

/-- Points per inch. -/
def pointsPerInch : Float := 72.0

/-- Page dimensions in points. -/
structure Size where
  width : Float
  height : Float

/-- US Letter, 612 × 792 points. -/
def Size.letter : Size := ⟨612, 792⟩

/-- Unless both sides are positive (a NaN side is not). -/
def Size.isEmpty (s : Size) : Bool := !(s.width > 0 && s.height > 0)

/-- `round(x)`, floored at 0, as an unsigned 32-bit word. -/
def toPixels (x : Float) : Nat := (maxNum x.round 0).toUInt32.toNat

/-- The pixel size of the page rasterized at `dx × dy` DPI. -/
def Size.pixelsAt (s : Size) (dx dy : Float) : Nat × Nat :=
  (toPixels (s.width * dx / pointsPerInch), toPixels (s.height * dy / pointsPerInch))

/-- A thumbnail box in pixels. -/
structure Target where
  width : Nat
  height : Nat
  deriving DecidableEq, Repr

/-- The default thumbnail box, 120 × 160. -/
def Target.default : Target := ⟨120, 160⟩

/-- Whether a side is zero. -/
def Target.isEmpty (t : Target) : Bool := t.width = 0 || t.height = 0

/-- A part of a page in points, from the top-left corner. -/
structure Crop where
  x : Float
  y : Float
  width : Float
  height : Float

end Page
end Thumbnailer
