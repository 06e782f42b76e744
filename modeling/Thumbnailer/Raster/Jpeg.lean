/-!
# JPEG headers

A JPEG page is indexed by its size alone; its pixels come from the lossy codec, which this
library does not reproduce. The size is in the first start-of-frame segment: the stream
starts with the start-of-image marker `FF D8`, and every segment after it is a marker `FF xx`
followed by a big-endian length that counts itself. Start-of-frame markers are `C0`–`CF`
except `C4`, `C8` and `CC`; their segment holds the sample precision, the height and the width.
-/

namespace Thumbnailer
namespace Raster

/-- Whether a marker starts a frame. -/
def isFrameMarker (m : Nat) : Bool := 0xC0 ≤ m && m ≤ 0xCF && m != 0xC4 && m != 0xC8 && m != 0xCC

/-- Walks the segments from an offset to the first frame header; each round passes at least
four bytes. -/
def findFrame (bs : ByteArray) : Nat → Nat → Option (Nat × Nat)
  | 0, _ => none
  | fuel + 1, at_ => do
    if (← bs[at_]?) != 0xFF then none
    let m := (← bs[at_ + 1]?).toNat
    if m = 0xFF then findFrame bs fuel (at_ + 1)
    else
      let len := (← bs[at_ + 2]?).toNat * 256 + (← bs[at_ + 3]?).toNat
      if isFrameMarker m then
        let h := (← bs[at_ + 5]?).toNat * 256 + (← bs[at_ + 6]?).toNat
        let w := (← bs[at_ + 7]?).toNat * 256 + (← bs[at_ + 8]?).toNat
        if w = 0 || h = 0 then none else pure (w, h)
      else if len < 2 then none
      else findFrame bs fuel (at_ + 2 + len)

/-- The width and height of a JPEG image, or `none` when the header is unreadable. -/
def jpegSize? (bs : ByteArray) : Option (Nat × Nat) :=
  if bs[0]? == some 0xFF && bs[1]? == some 0xD8 then findFrame bs bs.size 2 else none

end Raster
end Thumbnailer
