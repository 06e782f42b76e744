/-!
# RGBA bitmaps and their checksum

A bitmap is a width, a height and its pixels, four bytes each (red, green, blue, alpha), row
after row. Pixels are computed only when someone looks at them (`Thunk`): most of the
pipeline needs the size of a thumbnail and never its contents.

Pixels that came back from the lossy image codec are not reproduced by this library; such a
bitmap says so (`Pixels.decoded`) and has no checksum. A decoded bitmap is opaque: the codec
stores no alpha channel and restores it as 255.

The checksum is 64-bit FNV-1a over the bytes, written as sixteen lowercase hexadecimal digits;
an empty bitmap has the offset basis `cbf29ce484222325`.
-/

namespace Thumbnailer
namespace Raster

/-- One pixel: red, green, blue, alpha. -/
structure Rgba where
  r : UInt8
  g : UInt8
  b : UInt8
  a : UInt8
  deriving DecidableEq, Repr

/-- Where a bitmap's pixels come from. -/
inductive Pixels where
  /-- Computed here, row-major, four bytes a pixel. -/
  | exact (bytes : Thunk ByteArray)
  /-- Restored by the lossy codec; only the size is known, and alpha is 255 throughout. -/
  | decoded

/-- An RGBA raster. -/
structure Bitmap where
  width : Nat
  height : Nat
  pixels : Pixels

namespace Bitmap

/-- The bytes a bitmap of this size occupies. -/
def byteSize (b : Bitmap) : Nat := b.width * b.height * 4

/-- `(width, height)`. -/
def dims (b : Bitmap) : Nat × Nat := (b.width, b.height)

/-- Whether a side is zero. -/
def isEmpty (b : Bitmap) : Bool := b.width = 0 || b.height = 0

/-- Row-major bytes of `f x y`, for `y < h` and `x < w`. -/
def render (w h : Nat) (f : Nat → Nat → Rgba) : ByteArray :=
  (List.range h).foldl (fun acc y =>
    (List.range w).foldl (fun acc x =>
      let p := f x y
      ((acc.push p.r).push p.g |>.push p.b).push p.a) acc) (ByteArray.emptyWithCapacity (w * h * 4))

/-- A bitmap whose pixel `(x, y)` is `f x y`. -/
def ofFn (w h : Nat) (f : Nat → Nat → Rgba) : Bitmap :=
  ⟨w, h, .exact (Thunk.mk fun _ => render w h f)⟩

/-- A bitmap of one colour. -/
def filled (w h : Nat) (p : Rgba) : Bitmap := ofFn w h fun _ _ => p

/-- A bitmap of transparent black, as new rasters start. -/
def blank (w h : Nat) : Bitmap := filled w h ⟨0, 0, 0, 0⟩

/-- A bitmap restored by the codec at the given size. -/
def decodedOf (w h : Nat) : Bitmap := ⟨w, h, .decoded⟩

/-- The bytes, when this library computed them. -/
def bytes? (b : Bitmap) : Option ByteArray :=
  match b.pixels with
  | .exact t => some t.get
  | .decoded => none

/-- Whether every alpha byte is 255. -/
def isOpaque (b : Bitmap) : Bool :=
  match b.bytes? with
  | none => true
  | some bs => (List.range (b.width * b.height)).all fun i => bs[4 * i + 3]? == some 255

end Bitmap

/-- 64-bit FNV-1a of a byte string. -/
def fnv1a (bs : ByteArray) : UInt64 :=
  bs.foldl (fun h byte => (h ^^^ byte.toUInt64) * 0x100000001b3) 0xcbf29ce484222325

/-- Sixteen lowercase hexadecimal digits. -/
def hex16 (v : UInt64) : String :=
  let ds := Nat.toDigits 16 v.toNat
  String.ofList (List.replicate (16 - ds.length) '0' ++ ds)

/-- The checksum of a bitmap's bytes, when this library computed them. -/
def Bitmap.checksum? (b : Bitmap) : Option String := b.bytes?.map fun bs => hex16 (fnv1a bs)

end Raster
end Thumbnailer
