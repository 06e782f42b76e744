import Thumbnailer.Raster.Bitmap

/-!
# Separable resampling

A bitmap is resized in two passes, rows first and then columns, each output sample being a
weighted mean of the source samples under a kernel centred on it. Arithmetic is in single
precision throughout, as the image library that produced the recorded thumbnails does it, so
the resulting bytes agree to the last bit.

For an axis of `n` source samples scaled to `m`, let `r = n / m` and `s = max r 1`. Output
sample `o` is centred at `c = (o + ½) · r`; the source samples `i` with
`⌊c − support · s⌋ ≤ i < ⌈c + support · s⌉` (clamped to the axis, at least one) take part, with
weight `kernel((i − (c − ½)) / s)`, normalised to sum 1. The first pass keeps its sums as
floats; the second clamps each to 0–255 and rounds half away from zero.

* `nearest` has support 0 and the constant kernel 1: each output sample copies the source
  sample under its centre.
* `triangle` has support 1 and the tent kernel `max(0, 1 − |x|)` (bilinear when enlarging).

A source with a zero side gives transparent black at the new size; the same size gives the
bitmap back.
-/

namespace Thumbnailer
namespace Raster

/-- The resampling kernels in use. -/
inductive Filter where
  /-- The box of radius 0: nearest neighbour. -/
  | nearest
  /-- The tent of radius 1: bilinear. -/
  | triangle
  deriving DecidableEq, Repr

namespace Filter

/-- The kernel's radius, in source samples at scale 1. -/
def support : Filter → Float32
  | .nearest => 0
  | .triangle => 1

/-- The kernel's weight at distance `x`. -/
def kernel : Filter → Float32 → Float32
  | .nearest, _ => 1
  | .triangle, x => if x.abs < 1 then 1 - x.abs else 0

end Filter

/-- The source samples one output sample reads: the first index and the normalised weights. -/
structure Taps where
  first : Nat
  weights : Array Float32

/-- Clamps an integer to `lo ≤ x ≤ hi` (the lower bound wins when they cross). -/
def clampInt (x lo hi : Int) : Int := if x < lo then lo else if x > hi then hi else x

/-- The taps of output sample `o` when `n` source samples become `m`. -/
def taps (f : Filter) (n m o : Nat) : Taps :=
  let ratio := Float32.ofNat n / Float32.ofNat m
  let scale := if ratio < 1 then 1 else ratio
  let reach := f.support * scale
  let centre := (Float32.ofNat o + 0.5) * ratio
  let left := clampInt (centre - reach).floor.toInt64.toInt 0 (n - 1 : Int)
  let right := clampInt (centre + reach).ceil.toInt64.toInt (left + 1) n
  let origin := centre - 0.5
  let raw := (List.range (right - left).toNat).map fun k =>
    f.kernel ((Float32.ofNat (left.toNat + k) - origin) / scale)
  let total := raw.foldl (· + ·) 0
  ⟨left.toNat, (raw.map (· / total)).toArray⟩

/-- `Σ weights[k] · sample (first + k)`, summed in order from 0. -/
def Taps.apply (t : Taps) (sample : Nat → Float32) : Float32 :=
  (t.weights.foldl (fun (acc, k) w => (acc + sample (t.first + k) * w, k + 1)) ((0 : Float32), 0)).1

/-- A float sample as a byte: clamped to 0–255, rounded half away from zero. -/
def toByte (x : Float32) : UInt8 :=
  let c := if x < 0 then 0 else if x > 255 then 255 else x
  c.round.toUInt8

/-- The row pass: `w × h` bytes to `w × m` float samples (four per pixel, held exactly in
double precision). -/
def resampleRows (f : Filter) (src : ByteArray) (w h m : Nat) : FloatArray := Id.run do
  let mut out := FloatArray.emptyWithCapacity (w * m * 4)
  for y in [0:m] do
    let t := taps f h m y
    for x in [0:w] do
      for c in [0:4] do
        let v := t.apply fun i => (src.get! ((i * w + x) * 4 + c)).toFloat32
        out := out.push v.toFloat
  return out

/-- The column pass: `w × m` float samples to `k × m` bytes. -/
def resampleColumns (f : Filter) (src : FloatArray) (w m k : Nat) : ByteArray := Id.run do
  let ts := (List.range k).toArray.map (taps f w k)
  let mut out := ByteArray.emptyWithCapacity (k * m * 4)
  for y in [0:m] do
    for t in ts do
      for c in [0:4] do
        let v := t.apply fun i => (src.get! ((y * w + i) * 4 + c)).toFloat32
        out := out.push (toByte v)
  return out

/-- The bitmap resized to `k × m` with filter `f`. -/
def Bitmap.resize (b : Bitmap) (k m : Nat) (f : Filter) : Bitmap :=
  if b.width = 0 || b.height = 0 then Bitmap.blank k m
  else if b.width = k && b.height = m then b
  else match b.pixels with
    | .decoded => Bitmap.decodedOf k m
    | .exact px =>
      ⟨k, m, .exact (Thunk.mk fun _ => resampleColumns f (resampleRows f px.get b.width b.height m) b.width m k)⟩

/-- The part of a bitmap from `(x, y)`, `w × h` pixels, cut to what lies inside it. -/
def Bitmap.crop (b : Bitmap) (x y w h : Nat) : Bitmap :=
  let x := min x b.width
  let y := min y b.height
  let w := min w (b.width - x)
  let h := min h (b.height - y)
  match b.pixels with
  | .decoded => Bitmap.decodedOf w h
  | .exact px =>
    ⟨w, h, .exact (Thunk.mk fun _ => Id.run do
      let src := px.get
      let mut out := ByteArray.emptyWithCapacity (w * h * 4)
      for r in [0:h] do
        out := src.copySlice (((y + r) * b.width + x) * 4) out out.size (w * 4)
      return out)⟩

end Raster
end Thumbnailer
