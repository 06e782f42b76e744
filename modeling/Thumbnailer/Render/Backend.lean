import Thumbnailer.Render.Dpi
import Thumbnailer.Render.Error
import Thumbnailer.Render.Preference
import Thumbnailer.Page.Source
import Thumbnailer.Raster.Resample
import Thumbnailer.Cache.Compressed
import Thumbnailer.Config.Cache

/-!
# The render backend

One thumbnail per request:

1. the target must not be empty, and the page must exist;
2. the DPI comes from the page and target box (`DpiCalculator.thumbnailDpi`);
3. with compression on, a cached variant is served decoded;
4. the page is rasterized on the GPU when the request wants it and one is attached, enabled
   and available, and on the CPU through the page source otherwise or when the GPU fails;
5. an empty raster is an error; otherwise it is scaled into the box, keeping its aspect
   ratio (nearest neighbour or bilinear, `ScalingMode.choose`);
6. with compression on, the thumbnail is cached; a refusal is not an error.

Full pages for viewing follow a `ViewerProfile`, always on the CPU and never cached.

The backend's buffer pool is the one its cache stages the codec's buffers in, at the instant
the render is made, which the caller gives. The backend is built with its image operations
(`Imaging`): the resampler that scales a raster into the box and the codec's encoder that
caches thumbnails.
-/

namespace Thumbnailer
namespace Render

open Raster Page Cache

/-- A hardware rasterizer; any failure sends the request to the CPU path. -/
structure Gpu where
  available : Bool
  rasterize : Source → (page : Nat) → (dpi : Float) → Except RenderError Bitmap

/-- A rasterizer that paints every page solid `[1, 2, 3, 255]` at its size for the DPI, or
fails with `device lost`. -/
def Gpu.solid (available fails : Bool) : Gpu where
  available := available
  rasterize s p dpi :=
    if fails then .error (.gpu "device lost")
    else
      let (w, h) := ((s.pageSize p).map (·.pixelsAt dpi dpi)).getD (0, 0)
      .ok (Bitmap.filled w h ⟨1, 2, 3, 255⟩)

/-- One page to turn into a thumbnail. -/
structure Request where
  page : Nat
  target : Target
  quality : Float := 1.0
  preference : Preference := .hybrid

/-- The image operations a backend is built with: how a raster is resampled to a size, and
the codec's encoder, which gives the compressed size of a bitmap at a quality or nothing when
it refuses the bitmap. -/
structure Imaging where
  resize : Bitmap → Nat → Nat → Filter → Bitmap
  encode : Bitmap → Nat → Option Nat

/-- The resampler of `Thumbnailer.Raster.Resample` and the codec of the compressed cache. -/
def Imaging.standard : Imaging := ⟨Bitmap.resize, codec.encode⟩

/-- The backend's state. -/
structure Backend where
  dpi : DpiCalculator
  cache : Compressed
  gpu : Option Gpu := none
  gpuEnabled : Bool := true
  compressionEnabled : Bool
  imaging : Imaging

/-- Rasterizer calls made for one request. -/
structure Calls where
  cpu : Nat := 0
  gpu : Nat := 0
  deriving DecidableEq, Repr

/-- What one thumbnail request came to. -/
structure Rendered where
  result : Except RenderError Bitmap
  /-- Served from the compressed cache. -/
  cacheHit : Bool := false
  calls : Calls := {}

namespace Backend

/-- A backend for a configuration and device pixel ratio, with its image operations and its
pool attached to its cache. -/
def create (c : Config.CacheConfig) (ratio : Float) (imaging : Imaging) : Backend where
  dpi := DpiCalculator.create ratio
  cache := Compressed.create c.compressedCacheSize c.compressionQuality (some (Pool.create c.memoryPoolSize))
  compressionEnabled := c.compressionEnabled
  imaging := imaging

/-- The buffer pool. -/
def pool (b : Backend) : Pool := b.cache.pool.getD (Pool.create 0)

/-- The GPU a request would use: attached, enabled, wanted and available. -/
def selectedGpu (b : Backend) (r : Request) : Option Gpu :=
  if b.gpuEnabled && r.preference.wantsGpu r.target.width then b.gpu.filter (·.available) else none

/-- Whether a GPU is attached and available. -/
def gpuAvailable (b : Backend) : Bool := b.gpu.any (·.available)

/-- The raster for a request at `dpi`: the GPU's when it succeeds, else the source's. -/
def rasterize (b : Backend) (s : Source) (r : Request) (dpi : Float) : Except RenderError Bitmap × Calls :=
  let cpu (c : Calls) : Except RenderError Bitmap × Calls :=
    ((s.rasterize r.page dpi dpi none).mapError (.source r.page), { c with cpu := c.cpu + 1 })
  match b.selectedGpu r with
  | none => cpu {}
  | some g =>
    match g.rasterize s r.page dpi with
    | .ok raster => (.ok raster, { gpu := 1 })
    | .error _ => cpu { gpu := 1 }

/-- The side of a raster scaled by `ratio`, rounded, kept within `1 ≤ · ≤ bound`. -/
def fitSide (side : Nat) (ratio : Float) (bound : Nat) : Nat :=
  max 1 (min (Float.ofNat side * ratio).round.toUInt32.toNat bound)

/-- The raster scaled into the box with `resize`, keeping its aspect ratio. -/
def scaleToFit (resize : Bitmap → Nat → Nat → Filter → Bitmap) (raster : Bitmap) (t : Target) : Bitmap :=
  let ratio := minNum (Float.ofNat t.width / Float.ofNat raster.width)
    (Float.ofNat t.height / Float.ofNat raster.height)
  let w := fitSide raster.width ratio t.width
  let h := fitSide raster.height ratio t.height
  if w = raster.width && h = raster.height then raster
  else
    let f := match ScalingMode.choose ratio t.width with
      | .fast => Filter.nearest
      | .smooth => Filter.triangle
    resize raster w h f

/-- Renders one request against a source at `now`. Cache and pool arithmetic may overflow a
word. -/
def render (b : Backend) (s : Source) (r : Request) (now : Instant) : Except Overflow (Rendered × Backend) := do
  if r.target.isEmpty then
    return ({ result := .error (.zeroTargetSize r.target.width r.target.height) }, b)
  let count := s.numPages
  let some size := (s.pageSize r.page).filter (fun _ => r.page < count)
    | return ({ result := .error (.invalidPage r.page count) }, b)
  let (dpi, memo) := b.dpi.thumbnailDpi r.target size r.quality
  let b := { b with dpi := memo }
  let key := Key.make (r.page % Nat.pow 2 32) r.target.width r.target.height dpi r.quality
  let mut b := b
  if b.compressionEnabled then
    let (hit, cache) ← b.cache.lookup key now
    b := { b with cache }
    if let some bitmap := hit then
      return ({ result := .ok bitmap, cacheHit := true }, b)
  let (raster, calls) := b.rasterize s r dpi
  match raster with
  | .error e => return ({ result := .error e, calls }, b)
  | .ok raster =>
    if raster.isEmpty then
      return ({ result := .error (.emptyRaster r.page), calls }, b)
    let thumb := scaleToFit b.imaging.resize raster r.target
    if b.compressionEnabled then
      let (_, cache) ← b.cache.insertWith b.imaging.encode key thumb now
      b := { b with cache }
    return ({ result := .ok thumb, calls }, b)

/-- Rasterizes a whole page for viewing at `zoom`, on the CPU, uncached. -/
def renderPage (b : Backend) (s : Source) (page : Nat) (v : ViewerProfile) (zoom : Float) :
    Except RenderError Bitmap := do
  if page ≥ s.numPages then throw (.invalidPage page s.numPages)
  let (dx, dy) := v.effective zoom b.dpi.ratio
  let raster ← (s.rasterize page dx dy none).mapError (.source page)
  if raster.isEmpty then throw (.emptyRaster page)
  pure raster

/-- A new device pixel ratio (sanitised), returned. -/
def setRatio (b : Backend) (r : Float) : Float × Backend :=
  let d := b.dpi.setRatio r
  (d.ratio, { b with dpi := d })

end Backend

end Render
end Thumbnailer
