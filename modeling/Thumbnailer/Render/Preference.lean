/-!
# Rasterizer preference and scaling mode

A request says which rasterizer it would like: the CPU path only, the GPU when one is usable,
or the hybrid choice (GPU for targets wider than 150 pixels, CPU for small thumbnails).

Scaling a raster into its target box uses nearest-neighbour sampling (`fast`) when the raster
barely shrinks (fit ratio above 0.8) or the target is a small thumbnail (at most 150 pixels
wide), and bilinear filtering (`smooth`) otherwise.
-/

namespace Thumbnailer
namespace Render

/-- Which rasterizer a request would like. -/
inductive Preference where
  | cpuOnly
  | gpuAccelerated
  | hybrid
  deriving DecidableEq, Repr

/-- Targets up to this width count as small thumbnails. -/
def smallThumbnailWidth : Nat := 150

/-- Whether a request wants the GPU for a target of this width. -/
def Preference.wantsGpu (p : Preference) (targetWidth : Nat) : Bool :=
  match p with
  | .cpuOnly => false
  | .gpuAccelerated => true
  | .hybrid => targetWidth > smallThumbnailWidth

/-- The resampling filter used to fit a raster into its box. -/
inductive ScalingMode where
  /-- Nearest neighbour. -/
  | fast
  /-- Bilinear. -/
  | smooth
  deriving DecidableEq, Repr

/-- Fast when the raster barely changes size or the target is small, smooth otherwise. -/
def ScalingMode.choose (fitRatio : Float) (targetWidth : Nat) : ScalingMode :=
  if fitRatio > 0.8 || targetWidth ≤ smallThumbnailWidth then .fast else .smooth

end Render
end Thumbnailer
