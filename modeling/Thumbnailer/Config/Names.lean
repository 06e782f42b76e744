import Thumbnailer.Text.Blank
import Thumbnailer.Render.Preference
import Thumbnailer.Cache.PageCache

/-!
# Names of render modes and cache strategies, and the quality range

Render modes are read as `cpu` (or `cpu-only`), `gpu` (or `gpu-accelerated`) and `hybrid`;
cache strategies as `lru`, `lfu`, `adaptive` and `memory-aware` (or `memory_aware`). Reading
trims blanks and ignores the case of ASCII letters; writing gives the first spelling.

A quality multiplier lies in 0.1–3.0; a NaN becomes 1.0.

Main statements: `readRenderMode_renderModeName` and `readStrategy_strategyName` (each name
reads back as its value).
-/

namespace Thumbnailer
namespace Config

open Render Cache

/-- Reads a render mode. -/
def readRenderMode (s : String) : Option Preference :=
  match Text.asciiLower (Text.trimBlank s) with
  | "cpu" | "cpu-only" => some .cpuOnly
  | "gpu" | "gpu-accelerated" => some .gpuAccelerated
  | "hybrid" => some .hybrid
  | _ => none

/-- The name of a render mode. -/
def renderModeName : Preference → String
  | .cpuOnly => "cpu"
  | .gpuAccelerated => "gpu"
  | .hybrid => "hybrid"

/-- Reads a cache strategy. -/
def readStrategy (s : String) : Option Strategy :=
  match Text.asciiLower (Text.trimBlank s) with
  | "lru" => some .lru
  | "lfu" => some .lfu
  | "adaptive" => some .adaptive
  | "memory-aware" | "memory_aware" => some .memoryAware
  | _ => none

/-- The name of a cache strategy. -/
def strategyName : Strategy → String
  | .lru => "lru"
  | .lfu => "lfu"
  | .adaptive => "adaptive"
  | .memoryAware => "memory-aware"

theorem readRenderMode_renderModeName (p : Preference) : readRenderMode (renderModeName p) = some p := by
  cases p <;> decide +kernel

theorem readStrategy_strategyName (s : Strategy) : readStrategy (strategyName s) = some s := by
  cases s <;> decide +kernel

/-- The least quality multiplier. -/
def minQuality : Float := 0.1

/-- The largest quality multiplier. -/
def maxQuality : Float := 3.0

/-- Clamps a quality multiplier to 0.1–3.0; NaN becomes 1.0. -/
def clampQuality (q : Float) : Float :=
  if q.isNaN then 1.0 else if q < minQuality then minQuality else if q > maxQuality then maxQuality else q

end Config
end Thumbnailer
