import Thumbnailer.Config.CacheFile
import Thumbnailer.Config.Generator

/-!
# The generator configuration on disk and in the environment

A generator configuration file is a TOML table whose keys are all optional:
`thumbnail_width`, `thumbnail_height` (32-bit words), `quality` and `device_pixel_ratio`
(doubles; an integer is accepted), `max_concurrent_jobs`, `batch_size`, `batch_interval_ms`
(words), `max_retries` (a 32-bit word), `gpu_acceleration`, `adaptive_concurrency`
(booleans), `render_mode`, `cache_strategy` (names), and a `[cache]` table read as a cache
configuration file. Any other key, or a value of the wrong type, makes the file malformed.

The keys present are applied to the default configuration with the builders, the box first
(a missing side keeps the default), the cache table last. A name that names no mode or
strategy is an invalid value of its key. Written, the file has every key, the cache table last.

The environment is read in the same order after the cache layer's variables:
`READIUM_THUMBNAIL_WIDTH`, `READIUM_THUMBNAIL_HEIGHT`, `READIUM_QUALITY`, `READIUM_MAX_JOBS`,
`READIUM_MAX_RETRIES`, `READIUM_GPU`, `READIUM_RENDER_MODE`, `READIUM_CACHE_STRATEGY`,
`READIUM_ADAPTIVE_CONCURRENCY` and `READIUM_DEVICE_PIXEL_RATIO`.
-/

namespace Thumbnailer
namespace Config

open Render Cache

/-- A generator configuration file: the keys it sets. -/
structure GeneratorFile where
  thumbnailWidth : Option Nat := none
  thumbnailHeight : Option Nat := none
  quality : Option Float := none
  maxConcurrentJobs : Option Nat := none
  maxRetries : Option Nat := none
  gpuAcceleration : Option Bool := none
  renderMode : Option String := none
  cacheStrategy : Option String := none
  batchSize : Option Nat := none
  batchIntervalMs : Option Nat := none
  adaptiveConcurrency : Option Bool := none
  devicePixelRatio : Option Float := none
  cache : Option CacheFile := none

/-- A named value, or an invalid value of `key`. -/
def readNamed {α : Type} (key value : String) (p : String → Option α) : Load α :=
  match p value with
  | some a => pure a
  | none => Load.fail (.invalidValue key value)

namespace GeneratorFile

/-- Sets one key, if it is a known key with a value of its type. -/
def set (f : GeneratorFile) : String × Toml.Value → Option GeneratorFile
  | ("thumbnail_width", v) => v.unsigned? u32Max >>= fun n => some { f with thumbnailWidth := n }
  | ("thumbnail_height", v) => v.unsigned? u32Max >>= fun n => some { f with thumbnailHeight := n }
  | ("quality", v) => v.double? >>= fun x => some { f with quality := x }
  | ("max_concurrent_jobs", v) => v.unsigned? wordMax >>= fun n => some { f with maxConcurrentJobs := n }
  | ("max_retries", v) => v.unsigned? u32Max >>= fun n => some { f with maxRetries := n }
  | ("gpu_acceleration", v) => v.bool? >>= fun b => some { f with gpuAcceleration := b }
  | ("render_mode", v) => v.string? >>= fun s => some { f with renderMode := s }
  | ("cache_strategy", v) => v.string? >>= fun s => some { f with cacheStrategy := s }
  | ("batch_size", v) => v.unsigned? wordMax >>= fun n => some { f with batchSize := n }
  | ("batch_interval_ms", v) => v.unsigned? wordMax >>= fun n => some { f with batchIntervalMs := n }
  | ("adaptive_concurrency", v) => v.bool? >>= fun b => some { f with adaptiveConcurrency := b }
  | ("device_pixel_ratio", v) => v.double? >>= fun x => some { f with devicePixelRatio := x }
  | ("cache", v) => v.table? >>= CacheFile.read >>= fun c => some { f with cache := c }
  | _ => none

/-- Reads a table; `none` when a key is unknown or has a value of the wrong type. -/
def read (fields : List (String × Toml.Value)) : Option GeneratorFile := fields.foldlM set {}

/-- Applies the keys present to a configuration, in order. -/
def apply (f : GeneratorFile) (c : GeneratorConfig) : Load GeneratorConfig := do
  let mut c := c
  if f.thumbnailWidth.isSome || f.thumbnailHeight.isSome then
    c := c.withThumbnailSize (f.thumbnailWidth.getD c.thumbnailSize.width)
      (f.thumbnailHeight.getD c.thumbnailSize.height)
  if let some q := f.quality then c := c.withQuality q
  if let some n := f.maxConcurrentJobs then c := c.withMaxConcurrentJobs n
  if let some n := f.maxRetries then c := c.withMaxRetries n
  if let some b := f.gpuAcceleration then c := c.withGpuAcceleration b
  if let some s := f.renderMode then c := c.withRenderMode (← readNamed "render_mode" s readRenderMode)
  if let some s := f.cacheStrategy then c := c.withCacheStrategy (← readNamed "cache_strategy" s readStrategy)
  if let some n := f.batchSize then c := c.withBatchSize n
  if let some ms := f.batchIntervalMs then c := c.withBatchIntervalMs ms
  if let some b := f.adaptiveConcurrency then c := c.withAdaptiveConcurrency b
  if let some r := f.devicePixelRatio then c := c.withDevicePixelRatio r
  if let some cache := f.cache then c := c.withCache (← Load.word (cache.apply c.cache))
  pure c

/-- Every setting of a configuration. -/
def ofConfig (c : GeneratorConfig) : GeneratorFile where
  thumbnailWidth := some c.thumbnailSize.width
  thumbnailHeight := some c.thumbnailSize.height
  quality := some c.quality
  maxConcurrentJobs := some c.maxConcurrentJobs
  maxRetries := some c.maxRetries
  gpuAcceleration := some c.gpuAcceleration
  renderMode := some (renderModeName c.renderMode)
  cacheStrategy := some (strategyName c.cacheStrategy)
  batchSize := some c.batchSize
  batchIntervalMs := some c.batchIntervalMs
  adaptiveConcurrency := some c.adaptiveConcurrency
  devicePixelRatio := some c.devicePixelRatio
  cache := some (CacheFile.ofConfig c.cache)

/-- The fields of the keys present, in order, the cache table last. -/
def fields (f : GeneratorFile) : List (String × Toml.Value) :=
  let nat (k : String) : Option Nat → Option (String × Toml.Value) := Option.map fun n => (k, .int n)
  let double (k : String) : Option Float → Option (String × Toml.Value) := Option.map fun x => (k, .float x)
  let flag (k : String) : Option Bool → Option (String × Toml.Value) := Option.map fun b => (k, .bool b)
  let name (k : String) : Option String → Option (String × Toml.Value) := Option.map fun s => (k, .str s)
  [nat "thumbnail_width" f.thumbnailWidth, nat "thumbnail_height" f.thumbnailHeight,
   double "quality" f.quality, nat "max_concurrent_jobs" f.maxConcurrentJobs,
   nat "max_retries" f.maxRetries, flag "gpu_acceleration" f.gpuAcceleration,
   name "render_mode" f.renderMode, name "cache_strategy" f.cacheStrategy,
   nat "batch_size" f.batchSize, nat "batch_interval_ms" f.batchIntervalMs,
   flag "adaptive_concurrency" f.adaptiveConcurrency, double "device_pixel_ratio" f.devicePixelRatio,
   f.cache.map fun c => ("cache", .table c.fields)].filterMap id

end GeneratorFile

namespace GeneratorConfig

/-- The configuration as a document written by `lib`: every setting, the cache table last. -/
def encode (lib : Toml.Library) (c : GeneratorConfig) : String := lib.write (GeneratorFile.ofConfig c).fields

/-- The configuration a document read by `lib` describes, on top of the default. -/
def decode (lib : Toml.Library) (s : String) : Load GeneratorConfig := do
  let some file := lib.read s >>= GeneratorFile.read | Load.fail .parse
  file.apply {}

/-- The configuration as a document. -/
def toToml (c : GeneratorConfig) : String := encode Toml.library c

/-- The configuration a document describes, on top of the default. -/
def ofToml (s : String) : Load GeneratorConfig := decode Toml.library s

/-- The configuration the environment describes, on top of the default. -/
def fromEnv (env : Env) : Load GeneratorConfig := do
  let mut c : GeneratorConfig := { cache := ← CacheConfig.fromEnv env }
  let w ← envU32 env "READIUM_THUMBNAIL_WIDTH"
  let h ← envU32 env "READIUM_THUMBNAIL_HEIGHT"
  if w.isSome || h.isSome then
    c := c.withThumbnailSize (w.getD c.thumbnailSize.width) (h.getD c.thumbnailSize.height)
  if let some q ← envFloat env "READIUM_QUALITY" then c := c.withQuality q
  if let some n ← envWord env "READIUM_MAX_JOBS" then c := c.withMaxConcurrentJobs n
  if let some n ← envU32 env "READIUM_MAX_RETRIES" then c := c.withMaxRetries n
  if let some b ← envBool env "READIUM_GPU" then c := c.withGpuAcceleration b
  if let some m ← envNamed env "READIUM_RENDER_MODE" readRenderMode then c := c.withRenderMode m
  if let some s ← envNamed env "READIUM_CACHE_STRATEGY" readStrategy then c := c.withCacheStrategy s
  if let some b ← envBool env "READIUM_ADAPTIVE_CONCURRENCY" then c := c.withAdaptiveConcurrency b
  if let some r ← envFloat env "READIUM_DEVICE_PIXEL_RATIO" then c := c.withDevicePixelRatio r
  pure c

end GeneratorConfig

end Config
end Thumbnailer
