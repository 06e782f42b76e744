import Thumbnailer.Config.Cache
import Thumbnailer.Config.Names
import Thumbnailer.Page.Size
import Thumbnailer.Schedule.Scheduler

/-!
# Generator and model configuration

The generator's settings: the default thumbnail box and quality, how many render jobs run
at once and how often a failed one is retried, the GPU switch and render mode, the cache
strategy, the batch settings that drive adaptive concurrency, the device pixel ratio and the
cache layer's own configuration.

The builders keep each setting in its range: quality in 0.1–3.0 (NaN is 1.0), 1–8 jobs, at
most 5 retries, batches of at least one, and a device pixel ratio that is positive and finite
(1.0 otherwise).

The model's settings say how far preloading reaches beyond the visible pages, how wide the
margin of raised priority is, whether pages are only requested near the viewport, and whether
the page cache adapts its policy.
-/

namespace Thumbnailer
namespace Config

open Render Cache

/-- The generator's settings. -/
structure GeneratorConfig where
  thumbnailSize : Page.Target := Page.Target.default
  /-- Quality multiplier, 0.1–3.0. -/
  quality : Float := 1.0
  /-- Render jobs in flight, 1–8. -/
  maxConcurrentJobs : Nat := 6
  /-- Retries after the first failed attempt, 0–5. -/
  maxRetries : Nat := 2
  gpuAcceleration : Bool := true
  renderMode : Preference := .hybrid
  cacheStrategy : Strategy := .adaptive
  /-- Queue depth unit for adaptive concurrency. -/
  batchSize : Nat := 8
  /-- Milliseconds between batch ticks. -/
  batchIntervalMs : Nat := 50
  /-- Tune concurrency from the queue depth on every batch tick. -/
  adaptiveConcurrency : Bool := true
  devicePixelRatio : Float := 1.0
  cache : CacheConfig := {}

namespace GeneratorConfig

/-- Equal settings, doubles compared as numbers. -/
def same (a b : GeneratorConfig) : Bool :=
  a.thumbnailSize = b.thumbnailSize && a.quality == b.quality
    && a.maxConcurrentJobs = b.maxConcurrentJobs && a.maxRetries = b.maxRetries
    && a.gpuAcceleration = b.gpuAcceleration && a.renderMode = b.renderMode
    && a.cacheStrategy = b.cacheStrategy && a.batchSize = b.batchSize
    && a.batchIntervalMs = b.batchIntervalMs && a.adaptiveConcurrency = b.adaptiveConcurrency
    && a.devicePixelRatio == b.devicePixelRatio && a.cache = b.cache

/-- A default thumbnail box. -/
def withThumbnailSize (c : GeneratorConfig) (w h : Nat) : GeneratorConfig :=
  { c with thumbnailSize := ⟨w, h⟩ }

/-- A quality multiplier, clamped. -/
def withQuality (c : GeneratorConfig) (q : Float) : GeneratorConfig :=
  { c with quality := clampQuality q }

/-- Jobs in flight, clamped to 1–8. -/
def withMaxConcurrentJobs (c : GeneratorConfig) (n : Nat) : GeneratorConfig :=
  { c with maxConcurrentJobs := Schedule.clampConcurrency n }

/-- Retries, at most 5. -/
def withMaxRetries (c : GeneratorConfig) (n : Nat) : GeneratorConfig :=
  { c with maxRetries := min n Schedule.maxRetriesBound }

/-- The GPU switch. -/
def withGpuAcceleration (c : GeneratorConfig) (b : Bool) : GeneratorConfig :=
  { c with gpuAcceleration := b }

/-- A render mode. -/
def withRenderMode (c : GeneratorConfig) (m : Preference) : GeneratorConfig :=
  { c with renderMode := m }

/-- A cache strategy. -/
def withCacheStrategy (c : GeneratorConfig) (s : Strategy) : GeneratorConfig :=
  { c with cacheStrategy := s }

/-- A batch size, at least one. -/
def withBatchSize (c : GeneratorConfig) (n : Nat) : GeneratorConfig :=
  { c with batchSize := max n 1 }

/-- Milliseconds between batch ticks. -/
def withBatchIntervalMs (c : GeneratorConfig) (ms : Nat) : GeneratorConfig :=
  { c with batchIntervalMs := ms }

/-- The adaptive concurrency switch. -/
def withAdaptiveConcurrency (c : GeneratorConfig) (b : Bool) : GeneratorConfig :=
  { c with adaptiveConcurrency := b }

/-- A device pixel ratio; one that is not positive and finite is 1.0. -/
def withDevicePixelRatio (c : GeneratorConfig) (r : Float) : GeneratorConfig :=
  { c with devicePixelRatio := if r > 0 && !r.isNaN && !r.isInf then r else 1.0 }

/-- A cache configuration. -/
def withCache (c : GeneratorConfig) (cache : CacheConfig) : GeneratorConfig := { c with cache }

/-- The scheduler's settings. -/
def schedulerConfig (c : GeneratorConfig) : Schedule.SchedulerConfig where
  maxConcurrentJobs := c.maxConcurrentJobs
  maxRetries := c.maxRetries
  batchSize := c.batchSize
  adaptiveConcurrency := c.adaptiveConcurrency

end GeneratorConfig

/-- The model's settings. -/
structure ModelConfig where
  /-- Pages beyond the visible range that preloading covers. -/
  preloadRange : Nat := 5
  /-- Pages around the visible range that get the margin priority. -/
  viewportMargin : Nat := 2
  /-- Only request pages near the viewport once one is set. -/
  lazyLoading : Bool := true
  /-- Let the page cache switch between LRU and LFU; plain LRU otherwise. -/
  adaptiveCaching : Bool := true
  deriving DecidableEq, Repr

end Config
end Thumbnailer
