import Thumbnailer.Service.Encoding
import Thumbnailer.Config.GeneratorFile

/-!
# Configuration requests

A configuration is loaded from a TOML document, from environment variables or from a list of
builder calls `[name, value]` applied to the default; the answer lists its settings, the
document it writes and whether reading that document back gives the same configuration.
A configuration file is read from given contents, or written from builder calls and read
back.
-/

namespace Thumbnailer
namespace Service

open Value Config

/-- A configuration error. -/
def configErrorOut : ConfigError → Value
  | .invalidValue k v => .obj [("error", .str "InvalidValue"), ("message", .str (ConfigError.invalidValue k v).message),
      ("key", .str k), ("value", .str v)]
  | .io => .obj [("error", .str "Io")]
  | .parse => .obj [("error", .str "Parse")]

/-- A loaded configuration, or its error; an overflow ends the request. -/
def loaded {α : Type} (l : Load α) : Reply (Except ConfigError α) := lift l.run

/-- The settings of a cache configuration. -/
def cacheConfigFields (c : CacheConfig) : List (String × Value) :=
  [("compressed_cache_size", .nat c.compressedCacheSize), ("compression_quality", .nat c.compressionQuality),
   ("compression_enabled", .bool c.compressionEnabled), ("memory_pool_size", .nat c.memoryPoolSize),
   ("page_cache_items", .nat c.pageCacheItems), ("page_cache_memory", .nat c.pageCacheMemory),
   ("compressed_cache_mb", .nat c.compressedCacheMb), ("memory_pool_mb", .nat c.memoryPoolMb),
   ("page_cache_mb", .nat c.pageCacheMb)]

/-- The settings of a generator configuration. -/
def generatorConfigFields (c : GeneratorConfig) : List (String × Value) :=
  let s := c.schedulerConfig
  [("thumbnail_size", .natPair c.thumbnailSize.width c.thumbnailSize.height), ("quality", .float c.quality),
   ("max_concurrent_jobs", .nat c.maxConcurrentJobs), ("max_retries", .nat c.maxRetries),
   ("gpu_acceleration", .bool c.gpuAcceleration), ("render_mode", .str (renderModeName c.renderMode)),
   ("cache_strategy", .str (strategyName c.cacheStrategy)), ("batch_size", .nat c.batchSize),
   ("batch_interval_ms", .nat c.batchIntervalMs), ("adaptive_concurrency", .bool c.adaptiveConcurrency),
   ("device_pixel_ratio", .float c.devicePixelRatio), ("cache", .obj (cacheConfigFields c.cache)),
   ("scheduler", .obj [("max_concurrent_jobs", .nat s.maxConcurrentJobs), ("max_retries", .nat s.maxRetries),
     ("batch_size", .nat s.batchSize), ("adaptive_concurrency", .bool s.adaptiveConcurrency)])]

/-- One cache builder call. -/
def cacheBuilder (c : CacheConfig) : Value → Reply CacheConfig
  | .arr [.str name, v] =>
    match name with
    | "compressed_cache_mb" => do lift (c.withCompressedCacheMb (← asNatIn name wordMax v))
    | "compression_quality" => do pure (c.withCompressionQuality (← asNatIn name 255 v))
    | "compression" => do pure (c.withCompression (← asBool name v))
    | "memory_pool_mb" => do lift (c.withMemoryPoolMb (← asNatIn name wordMax v))
    | "page_cache_items" => do pure (c.withPageCacheItems (← asNatIn name wordMax v))
    | "page_cache_mb" => do lift (c.withPageCacheMb (← asNatIn name wordMax v))
    | _ => bad ("unknown cache builder \"" ++ name ++ "\"")
  | _ => bad "a builder call is [name, value]"

/-- Cache builder calls applied to the default. -/
def cacheBuilders (calls : List Value) : Reply CacheConfig := calls.foldlM cacheBuilder {}

/-- One generator builder call. -/
def generatorBuilder (c : GeneratorConfig) : Value → Reply GeneratorConfig
  | .arr [.str name, v] =>
    match name with
    | "thumbnail_size" => do
      match v with
      | .arr [w, h] => pure (c.withThumbnailSize (← asNatIn name u32Max w) (← asNatIn name u32Max h))
      | _ => bad ("field " ++ name ++ " is not a pair")
    | "quality" => do pure (c.withQuality (← asFloat name v))
    | "max_concurrent_jobs" => do pure (c.withMaxConcurrentJobs (← asNatIn name wordMax v))
    | "max_retries" => do pure (c.withMaxRetries (← asNatIn name u32Max v))
    | "gpu_acceleration" => do pure (c.withGpuAcceleration (← asBool name v))
    | "render_mode" => do
      let s ← asStr name v
      match readRenderMode s with
      | some m => pure (c.withRenderMode m)
      | none => bad ("unknown render mode \"" ++ s ++ "\"")
    | "cache_strategy" => do
      let s ← asStr name v
      match readStrategy s with
      | some m => pure (c.withCacheStrategy m)
      | none => bad ("unknown cache strategy \"" ++ s ++ "\"")
    | "batch_size" => do pure (c.withBatchSize (← asNatIn name wordMax v))
    | "batch_interval_ms" => do pure (c.withBatchIntervalMs (← asNatIn name wordMax v))
    | "adaptive_concurrency" => do pure (c.withAdaptiveConcurrency (← asBool name v))
    | "device_pixel_ratio" => do pure (c.withDevicePixelRatio (← asFloat name v))
    | "cache" => do pure (c.withCache (← cacheBuilders (← asList name v)))
    | _ => bad ("unknown generator builder \"" ++ name ++ "\"")
  | _ => bad "a builder call is [name, value]"

/-- Generator builder calls applied to the default. -/
def generatorBuilders (calls : List Value) : Reply GeneratorConfig := calls.foldlM generatorBuilder {}

/-- Generator builder calls applied to a given configuration. -/
def generatorBuildersFrom (c : GeneratorConfig) (calls : List Value) : Reply GeneratorConfig :=
  calls.foldlM generatorBuilder c

/-- The environment a request sets. -/
def envIn (v : Value) : Reply Env :=
  match v with
  | .obj fs => fs.mapM fun (k, x) => do pure (k, ← asStr k x)
  | _ => bad "field env is not an object"

/-- A configuration from the one input form a request gives. -/
def configIn {α : Type} (j : Value) (ofToml : String → Load α) (fromEnv : Env → Load α)
    (builders : List Value → Reply α) : Reply (Except ConfigError α) := do
  if let some t := j.field? "toml" then return ← loaded (ofToml (← asStr "toml" t))
  if let some e := j.field? "env" then return ← loaded (fromEnv (← envIn e))
  pure (.ok (← builders (← j.list "builder")))

def runCacheConfig (j : Value) : Reply Value := do
  match ← configIn j CacheConfig.ofToml CacheConfig.fromEnv cacheBuilders with
  | .error e => pure (configErrorOut e)
  | .ok c =>
    let text := c.toToml
    let back ← loaded (CacheConfig.ofToml text)
    let same := match back with
      | .ok d => decide (d = c)
      | .error _ => false
    pure (.obj (cacheConfigFields c ++ [("toml", .str text), ("roundtrip", .bool same)]))

def runGeneratorConfig (j : Value) : Reply Value := do
  match ← configIn j GeneratorConfig.ofToml GeneratorConfig.fromEnv generatorBuilders with
  | .error e => pure (configErrorOut e)
  | .ok c =>
    let text := c.toToml
    let back ← loaded (GeneratorConfig.ofToml text)
    let same := match back with
      | .ok d => d.same c
      | .error _ => false
    pure (.obj (generatorConfigFields c ++ [("toml", .str text), ("roundtrip", .bool same)]))

/-- A configuration file read back: its settings, or its error. -/
def fileOut {α : Type} (fields : α → List (String × Value)) : Except ConfigError α → Value
  | .ok c => .obj (fields c)
  | .error e => configErrorOut e

def runConfigFile (j : Value) : Reply Value := do
  let kind ← j.text "kind"
  let missing ← j.optOr "missing" false flag
  let load {α : Type} (ofToml : String → Load α) (fields : α → List (String × Value))
      (save : List Value → Reply String) : Reply Value := do
    if missing then return .obj [("loaded", configErrorOut .io)]
    if let some t := j.field? "contents" then
      return .obj [("loaded", fileOut fields (← loaded (ofToml (← asStr "contents" t))))]
    let text ← save (← j.list "save")
    pure (.obj [("loaded", fileOut fields (← loaded (ofToml text))), ("saved", .str text)])
  match kind with
  | "cache" => load CacheConfig.ofToml cacheConfigFields fun calls => do pure (← cacheBuilders calls).toToml
  | "generator" => load GeneratorConfig.ofToml generatorConfigFields fun calls => do pure (← generatorBuilders calls).toToml
  | k => bad ("unknown config kind \"" ++ k ++ "\"")

end Service
end Thumbnailer
