import Thumbnailer.Proofs.Config.TomlReadBack

/-!
# Writing a configuration and reading it back

A cache configuration is written as six lines, its sizes in whole mebibytes; a generator
configuration as twelve lines, its doubles by their shortest text and its mode and strategy by
name, followed by a `[cache]` table. Reading such a document back goes through the builders,
so what comes back is not the configuration itself but its normal form: the sizes truncated to
whole mebibytes and clamped, the codec and thumbnail qualities clamped, 1–8 jobs, at most 5
retries, batches of at least one and a positive finite pixel ratio (`normalize`).

The document is written and read by a TOML library, a parameter of `encode` and `decode`; all
the argument asks of it is that it read back the fields it writes (`Library.ReadsBack`). For
each configuration the argument then has the same three steps:

* the document reads back as the fields of its `settings`, and for a generator configuration
  its cache table after them;
* the fields read as the file of every setting (`read_fields`), which needs each number to fit
  the word the reader checks it against (`Writable`);
* that file applied to the default is the normal form (`apply_ofConfig`).

`normalize_normalize` says the normal form is a fixed point, and
`toml_round_trip_normalizes` puts the two configurations' round trips together: a document
reads back as the normal form, which is the configuration itself exactly when it is already
normal. The library of this project reads back what it writes (`readsBack_library`), so
`ofToml` and `toToml` are such a pair (`parse_toToml`, `ofToml_toToml`).
-/

namespace Thumbnailer
namespace Config

open Toml Render Cache

namespace CacheConfig

/-- The fields a cache configuration is written as: sizes in whole mebibytes. -/
def settings (c : CacheConfig) : List (String × Value) :=
  [("compressed_cache_mb", .int c.compressedCacheMb), ("compression_quality", .int c.compressionQuality),
   ("compression_enabled", .bool c.compressionEnabled), ("memory_pool_mb", .int c.memoryPoolMb),
   ("page_cache_items", .int c.pageCacheItems), ("page_cache_mb", .int c.pageCacheMb)]

theorem fields_ofConfig (c : CacheConfig) : (CacheFile.ofConfig c).fields = c.settings := rfl

/-- The settings a cache configuration file can hold: machine words that fit a TOML integer,
and a byte of codec quality. -/
structure Writable (c : CacheConfig) : Prop where
  compressedCacheSize : c.compressedCacheSize < 2 ^ 63
  compressionQuality : c.compressionQuality ≤ 255
  memoryPoolSize : c.memoryPoolSize < 2 ^ 63
  pageCacheItems : c.pageCacheItems < 2 ^ 63
  pageCacheMemory : c.pageCacheMemory < 2 ^ 63

theorem mb_lt {bytes : ℕ} (h : bytes < 2 ^ 63) : bytes / mebibyte < 2 ^ 64 :=
  lt_of_le_of_lt (Nat.div_le_self _ _) (by omega)

theorem plainFields {c : CacheConfig} (hc : c.Writable) : PlainFields c.settings where
  key := by
    simp only [settings, List.mem_cons, List.not_mem_nil, or_false]
    rintro f (rfl | rfl | rfl | rfl | rfl | rfl) <;> exact ⟨by simp, by simp [isBareKeyChar]⟩
  value := by
    simp only [settings, List.mem_cons, List.not_mem_nil, or_false]
    rintro f (rfl | rfl | rfl | rfl | rfl | rfl)
    · exact Value.setting_nat (mb_lt hc.compressedCacheSize)
    · exact Value.setting_nat (by have := hc.compressionQuality; omega)
    · trivial
    · exact Value.setting_nat (mb_lt hc.memoryPoolSize)
    · exact Value.setting_nat (by have := hc.pageCacheItems; omega)
    · exact Value.setting_nat (mb_lt hc.pageCacheMemory)
  nodup := by simp [settings]

/-- The reader takes a written cache configuration back as its fields. -/
theorem parse_toToml {c : CacheConfig} (hc : c.Writable) : parse c.toToml = some c.settings := by
  have h := readsBack_library.plain _ (plainFields hc)
  simp only [library] at h
  rw [toToml, encode, fields_ofConfig]
  exact h

theorem read_fields {c : CacheConfig} (hc : c.Writable) :
    CacheFile.read c.settings = some (CacheFile.ofConfig c) := by
  have h1 : c.compressedCacheMb ≤ wordMax := Nat.le_pred_of_lt (mb_lt hc.compressedCacheSize)
  have h2 : c.memoryPoolMb ≤ wordMax := Nat.le_pred_of_lt (mb_lt hc.memoryPoolSize)
  have h3 : c.pageCacheMb ≤ wordMax := Nat.le_pred_of_lt (mb_lt hc.pageCacheMemory)
  have h4 : c.pageCacheItems ≤ wordMax := by have := hc.pageCacheItems; simp [wordMax, wordSize]; omega
  simp only [wordMax, wordSize] at h1 h2 h3 h4
  simp [CacheFile.read, settings, CacheFile.set, Value.unsigned?, Value.bool?, wordMax,
    wordSize, CacheFile.ofConfig, h1, h2, h3, h4, hc.compressionQuality]

/-- What a written cache configuration reads back as: the sizes in whole mebibytes through the
builders, so the pool clamped to 16–512 MiB and the page cache at least 1 MiB; the codec
quality clamped to 1–100 and at least one page cached. -/
def normalize (c : CacheConfig) : CacheConfig where
  compressedCacheSize := c.compressedCacheMb * mebibyte
  compressionQuality := max 1 (min c.compressionQuality 100)
  compressionEnabled := c.compressionEnabled
  memoryPoolSize := clampPoolSize (c.memoryPoolMb * mebibyte)
  pageCacheItems := max c.pageCacheItems 1
  pageCacheMemory := max (c.pageCacheMb * mebibyte) mebibyte

theorem mb_mul_lt {bytes : ℕ} (h : bytes < 2 ^ 63) : bytes / mebibyte * mebibyte < wordSize :=
  lt_of_le_of_lt (Nat.div_mul_le_self _ _) (by simp [wordSize]; omega)

theorem apply_ofConfig {c : CacheConfig} (hc : c.Writable) :
    (CacheFile.ofConfig c).apply {} = .ok c.normalize := by
  have h1 := mb_mul_lt hc.compressedCacheSize
  have h2 := mb_mul_lt hc.memoryPoolSize
  have h3 := mb_mul_lt hc.pageCacheMemory
  simp [CacheFile.apply, CacheFile.ofConfig, withCompressedCacheMb, withCompressionQuality,
    withCompression, withMemoryPoolMb, withPageCacheItems, withPageCacheMb, bytesOfMb, checkedMul,
    compressedCacheMb, memoryPoolMb, pageCacheMb, h1, h2, h3]
  rfl

/-- **A cache configuration written by a library that reads back what it writes reads back as
its normal form.** -/
theorem decode_encode {lib : Library} (hlib : lib.ReadsBack) {c : CacheConfig} (hc : c.Writable) :
    decode lib (encode lib c) = pure c.normalize := by
  simp only [decode, encode, fields_ofConfig, hlib.plain _ (plainFields hc), Option.bind_eq_bind,
    Option.bind_some, read_fields hc, apply_ofConfig hc]
  rfl

/-- A written cache configuration reads back as its normal form. -/
theorem ofToml_toToml {c : CacheConfig} (hc : c.Writable) : ofToml c.toToml = pure c.normalize :=
  decode_encode readsBack_library hc

end CacheConfig

namespace GeneratorConfig

/-- The fields a generator configuration is written as, before its cache table. -/
def settings (c : GeneratorConfig) : List (String × Value) :=
  [("thumbnail_width", .int c.thumbnailSize.width), ("thumbnail_height", .int c.thumbnailSize.height),
   ("quality", .float c.quality), ("max_concurrent_jobs", .int c.maxConcurrentJobs),
   ("max_retries", .int c.maxRetries), ("gpu_acceleration", .bool c.gpuAcceleration),
   ("render_mode", .str (renderModeName c.renderMode)),
   ("cache_strategy", .str (strategyName c.cacheStrategy)), ("batch_size", .int c.batchSize),
   ("batch_interval_ms", .int c.batchIntervalMs),
   ("adaptive_concurrency", .bool c.adaptiveConcurrency),
   ("device_pixel_ratio", .float c.devicePixelRatio)]

theorem fields_ofConfig (c : GeneratorConfig) :
    (GeneratorFile.ofConfig c).fields = c.settings ++ [("cache", .table c.cache.settings)] := rfl

/-- The settings a generator configuration file can hold: 32-bit sides and retries, machine
words that fit a TOML integer, and a cache configuration it can hold. -/
structure Writable (c : GeneratorConfig) : Prop where
  width : c.thumbnailSize.width ≤ u32Max
  height : c.thumbnailSize.height ≤ u32Max
  maxConcurrentJobs : c.maxConcurrentJobs < 2 ^ 63
  maxRetries : c.maxRetries ≤ u32Max
  batchSize : c.batchSize < 2 ^ 63
  batchIntervalMs : c.batchIntervalMs < 2 ^ 63
  cache : c.cache.Writable

theorem lt_of_le_u32Max {n : ℕ} (h : n ≤ u32Max) : n < 2 ^ 64 := by
  have : u32Max < 2 ^ 64 := by decide
  omega

theorem plainFields {c : GeneratorConfig} (hc : c.Writable) : PlainFields c.settings where
  key := by
    simp only [settings, List.mem_cons, List.not_mem_nil, or_false]
    rintro f (rfl | rfl | rfl | rfl | rfl | rfl | rfl | rfl | rfl | rfl | rfl | rfl) <;>
      exact ⟨by simp, by simp [isBareKeyChar]⟩
  value := by
    simp only [settings, List.mem_cons, List.not_mem_nil, or_false]
    rintro f (rfl | rfl | rfl | rfl | rfl | rfl | rfl | rfl | rfl | rfl | rfl | rfl)
    · exact Value.setting_nat (lt_of_le_u32Max hc.width)
    · exact Value.setting_nat (lt_of_le_u32Max hc.height)
    · trivial
    · exact Value.setting_nat (by have := hc.maxConcurrentJobs; omega)
    · exact Value.setting_nat (lt_of_le_u32Max hc.maxRetries)
    · trivial
    · -- the names of modes and strategies are plain words
      show ∀ ch ∈ (renderModeName c.renderMode).toList, PlainChar ch
      cases c.renderMode <;> simp [renderModeName, PlainChar, isControl]
    · show ∀ ch ∈ (strategyName c.cacheStrategy).toList, PlainChar ch
      cases c.cacheStrategy <;> simp [strategyName, PlainChar, isControl]
    · exact Value.setting_nat (by have := hc.batchSize; omega)
    · exact Value.setting_nat (by have := hc.batchIntervalMs; omega)
    · trivial
    · trivial
  nodup := by simp [settings]

/-- The cache table sits under a bare key that no setting uses. -/
theorem cache_key_fresh (c : GeneratorConfig) : BareKey "cache" ∧ "cache" ∉ c.settings.map Prod.fst :=
  ⟨⟨by simp, by simp [isBareKeyChar]⟩, by simp [settings]⟩

/-- The reader takes a written generator configuration back as its fields and its cache
table. -/
theorem parse_toToml {c : GeneratorConfig} (hc : c.Writable) :
    parse c.toToml = some (c.settings ++ [("cache", .table c.cache.settings)]) := by
  have h := readsBack_library.table _ _ _ (plainFields hc) (cache_key_fresh c).1 (cache_key_fresh c).2
    (CacheConfig.plainFields hc.cache)
  simp only [library] at h
  rw [toToml, encode, fields_ofConfig]
  exact h

theorem read_fields {c : GeneratorConfig} (hc : c.Writable) :
    GeneratorFile.read (c.settings ++ [("cache", .table c.cache.settings)]) =
      some (GeneratorFile.ofConfig c) := by
  have hu : u32Max = 4294967295 := rfl
  have h1 := hu ▸ hc.width
  have h2 := hu ▸ hc.height
  have h3 : c.maxConcurrentJobs ≤ 18446744073709551615 := by have := hc.maxConcurrentJobs; omega
  have h4 := hu ▸ hc.maxRetries
  have h5 : c.batchSize ≤ 18446744073709551615 := by have := hc.batchSize; omega
  have h6 : c.batchIntervalMs ≤ 18446744073709551615 := by have := hc.batchIntervalMs; omega
  rw [GeneratorFile.read, List.foldlM_append, settings]
  simp [GeneratorFile.set, Value.unsigned?, Value.double?, Value.bool?, Value.string?, Value.table?,
    CacheConfig.read_fields hc.cache, GeneratorFile.ofConfig, u32Max, wordMax, wordSize,
    h1, h2, h3, h4, h5, h6]

/-- What a written generator configuration reads back as: each setting through its builder, so
the quality clamped, 1–8 jobs, at most 5 retries, batches of at least one and a pixel ratio
that is positive and finite; the cache configuration in its own normal form. -/
def normalize (c : GeneratorConfig) : GeneratorConfig where
  thumbnailSize := c.thumbnailSize
  quality := clampQuality c.quality
  maxConcurrentJobs := Schedule.clampConcurrency c.maxConcurrentJobs
  maxRetries := min c.maxRetries Schedule.maxRetriesBound
  gpuAcceleration := c.gpuAcceleration
  renderMode := c.renderMode
  cacheStrategy := c.cacheStrategy
  batchSize := max c.batchSize 1
  batchIntervalMs := c.batchIntervalMs
  adaptiveConcurrency := c.adaptiveConcurrency
  devicePixelRatio :=
    if c.devicePixelRatio > 0 && !c.devicePixelRatio.isNaN && !c.devicePixelRatio.isInf then
      c.devicePixelRatio
    else 1.0
  cache := c.cache.normalize

theorem apply_ofConfig {c : GeneratorConfig} (hc : c.Writable) :
    (GeneratorFile.ofConfig c).apply {} = pure c.normalize := by
  simp [GeneratorFile.apply, GeneratorFile.ofConfig, readNamed, readRenderMode_renderModeName,
    readStrategy_strategyName, CacheConfig.apply_ofConfig hc.cache, withThumbnailSize, withQuality,
    withMaxConcurrentJobs, withMaxRetries, withGpuAcceleration, withRenderMode, withCacheStrategy,
    withBatchSize, withBatchIntervalMs, withAdaptiveConcurrency, withDevicePixelRatio, withCache,
    Load.word, normalize]
  rfl

/-- **A generator configuration written by a library that reads back what it writes reads back
as its normal form.** -/
theorem decode_encode {lib : Library} (hlib : lib.ReadsBack) {c : GeneratorConfig} (hc : c.Writable) :
    decode lib (encode lib c) = pure c.normalize := by
  have hread := hlib.table _ _ _ (plainFields hc) (cache_key_fresh c).1 (cache_key_fresh c).2
    (CacheConfig.plainFields hc.cache)
  simp only [decode, encode, fields_ofConfig, hread, Option.bind_eq_bind, Option.bind_some,
    read_fields hc, apply_ofConfig hc]

/-- A written generator configuration reads back as its normal form. -/
theorem ofToml_toToml {c : GeneratorConfig} (hc : c.Writable) : ofToml c.toToml = pure c.normalize :=
  decode_encode readsBack_library hc

end GeneratorConfig

end Config
end Thumbnailer
