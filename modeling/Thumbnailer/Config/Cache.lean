import Thumbnailer.Numeric.Word
import Thumbnailer.Cache.Pool

/-!
# Cache configuration

Sizes for the compressed cache, the page cache of decoded thumbnails and the buffer pool,
with the codec quality and whether compression is used at all. Sizes given in mebibytes are
multiplied out in a machine word, so a huge count overflows; the builders clamp as the
caches would: quality to 1–100, the pool to 16–512 MiB, the page cache to at least one item
and 1 MiB.
-/

namespace Thumbnailer
namespace Config

open Cache

/-- The cache layer's settings. -/
structure CacheConfig where
  /-- Bytes of the compressed cache. -/
  compressedCacheSize : Nat := 32 * mebibyte
  /-- Codec quality, 1–100. -/
  compressionQuality : Nat := 85
  compressionEnabled : Bool := true
  /-- Bytes of the buffer pool, 16–512 MiB. -/
  memoryPoolSize : Nat := 64 * mebibyte
  pageCacheItems : Nat := 100
  pageCacheMemory : Nat := 128 * mebibyte
  deriving DecidableEq, Repr

namespace CacheConfig

/-- `mb` mebibytes in bytes, in a machine word. -/
def bytesOfMb (mb : Nat) : Except Overflow Nat := checkedMul mb mebibyte

/-- A compressed cache of `mb` MiB. -/
def withCompressedCacheMb (c : CacheConfig) (mb : Nat) : Except Overflow CacheConfig := do
  pure { c with compressedCacheSize := ← bytesOfMb mb }

/-- A codec quality, clamped to 1–100. -/
def withCompressionQuality (c : CacheConfig) (q : Nat) : CacheConfig :=
  { c with compressionQuality := max 1 (min q 100) }

/-- Compression on or off. -/
def withCompression (c : CacheConfig) (b : Bool) : CacheConfig := { c with compressionEnabled := b }

/-- A pool of `mb` MiB, clamped to 16–512 MiB. -/
def withMemoryPoolMb (c : CacheConfig) (mb : Nat) : Except Overflow CacheConfig := do
  pure { c with memoryPoolSize := clampPoolSize (← bytesOfMb mb) }

/-- A page cache of `n` items, at least one. -/
def withPageCacheItems (c : CacheConfig) (n : Nat) : CacheConfig := { c with pageCacheItems := max n 1 }

/-- A page cache of `mb` MiB, at least one. -/
def withPageCacheMb (c : CacheConfig) (mb : Nat) : Except Overflow CacheConfig := do
  pure { c with pageCacheMemory := max (← bytesOfMb mb) mebibyte }

/-- The compressed cache size in whole MiB. -/
def compressedCacheMb (c : CacheConfig) : Nat := c.compressedCacheSize / mebibyte

/-- The pool size in whole MiB. -/
def memoryPoolMb (c : CacheConfig) : Nat := c.memoryPoolSize / mebibyte

/-- The page cache memory in whole MiB. -/
def pageCacheMb (c : CacheConfig) : Nat := c.pageCacheMemory / mebibyte

end CacheConfig

end Config
end Thumbnailer
