import Thumbnailer.Config.Cache
import Thumbnailer.Config.Env
import Thumbnailer.Config.Toml
import Thumbnailer.Decimal.Text

/-!
# The cache configuration on disk and in the environment

A cache configuration file is a TOML table with sizes in mebibytes; every key is optional
and no other key is allowed:

```
compressed_cache_mb = 32
compression_quality = 85
compression_enabled = true
memory_pool_mb = 64
page_cache_items = 100
page_cache_mb = 128
```

A key holds a value of its type or the file is malformed: sizes and counts are integers of a
machine word, the quality a byte, the switch a boolean (a float such as `32.0` is refused).
The keys present are applied to the default configuration with the builders, in the order
above, so the same clamps apply and an overflowing size aborts.

The environment variables `READIUM_COMPRESSED_CACHE_MB`, `READIUM_COMPRESSION_QUALITY`,
`READIUM_COMPRESSION`, `READIUM_MEMORY_POOL_MB`, `READIUM_PAGE_CACHE_ITEMS` and
`READIUM_PAGE_CACHE_MB` are read and applied in that order.

A configuration is written and read through a TOML library (`Toml.Library`): the writer gets
the fields of every key, and the fields the reader returns are read as a file. `Toml.library`
writes one line per plain field and then each table under its header, and reads with the
reader of `Thumbnailer.Config.Toml`.
-/

namespace Thumbnailer
namespace Config

namespace Toml

/-- An integer in `0 ≤ · ≤ hi`. -/
def Value.unsigned? (hi : Nat) : Value → Option Nat
  | .int i => if 0 ≤ i && i ≤ hi then some i.toNat else none
  | _ => none

/-- A double; an integer is converted to the nearest one. -/
def Value.double? : Value → Option Float
  | .float x => some x
  | .int i => some (if i < 0 then -(Float.ofNat i.natAbs) else Float.ofNat i.toNat)
  | _ => none

/-- A boolean. -/
def Value.bool? : Value → Option Bool
  | .bool b => some b
  | _ => none

/-- A string. -/
def Value.string? : Value → Option String
  | .str s => some s
  | _ => none

/-- A table's entries. -/
def Value.table? : Value → Option (List (String × Value))
  | .table fs => some fs
  | _ => none

/-- A double as written in a document: shortest digits, with a point. -/
def floatText (x : Float) : String :=
  if x.isNaN then "nan" else if x.isInf then (if x < 0 then "-inf" else "inf") else Decimal.literal x

/-- A line `key = value`. -/
def line (key value : String) : String := key ++ " = " ++ value ++ "\n"

/-- Whether a value is a table. -/
def Value.isTable : Value → Bool
  | .table _ => true
  | _ => false

/-- The text a value is written as: an integer in decimal, a double by its shortest digits, a
boolean as a word, a string between quotes. No setting is an array or a table, and neither has
a text of its own here. -/
def Value.text : Value → String
  | .int i => toString i
  | .float x => floatText x
  | .bool b => toString b
  | .str s => "\"" ++ s ++ "\""
  | .arr _ | .table _ => ""

/-- The lines `key = value` of fields, in order. -/
def lines (fs : List (String × Value)) : String :=
  String.join (fs.map fun f => line f.1 f.2.text)

/-- A document of fields: the plain ones line by line, then each table under its header. -/
def write (fs : List (String × Value)) : String :=
  lines (fs.filter fun f => !f.2.isTable) ++
    String.join (fs.filterMap fun f => f.2.table?.map fun ts => "\n[" ++ f.1 ++ "]\n" ++ lines ts)

/-- A TOML library as configuration files use it: a writer from fields to a document, and a
reader from a document to its fields, `none` when the document is malformed. -/
structure Library where
  write : List (String × Value) → String
  read : String → Option (List (String × Value))

/-- The writer above with the reader of `Thumbnailer.Config.Toml`. -/
def library : Library := ⟨write, parse⟩

end Toml

/-- A cache configuration file: the keys it sets. -/
structure CacheFile where
  compressedCacheMb : Option Nat := none
  compressionQuality : Option Nat := none
  compressionEnabled : Option Bool := none
  memoryPoolMb : Option Nat := none
  pageCacheItems : Option Nat := none
  pageCacheMb : Option Nat := none
  deriving DecidableEq, Repr

namespace CacheFile

/-- Sets one key, if it is a known key with a value of its type. -/
def set (f : CacheFile) : String × Toml.Value → Option CacheFile
  | ("compressed_cache_mb", v) => v.unsigned? wordMax >>= fun n => some { f with compressedCacheMb := n }
  | ("compression_quality", v) => v.unsigned? 255 >>= fun n => some { f with compressionQuality := n }
  | ("compression_enabled", v) => v.bool? >>= fun b => some { f with compressionEnabled := b }
  | ("memory_pool_mb", v) => v.unsigned? wordMax >>= fun n => some { f with memoryPoolMb := n }
  | ("page_cache_items", v) => v.unsigned? wordMax >>= fun n => some { f with pageCacheItems := n }
  | ("page_cache_mb", v) => v.unsigned? wordMax >>= fun n => some { f with pageCacheMb := n }
  | _ => none

/-- Reads a table; `none` when a key is unknown or has a value of the wrong type. -/
def read (fields : List (String × Toml.Value)) : Option CacheFile := fields.foldlM set {}

/-- Applies the keys present to a configuration, in order. -/
def apply (f : CacheFile) (c : CacheConfig) : Except Overflow CacheConfig := do
  let mut c := c
  if let some mb := f.compressedCacheMb then c ← c.withCompressedCacheMb mb
  if let some q := f.compressionQuality then c := c.withCompressionQuality q
  if let some b := f.compressionEnabled then c := c.withCompression b
  if let some mb := f.memoryPoolMb then c ← c.withMemoryPoolMb mb
  if let some n := f.pageCacheItems then c := c.withPageCacheItems n
  if let some mb := f.pageCacheMb then c ← c.withPageCacheMb mb
  pure c

/-- Every setting of a configuration. -/
def ofConfig (c : CacheConfig) : CacheFile where
  compressedCacheMb := some c.compressedCacheMb
  compressionQuality := some c.compressionQuality
  compressionEnabled := some c.compressionEnabled
  memoryPoolMb := some c.memoryPoolMb
  pageCacheItems := some c.pageCacheItems
  pageCacheMb := some c.pageCacheMb

/-- The fields of the keys present, in order. -/
def fields (f : CacheFile) : List (String × Toml.Value) :=
  let nat (k : String) : Option Nat → Option (String × Toml.Value) := Option.map fun n => (k, .int n)
  [nat "compressed_cache_mb" f.compressedCacheMb, nat "compression_quality" f.compressionQuality,
   f.compressionEnabled.map fun b => ("compression_enabled", .bool b),
   nat "memory_pool_mb" f.memoryPoolMb, nat "page_cache_items" f.pageCacheItems,
   nat "page_cache_mb" f.pageCacheMb].filterMap id

end CacheFile

namespace CacheConfig

/-- The configuration as a document written by `lib`: every setting. -/
def encode (lib : Toml.Library) (c : CacheConfig) : String := lib.write (CacheFile.ofConfig c).fields

/-- The configuration a document read by `lib` describes, on top of the default. -/
def decode (lib : Toml.Library) (s : String) : Load CacheConfig := do
  let some file := lib.read s >>= CacheFile.read | Load.fail .parse
  Load.word (file.apply {})

/-- The configuration as a document. -/
def toToml (c : CacheConfig) : String := encode Toml.library c

/-- The configuration a document describes, on top of the default. -/
def ofToml (s : String) : Load CacheConfig := decode Toml.library s

/-- The configuration the environment describes, on top of the default. -/
def fromEnv (env : Env) : Load CacheConfig := do
  let mut c : CacheConfig := {}
  if let some mb ← envWord env "READIUM_COMPRESSED_CACHE_MB" then c ← Load.word (c.withCompressedCacheMb mb)
  if let some q ← envByte env "READIUM_COMPRESSION_QUALITY" then c := c.withCompressionQuality q
  if let some b ← envBool env "READIUM_COMPRESSION" then c := c.withCompression b
  if let some mb ← envWord env "READIUM_MEMORY_POOL_MB" then c ← Load.word (c.withMemoryPoolMb mb)
  if let some n ← envWord env "READIUM_PAGE_CACHE_ITEMS" then c := c.withPageCacheItems n
  if let some mb ← envWord env "READIUM_PAGE_CACHE_MB" then c ← Load.word (c.withPageCacheMb mb)
  pure c

end CacheConfig

end Config
end Thumbnailer
