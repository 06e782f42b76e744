import Thumbnailer.Cache.CostLru
import Thumbnailer.Cache.Pool
import Thumbnailer.Decimal.Text
import Thumbnailer.Raster.Bitmap
import Thumbnailer.Numeric.FloatOrder

/-!
# The compressed thumbnail cache

Rendered thumbnails are kept compressed with a lossy image codec, under a byte budget managed
by a `CostLru`. Each variant of a page has its own `Key`: the page, the target box, the DPI to
a tenth and the quality in percent.

The codec itself is not reproduced. What the cache needs of it is modelled by `Codec`: it
refuses a bitmap with a zero side or a side over 65535, and the size of what it produces
(`Codec.encodedSize`) is never under 500 bytes and stays small beside a mebibyte; the
recorded behaviour depends on nothing more. Encoding and decoding each borrow a staging
buffer of the bitmap's size from the attached pool and give it back, at the instant of the
lookup or insert that needs it.

Statistics: `hits + misses` counts lookups, `rejected` inserts whose compressed form alone
exceeded the capacity, `evictions` entries pushed out by inserts and by a smaller capacity.
-/

namespace Thumbnailer
namespace Cache

/-- One rendered variant of a page. -/
structure Key where
  page : Nat
  width : Nat
  height : Nat
  dpiTenths : Nat
  qualityPct : Nat
  deriving DecidableEq, Repr

/-- `round(max(x, 0) · scale)` as an unsigned 32-bit word: rounding half away from zero,
saturating, NaN giving 0. -/
def scaledWord (x scale : Float) : Nat := ((maxNum x 0) * scale).round.toUInt32.toNat

namespace Key

/-- The key of a page variant; DPI is kept to a tenth and quality as a percentage. -/
def make (page width height : Nat) (dpi quality : Float) : Key :=
  ⟨page, width, height, scaledWord dpi 10, scaledWord quality 100⟩

/-- The DPI the key stands for. -/
def dpi (k : Key) : Float := (Float.ofNat k.dpiTenths) / 10

/-- `{page}_{w}x{h}_{dpi:.1}dpi_q{pct}`. -/
def display (k : Key) : String :=
  toString k.page ++ "_" ++ toString k.width ++ "x" ++ toString k.height ++ "_" ++
    Decimal.fixed k.dpi 1 ++ "dpi_q" ++ toString k.qualityPct

end Key

/-- Cache statistics. -/
structure Stats where
  entries : Nat := 0
  bytesUsed : Nat := 0
  capacity : Nat := 0
  hits : Nat := 0
  misses : Nat := 0
  evictions : Nat := 0
  rejected : Nat := 0
  deriving Repr, DecidableEq

/-- The share of lookups that hit, 0 with none; the total is a word and may overflow. -/
def hitRateOf (hits misses : Nat) : Except Overflow Float := do
  let total ← checkedAdd hits misses
  pure (if total = 0 then 0 else Float.ofNat hits / Float.ofNat total)

/-- The share of the capacity in use, 0 with no capacity. -/
def utilizationOf (used capacity : Nat) : Float :=
  if capacity = 0 then 0 else Float.ofNat used / Float.ofNat capacity

/-- What the cache needs to know of the image codec. -/
structure Codec where
  /-- The largest side the codec accepts. -/
  maxSide : Nat := 65535

/-- The codec in use. -/
def codec : Codec := {}

/-- Whether the codec accepts a bitmap of this size. -/
def Codec.accepts (c : Codec) (w h : Nat) : Bool := 0 < w && 0 < h && w ≤ c.maxSide && h ≤ c.maxSide

/-- A stand-in for the compressed size of a `w × h` page: over 500 bytes, far under a
mebibyte for thumbnails. -/
def Codec.encodedSize (_ : Codec) (w h : Nat) : Nat := 600 + w * h / 16

/-- The encoder as the cache sees it: the compressed size of a bitmap at a quality, or nothing
when the codec refuses the bitmap. -/
def Codec.encode (c : Codec) (b : Raster.Bitmap) (_quality : Nat) : Option Nat :=
  if c.accepts b.width b.height then some (c.encodedSize b.width b.height) else none

/-- What the cache keeps of an entry. -/
structure Stored where
  width : Nat
  height : Nat
  accessCount : Nat := 0

/-- A lookup's hit on an entry: its access count goes up by one, stopping at the largest 32-bit
word. -/
def Stored.hit (s : Stored) : Stored := { s with accessCount := min (s.accessCount + 1) u32Max }

/-- The cache. -/
structure Compressed where
  entries : CostLru Key Stored
  stats : Stats
  /-- Codec quality, 1–100. -/
  quality : Nat
  pool : Option Pool := none

/-- Why an insert failed. -/
inductive InsertError where
  | encode (width height : Nat)

namespace Compressed

/-- Clamps a codec quality to 1–100. -/
def clampQuality (q : Nat) : Nat := max 1 (min q 100)

/-- An empty cache of `capacity` bytes. -/
def create (capacity quality : Nat) (pool : Option Pool := none) : Compressed :=
  { entries := CostLru.empty capacity, stats := { capacity }, quality := clampQuality quality, pool }

/-- Entry count and bytes copied into the statistics. -/
def syncSizes (c : Compressed) : Compressed :=
  { c with stats := { c.stats with entries := c.entries.size, bytesUsed := c.entries.cost } }

/-- Borrows and returns a staging buffer of the given size from the pool at `now`, if one is
attached. -/
def stage (c : Compressed) (w h : Nat) (now : Instant) : Except Overflow Compressed :=
  match c.pool with
  | none => pure c
  | some p => do pure { c with pool := some (← p.borrow w h now) }

/-- Decodes the entry for `k` at `now`: a hit refreshes its recency and counts an access. -/
def lookup (c : Compressed) (k : Key) (now : Instant) : Except Overflow (Option Raster.Bitmap × Compressed) := do
  match c.entries.modify? k Stored.hit with
  | (none, _) => pure (none, { c with stats := { c.stats with misses := c.stats.misses + 1 } })
  | (some s, es) =>
    let c := { c with entries := es, stats := { c.stats with hits := c.stats.hits + 1 } }
    let c ← c.stage s.width s.height now
    pure (some (Raster.Bitmap.decodedOf s.width s.height), c)

/-- Compresses a bitmap with `encode` (its compressed size at the cache's quality, or nothing
when it cannot be encoded) and stores it: `false` when the compressed form alone exceeds the
capacity. Its staging buffer is borrowed at `now`. -/
def insertWith (encode : Raster.Bitmap → Nat → Option Nat) (c : Compressed) (k : Key) (b : Raster.Bitmap)
    (now : Instant) : Except Overflow (Except InsertError Bool × Compressed) := do
  let c ← c.stage b.width b.height now
  match encode b c.quality with
  | none => return (.error (.encode b.width b.height), c)
  | some cost =>
    match ← c.entries.insert k ⟨b.width, b.height, 0⟩ cost with
    | (.evicted ev, es) =>
      pure (.ok true, syncSizes { c with entries := es,
                                         stats := { c.stats with evictions := c.stats.evictions + ev.length } })
    | (.rejected _, _) => pure (.ok false, { c with stats := { c.stats with rejected := c.stats.rejected + 1 } })

/-- Compresses and stores a bitmap with the codec in use, at `now`. -/
def insert (c : Compressed) (k : Key) (b : Raster.Bitmap) (now : Instant) :
    Except Overflow (Except InsertError Bool × Compressed) :=
  insertWith codec.encode c k b now

/-- Whether a key is cached. -/
def contains (c : Compressed) (k : Key) : Bool := c.entries.contains k

/-- How many lookups have hit the entry since it was stored. -/
def accessCount (c : Compressed) (k : Key) : Option Nat := (c.entries.peek? k).map (·.accessCount)

/-- Drops every variant of a page, returning how many went. -/
def invalidatePage (c : Compressed) (page : Nat) : Nat × Compressed :=
  let (n, es) := c.entries.removeWhere (·.page = page)
  (n, syncSizes { c with entries := es })

/-- Drops every entry. -/
def clear (c : Compressed) : Compressed := syncSizes { c with entries := c.entries.clear }

/-- A new capacity, evicting least recently used entries that no longer fit. -/
def setCapacity (c : Compressed) (capacity : Nat) : Compressed :=
  let (ev, es) := c.entries.setMaxCost capacity
  syncSizes { c with entries := es,
                     stats := { c.stats with evictions := c.stats.evictions + ev.length, capacity } }

/-- A new codec quality, clamped to 1–100. -/
def setQuality (c : Compressed) (q : Nat) : Compressed := { c with quality := clampQuality q }

/-- The number of entries. -/
def size (c : Compressed) : Nat := c.entries.size

end Compressed
end Cache
end Thumbnailer
