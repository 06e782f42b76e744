import Thumbnailer.Numeric.Word
import Thumbnailer.Time.Instant
import Thumbnailer.Cache.Compressed
import Thumbnailer.Raster.Bitmap

/-!
# The page cache of decoded thumbnails

Consumers keep decoded thumbnails by page, bounded by an item count (at least one) and a byte
total (at least 1 MiB). When either bound is exceeded, a sweep evicts in rounds: each round
ranks the entries (all but the page just inserted) by the current policy and removes the first
quarter of the entry count, rounded up. The policies:

* `lru`: least recently accessed first;
* `lfu`: fewest accesses first, then least recently accessed;
* `largestFirst`: most bytes first, then least recently accessed.

The `adaptive` strategy uses `lru` while more than 70% of lookups hit (all of them, before
the first lookup) and `lfu` otherwise; `memoryAware` uses `largestFirst`.

A cleanup, at most once every thirty seconds, drops entries accessed fewer than twice and idle
for more than five minutes. The cache keeps no clock: a lookup, an insert and a cleanup each
take the instant they happen at.
-/

namespace Thumbnailer
namespace Cache

/-- How the cache chooses victims. -/
inductive Strategy where
  | lru
  | lfu
  | adaptive
  | memoryAware
  deriving DecidableEq, Repr

/-- The ranking one sweep applies. -/
inductive Policy where
  | lru
  | lfu
  | largestFirst
  deriving DecidableEq, Repr

/-- One cached page. -/
structure PageCache.Entry where
  page : Nat
  bitmap : Raster.Bitmap
  bytes : Nat
  lastAccessed : Instant
  accessCount : Nat

/-- The cache's state. Entries are kept in insertion order; no answer depends on it. -/
structure PageCache where
  entries : List PageCache.Entry := []
  bytesUsed : Nat := 0
  maxItems : Nat
  maxBytes : Nat
  strategy : Strategy := .adaptive
  hits : Nat := 0
  misses : Nat := 0
  evictions : Nat := 0
  rejected : Nat := 0
  lastCleanup : Instant := Instant.origin

namespace PageCache

/-- A cache bounded by `maxItems` (at least 1) and `maxBytes` (at least 1 MiB). -/
def create (maxItems maxBytes : Nat) : PageCache :=
  { maxItems := max maxItems 1, maxBytes := max maxBytes mebibyte }

/-- The share of lookups that hit; 1 before any lookup. -/
def hitRate (c : PageCache) : Float :=
  let total := c.hits + c.misses
  if total = 0 then 1 else Float.ofNat c.hits / Float.ofNat total

/-- The policy the next sweep applies. -/
def policy (c : PageCache) : Policy :=
  match c.strategy with
  | .lru => .lru
  | .lfu => .lfu
  | .memoryAware => .largestFirst
  | .adaptive => if c.hitRate > 0.7 then .lru else .lfu

/-- The rank of an entry under a policy; smaller goes first. -/
def rank (p : Policy) (e : Entry) : List Int :=
  let t : List Int := [e.lastAccessed.secs, e.lastAccessed.ticks]
  match p with
  | .lru => t
  | .lfu => (e.accessCount : Int) :: t
  | .largestFirst => (-(e.bytes : Int)) :: t

/-- Lexicographic order on ranks. -/
def rankLt : List Int → List Int → Bool
  | [], _ :: _ => true
  | a :: as, b :: bs => a < b || (a = b && rankLt as bs)
  | _, _ => false

/-- Whether a bound is exceeded. -/
def overLimit (c : PageCache) : Bool := c.entries.length > c.maxItems || c.bytesUsed > c.maxBytes

/-- Removes a page, returning its entry. -/
def take (c : PageCache) (page : Nat) : Option Entry × PageCache :=
  match c.entries.find? (·.page = page) with
  | none => (none, c)
  | some e => (some e, { c with entries := c.entries.filter (·.page ≠ page), bytesUsed := c.bytesUsed - e.bytes })

/-- One eviction round: the first quarter (rounded up, at least one) of the ranked entries
other than `protect`. -/
def evictRound (c : PageCache) (protect : Option Nat) : Option PageCache :=
  let candidates := c.entries.filter fun e => some e.page ≠ protect
  if candidates.isEmpty then none
  else
    let p := c.policy
    let ranked := candidates.mergeSort fun a b => !rankLt (rank p b) (rank p a)
    let batch := max ((c.entries.length + 3) / 4) 1
    let victims := (ranked.take batch).map (·.page)
    some (victims.foldl (fun c page => { (c.take page).2 with evictions := c.evictions + 1 }) c)

/-- Evicts in rounds until both bounds hold; each round removes at least one entry, so the
number of entries bounds the rounds. -/
def sweep (c : PageCache) (protect : Option Nat) : PageCache :=
  go c.entries.length c
where
  go : Nat → PageCache → PageCache
    | 0, c => c
    | fuel + 1, c =>
      if !c.overLimit then c
      else match c.evictRound protect with
        | none => c
        | some c' => go fuel c'

/-- Fetches a page at `now`, counting a hit or a miss; a hit refreshes the entry. -/
def get (c : PageCache) (page : Nat) (now : Instant) : Option Raster.Bitmap × PageCache :=
  match c.entries.find? (·.page = page) with
  | none => (none, { c with misses := c.misses + 1 })
  | some e =>
    let touch (x : Entry) : Entry :=
      if x.page = page then { x with lastAccessed := now, accessCount := min (x.accessCount + 1) u32Max } else x
    (some e.bitmap, { c with entries := c.entries.map touch, hits := c.hits + 1 })

/-- Fetches a page without touching anything. -/
def peek (c : PageCache) (page : Nat) : Option Raster.Bitmap :=
  (c.entries.find? (·.page = page)).map (·.bitmap)

/-- Whether a page is cached. -/
def contains (c : PageCache) (page : Nat) : Bool := (c.entries.find? (·.page = page)).isSome

/-- Stores a bitmap at `now`, then sweeps with the new page protected. A bitmap larger than
the byte bound is refused. -/
def insert (c : PageCache) (page : Nat) (b : Raster.Bitmap) (now : Instant) :
    Except Overflow (Bool × PageCache) := do
  let bytes := b.byteSize
  if bytes > c.maxBytes then return (false, { c with rejected := c.rejected + 1 })
  let c := (c.take page).2
  let used ← checkedAdd c.bytesUsed bytes
  let e : Entry := { page, bitmap := b, bytes, lastAccessed := now, accessCount := 1 }
  let c := { c with entries := c.entries ++ [e], bytesUsed := used }
  pure (true, c.sweep (some page))

/-- Removes a page. -/
def remove (c : PageCache) (page : Nat) : Option Raster.Bitmap × PageCache :=
  let (e, c) := c.take page
  (e.map (·.bitmap), c)

/-- Drops every entry. -/
def clear (c : PageCache) : PageCache := { c with entries := [], bytesUsed := 0 }

/-- A new item bound (at least 1), sweeping. -/
def setMaxItems (c : PageCache) (n : Nat) : PageCache := { c with maxItems := max n 1 }.sweep none

/-- A new byte bound (at least 1 MiB), sweeping. -/
def setMaxBytes (c : PageCache) (n : Nat) : PageCache := { c with maxBytes := max n mebibyte }.sweep none

/-- A new strategy; nothing is evicted until the next sweep. -/
def setStrategy (c : PageCache) (s : Strategy) : PageCache := { c with strategy := s }

/-- How many lookups have hit a page since it was stored (its insert counts as one). -/
def accessCount (c : PageCache) (page : Nat) : Option Nat :=
  (c.entries.find? (·.page = page)).map (·.accessCount)

/-- Drops cold idle entries at `now`, unless the last cleanup was under thirty seconds ago. -/
def cleanupAt (c : PageCache) (now : Instant) : Nat × PageCache :=
  if Instant.elapsedUnder now c.lastCleanup 30 then (0, c)
  else
    let stale := c.entries.filter fun e => e.accessCount < 2 && Instant.elapsedOver now e.lastAccessed 300
    let c := stale.foldl (fun c e => { (c.take e.page).2 with evictions := c.evictions + 1 })
      { c with lastCleanup := now }
    (stale.length, c)

/-- The statistics, in the shape of the compressed cache's. -/
def stats (c : PageCache) : Stats where
  entries := c.entries.length
  bytesUsed := c.bytesUsed
  capacity := c.maxBytes
  hits := c.hits
  misses := c.misses
  evictions := c.evictions
  rejected := c.rejected

end PageCache
end Cache
end Thumbnailer
