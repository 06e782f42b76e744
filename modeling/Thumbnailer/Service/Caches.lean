import Thumbnailer.Service.Encoding
import Thumbnailer.Cache.CostLru
import Thumbnailer.Cache.PageCache

/-!
# Cache requests

Sessions over the cost-bounded LRU map, the compressed cache, the page cache and the buffer
pool, and the one-shot cache key and statistics requests.
-/

namespace Thumbnailer
namespace Service

open Value

def lruStep (c : Cache.CostLru Nat Int) (j : Value) : String → Reply (Value × Cache.CostLru Nat Int)
  | "insert" => do
    match ← lift (c.insert (← j.u64 "key") (← j.i64 "value") (← j.u64 "cost")) with
    | (.evicted ps, c) => pure (.obj [("evicted", .arr (ps.map fun (k, v) => .arr [.int k, .int v]))], c)
    | (.rejected v, c) => pure (.obj [("rejected", .int v)], c)
  | "get" => do let (v, c) := c.get? (← j.u64 "key"); pure (Value.opt .int v, c)
  | "get_mut" => do
    let add ← j.i64 "add"
    let (v, c) := c.modify? (← j.u64 "key") (Word.addI64Wrapping · add)
    pure (Value.opt .int v, c)
  | "peek" => do pure (Value.opt .int (c.peek? (← j.u64 "key")), c)
  | "contains" => do pure (.bool (c.contains (← j.u64 "key")), c)
  | "remove" => do let (v, c) := c.remove? (← j.u64 "key"); pure (Value.opt .int v, c)
  | "pop_lru" => do let (v, c) := c.popLru?; pure (Value.opt (fun (k, v) => .arr [.int k, .int v]) v, c)
  | "remove_where" => do
    match j.field? "keys" with
    | some ks =>
      let keys ← (← Value.asList "keys" ks).mapM (Value.asNatIn "keys" wordMax)
      let (n, c) := c.removeWhere (keys.contains ·)
      pure (.int n, c)
    | none =>
      let m ← j.u64 "mod"
      let r ← j.u64 "rem"
      if m = 0 then bad "mod must be positive" else
      let (n, c) := c.removeWhere (· % m = r)
      pure (.int n, c)
  | "set_max_cost" => do
    let (ev, c) := c.setMaxCost (← j.u64 "max_cost")
    pure (.obj [("evicted", .arr (ev.map fun (k, v) => .arr [.int k, .int v]))], c)
  | "clear" => pure (.null, c.clear)
  | "len" => pure (.int c.size, c)
  | "is_empty" => pure (.bool (c.size = 0), c)
  | op => unknownStep "lru" op

def runLru (j : Value) : Reply Value := do
  runSteps (Cache.CostLru.empty (← j.u64 "max_cost")) (← j.list "ops") lruStep fun c =>
    [("keys", Value.nats c.keys), ("cost", .int c.cost), ("max_cost", .int c.maxCost), ("len", .int c.size)]

def runCacheKey (j : Value) : Reply Value := do
  let k ← keyIn j
  pure (.obj [("page", .nat k.page), ("width", .nat k.width), ("height", .nat k.height),
    ("dpi_tenths", .nat k.dpiTenths), ("quality_pct", .nat k.qualityPct), ("dpi", .float k.dpi),
    ("display", .str k.display)])

def compressedStep (c : Cache.Compressed) (now : Instant) (j : Value) : String → Reply (Value × Cache.Compressed)
  | "insert" => do
    match ← lift (c.insert (← keyIn (← j.need "key")) (← bitmapIn (← j.need "bitmap")) now) with
    | (.ok b, c) => pure (.obj [("stored", .bool b)], c)
    | (.error _, c) => pure (.obj [("error", .str "Encode")], c)
  | "lookup" => do
    let (b, c) ← lift (c.lookup (← keyIn (← j.need "key")) now)
    pure (Value.opt (fun b => .obj [("size", Value.natPair b.width b.height), ("opaque", .bool b.isOpaque)]) b, c)
  | "contains" => do pure (.bool (c.contains (← keyIn (← j.need "key"))), c)
  | "access_count" => do pure (Value.opt .nat (c.accessCount (← keyIn (← j.need "key"))), c)
  | "invalidate_page" => do let (n, c) := c.invalidatePage (← j.u32 "page"); pure (.nat n, c)
  | "clear" => pure (.null, c.clear)
  | "set_capacity" => do pure (.null, c.setCapacity (← j.u64 "capacity"))
  | "capacity" => pure (.nat c.entries.maxCost, c)
  | "set_quality" => do pure (.null, c.setQuality (← j.u8 "quality"))
  | "quality" => pure (.nat c.quality, c)
  | "len" => pure (.nat c.size, c)
  | "is_empty" => pure (.bool (c.size = 0), c)
  | "hit_rate" => do pure (.float (← lift (Cache.hitRateOf c.stats.hits c.stats.misses)), c)
  | op => unknownStep "compressed_cache" op

def runCompressed (j : Value) : Reply Value := do
  let pool ← match j.field? "pool" with
    | some v => pure (some (Cache.Pool.create (← Value.asNatIn "pool" wordMax v)))
    | none => pure none
  let c := Cache.Compressed.create (← j.u64 "capacity") (← j.u8 "quality") pool
  runClockedSteps c (← j.list "ops") compressedStep fun c =>
    [("stats", cacheStatsOut c.stats), ("quality", .nat c.quality)] ++
      (match c.pool with | some p => [("pool", poolStatsOut p.stats)] | none => [])

def runCacheStatsMath (j : Value) : Reply Value := do
  let rate ← lift (Cache.hitRateOf (← j.u64 "hits") (← j.u64 "misses"))
  pure (.obj [("hit_rate", .float rate), ("utilization", .float (Cache.utilizationOf (← j.u64 "bytes_used") (← j.u64 "capacity")))])

def pageCacheStep (c : Cache.PageCache) (now : Instant) (j : Value) : String → Reply (Value × Cache.PageCache)
  | "insert" => do
    let (ok, c) ← lift (c.insert (← j.u32 "page") (Raster.Bitmap.blank (← j.u32 "width") (← j.u32 "height")) now)
    pure (.bool ok, c)
  | "get" => do let (b, c) := c.get (← j.u32 "page") now; pure (Value.opt (fun b => Value.natPair b.width b.height) b, c)
  | "peek" => do pure (Value.opt (fun b => Value.natPair b.width b.height) (c.peek (← j.u32 "page")), c)
  | "remove" => do let (b, c) := c.remove (← j.u32 "page"); pure (Value.opt (fun b => Value.natPair b.width b.height) b, c)
  | "contains" => do pure (.bool (c.contains (← j.u32 "page")), c)
  | "clear" => pure (.null, c.clear)
  | "set_max_items" => do pure (.null, c.setMaxItems (← j.u64 "max_items"))
  | "set_max_bytes" => do pure (.null, c.setMaxBytes (← j.u64 "max_bytes"))
  | "set_strategy" => do pure (.null, c.setStrategy (← strategyIn j "strategy"))
  | "strategy" => pure (.str (Config.strategyName c.strategy), c)
  | "hit_rate" => pure (.float c.hitRate, c)
  | "current_policy" => pure (.str (policyName c.policy), c)
  | "access_count" => do pure (Value.opt .nat (c.accessCount (← j.u32 "page")), c)
  | "cleanup_at" => do let (n, c) := c.cleanupAt (← secsIn j); pure (.nat n, c)
  | "len" => pure (.nat c.entries.length, c)
  | "is_empty" => pure (.bool c.entries.isEmpty, c)
  | "bytes_used" => pure (.nat c.bytesUsed, c)
  | op => unknownStep "adaptive_cache" op

def runPageCache (j : Value) : Reply Value := do
  runClockedSteps (Cache.PageCache.create (← j.u64 "max_items") (← j.u64 "max_bytes")) (← j.list "ops") pageCacheStep fun c =>
    [("pages", Value.nats ((c.entries.map (·.page)).mergeSort (· ≤ ·))), ("bytes_used", .nat c.bytesUsed),
      ("capacity", .nat c.maxBytes), ("hits", .nat c.hits), ("misses", .nat c.misses),
      ("evictions", .nat c.evictions), ("rejected", .nat c.rejected)]

def poolStep (s : Cache.Lent) (now : Instant) (j : Value) : String → Reply (Value × Cache.Lent)
  | "acquire" => do
    let w ← j.u32 "width"
    let h ← j.u32 "height"
    match ← lift (s.acquire w h now) with
    | (some hd, s) => pure (.obj [("handle", .nat hd), ("len", .nat (w * h * 4))], s)
    | (none, s) => pure (.null, s)
  | "release" => do let (ok, s) := s.drop (← j.u64 "handle") now; pure (.bool ok, s)
  | "sweep_at" => do let (n, p) := s.pool.sweepAt (← secsIn j); pure (.nat n, { s with pool := p })
  | "set_capacity" => do pure (.null, { s with pool := s.pool.setCapacity (← j.u64 "capacity") })
  | "clear" => pure (.null, { s with pool := s.pool.clear })
  | "usage" => pure (.nat s.pool.reserved, s)
  | "capacity" => pure (.nat s.pool.capacity, s)
  | op => unknownStep "pool" op

def runPool (j : Value) : Reply Value := do
  let steps ← j.list "ops"
  let mut s : Cache.Lent := { pool := Cache.Pool.create (← j.u64 "capacity") }
  let mut outs : Array Value := #[]
  -- the steps happen at successive ticks, and the guards still held are dropped after them
  let mut k := 0
  for st in steps do
    k := k + 1
    let (r, s') ← poolStep s (Instant.tick k) st (← st.text "op")
    s := s'
    outs := outs.push (.obj [("result", r), ("stats", poolStatsOut s.pool.stats), ("held", Value.nats (s.held.map (·.1)))])
  let final := s.held.foldl (fun p (_, id) => p.release id (Instant.tick (k + 1))) s.pool
  pure (.obj [("steps", .arr outs.toList), ("final", poolStatsOut final.stats)])

end Service
end Thumbnailer
