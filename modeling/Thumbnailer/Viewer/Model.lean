import Thumbnailer.Generator.Workers
import Thumbnailer.Cache.PageCache
import Thumbnailer.Schedule.Viewport

/-!
# The thumbnail model of a list view

The model sits between a list of thumbnails and the generator. It serves bitmaps from its
page cache, turns misses into generation requests prioritised by the viewport, and keeps for
every page whether it is loading and the last error.

* `request` answers a cached thumbnail (counting a hit); on a miss it requests the page unless
  it is already loading or, with lazy loading and a viewport set, lies outside the viewport's
  margin. A refused request is recorded as the page's error.
* `sync` takes the generator's events since the last call: a thumbnail at the current size and
  quality goes into the cache and clears the page's entry, an error is recorded, and a
  cancellation forgets the page if it is still cancelled.
* Setting the viewport reprioritises every loading page; preloading requests the uncached,
  idle pages around a range, widened by the preload range.
* A new size, quality or document forgets every thumbnail and entry, and the events that
  describe the old ones.

Pages are cache keys as 32-bit words. The calls that read or fill the cache, and those that
drive the generator's workers, take the instant they happen at.
-/

namespace Thumbnailer
namespace Viewer

open Generator Schedule Cache Config

/-- What the model knows of a page it asked for. -/
structure Item where
  loading : Bool := false
  error : Option String := none
  deriving DecidableEq, Repr

/-- The model's state; the generator it drives is passed alongside. -/
structure Model where
  config : ModelConfig
  cache : PageCache
  items : List (Nat × Item) := []
  viewport : Option Viewport := none
  /-- The model's subscription to the generator's events. -/
  inbox : Nat

/-- A page as a cache key. -/
def cacheKey (page : Nat) : Nat := page % Nat.pow 2 32

namespace Model

/-- A model over a generator, with a page cache sized from `cache`; it subscribes to the
generator's events. -/
def create (g : Engine) (config : ModelConfig) (cache : CacheConfig) : Model × Engine :=
  let c := PageCache.create cache.pageCacheItems cache.pageCacheMemory
  let c := if config.adaptiveCaching then c else c.setStrategy .lru
  let (inbox, bus) := g.bus.subscribe
  ({ config, cache := c, inbox }, { g with bus })

/-- The entry of a page. -/
def item? (m : Model) (page : Nat) : Option Item := m.items.lookup page

/-- Records a page's entry. -/
def setItem (m : Model) (page : Nat) (i : Item) : Model :=
  { m with items := (m.items.filter (·.1 != page)) ++ [(page, i)] }

/-- Forgets a page's entry; answers whether there was one. -/
def dropItem (m : Model) (page : Nat) : Bool × Model :=
  ((m.item? page).isSome, { m with items := m.items.filter (·.1 != page) })

/-- Whether a page is loading. -/
def isLoading (m : Model) (page : Nat) : Bool := (m.item? page).any (·.loading)

/-- The last error of a page. -/
def errorMessage (m : Model) (page : Nat) : Option String := (m.item? page).bind (·.error)

/-- Whether a page may be requested now. -/
def wants (m : Model) (page : Nat) : Bool :=
  !m.config.lazyLoading || m.viewport.all fun v => v.marginRange.any fun (a, b) => a ≤ page && page ≤ b

/-- The priority a request for a page gets. -/
def priorityFor (m : Model) (page : Nat) : Int := (m.viewport.map (·.priorityFor page)).getD defaultPriority

/-- Requests one page, recording it as loading or its refusal; answers whether it was
accepted. -/
def submit (m : Model) (g : Engine) (page : Nat) : Bool × Model × Engine :=
  match g.generate page (m.priorityFor page) with
  | (.ok (), g) => (true, m.setItem page { loading := true }, g)
  | (.error e, g) => (false, m.setItem page { error := some e.message }, g)

/-- The cached thumbnail of a page at `now`, requesting it on a miss. -/
def request (m : Model) (g : Engine) (page : Nat) (now : Instant) : Option Raster.Bitmap × Model × Engine :=
  let (hit, cache) := m.cache.get (cacheKey page) now
  let m := { m with cache }
  match hit with
  | some b => (some b, m, g)
  | none =>
    if m.isLoading page || !m.wants page then (none, m, g)
    else
      let (_, m, g) := m.submit g page
      (none, m, g)

/-- Requests every page between two bounds given in either order at `now`; answers how many
were cached. -/
def requestRange (m : Model) (g : Engine) (start stop : Nat) (now : Instant) : Nat × Model × Engine :=
  let first := min start stop
  (List.range (max start stop - first + 1)).foldl (fun (n, m, g) i =>
    match m.request g (first + i) now with
    | (some _, m, g) => (n + 1, m, g)
    | (none, m, g) => (n, m, g)) (0, m, g)

/-- The cached thumbnail of a page, without requesting anything. -/
def thumbnail (m : Model) (page : Nat) : Option Raster.Bitmap := m.cache.peek (cacheKey page)

/-- Whether a thumbnail matches the generator's current size and quality. -/
def isCurrent (g : Engine) (size : Page.Target) (quality : Float) : Bool :=
  size = g.thumbnailSize && (quality - g.quality).abs < qualityEpsilon

/-- Applies one event at `now`; answers whether a page was updated. -/
def apply (m : Model) (g : Engine) (now : Instant) : Event → Except Overflow (Bool × Model)
  | .generated page size quality b => do
    if !isCurrent g size quality then return (false, m)
    let (_, cache) ← m.cache.insert (cacheKey page) b now
    pure (true, { m with cache }.setItem page {})
  | .error page message => pure (true, m.setItem page { error := some message })
  | .cancelled page =>
    if g.pageState page = .cancelled then
      let (had, m) := m.dropItem page
      pure (had, m)
    else pure (false, m)
  | _ => pure (false, m)

/-- Applies one event at `now`, counting it when it updated a page. -/
def applyCounted (g : Engine) (now : Instant) (acc : Nat × Model) (e : Event) : Except Overflow (Nat × Model) := do
  let (updated, m) ← acc.2.apply g now e
  pure (if updated then acc.1 + 1 else acc.1, m)

/-- Applies the generator's events since the last call, at `now`; answers how many pages were
updated. -/
def sync (m : Model) (g : Engine) (now : Instant) : Except Overflow (Nat × Model × Engine) := do
  let some (events, bus) := g.bus.drain m.inbox | pure (0, m, g)
  let g := { g with bus }
  let (n, m) ← events.foldlM (applyCounted g now) (0, m)
  pure (n, m, g)

/-- Sets the visible pages and reprioritises every loading page. -/
def setViewport (m : Model) (g : Engine) (start stop margin : Nat) : Model × Engine :=
  let v := Viewport.create start stop margin
  let loading := (m.items.filter (·.2.loading)).map (·.1)
  ({ m with viewport := some v }, loading.foldl (fun g page => g.setPriority page (v.priorityFor page)) g)

/-- Requests the uncached, idle pages around `first ..= last`, widened by the preload range
and kept inside the document; answers how many requests were accepted. -/
def preload (m : Model) (g : Engine) (first last : Nat) : Nat × Model × Engine :=
  let count := g.pageCount
  if count = 0 then (0, m, g)
  else
    let lo := min first last - m.config.preloadRange
    let hi := min (saturatingAdd (max first last) m.config.preloadRange) (count - 1)
    if lo > hi then (0, m, g)
    else
      (List.range (hi - lo + 1)).foldl (fun (n, m, g) i =>
        let page := lo + i
        if m.cache.contains (cacheKey page) || m.isLoading page then (n, m, g)
        else
          match m.submit g page with
          | (true, m, g) => (n + 1, m, g)
          | (false, m, g) => (n, m, g)) (0, m, g)

/-- Drops a page's thumbnail everywhere and requests it again. -/
def refresh (m : Model) (g : Engine) (page : Nat) : Model × Engine :=
  let m := { m with cache := (m.cache.remove (cacheKey page)).2 }
  let g := { g with backend := { g.backend with cache := (g.backend.cache.invalidatePage (cacheKey page)).2 } }
  let g := g.cancelRequest page
  let m := (m.dropItem page).2
  let (_, m, g) := m.submit g page
  (m, g)

/-- Drops every cached thumbnail. -/
def clearCache (m : Model) : Model := { m with cache := m.cache.clear }

/-- A new bound on the number of cached thumbnails. -/
def setCacheSize (m : Model) (items : Nat) : Model := { m with cache := m.cache.setMaxItems items }

/-- A new bound on the bytes of cached thumbnails. -/
def setMemoryLimit (m : Model) (bytes : Nat) : Model := { m with cache := m.cache.setMaxBytes bytes }

/-- Evicts the thumbnails cold and idle at `now`; answers how many were dropped. -/
def cleanup (m : Model) (now : Instant) : Nat × Model :=
  let (n, cache) := m.cache.cleanupAt now
  (n, { m with cache })

/-- Forgets every thumbnail, every entry and the pending events. -/
def reset (m : Model) (g : Engine) : Model × Engine :=
  let m := { m with cache := m.cache.clear, items := [] }
  match g.bus.drain m.inbox with
  | some (_, bus) => (m, { g with bus })
  | none => (m, g)

/-- A new thumbnail size for the generator; every thumbnail is forgotten. -/
def setThumbnailSize (m : Model) (g : Engine) (size : Page.Target) : Model × Engine :=
  if size = g.thumbnailSize then (m, g) else m.reset (g.setThumbnailSize size)

/-- A new quality for the generator; every thumbnail is forgotten. -/
def setQuality (m : Model) (g : Engine) (q : Float) : Model × Engine := m.reset (g.setQuality q)

/-- A new document for the generator at `now`; every thumbnail is forgotten. -/
def setDocument (m : Model) (g : Engine) (src : Option Page.Source) (now : Instant) :
    Except Overflow (Model × Engine) := do
  pure (m.reset (← g.setDocument src now))

end Model

end Viewer
end Thumbnailer
