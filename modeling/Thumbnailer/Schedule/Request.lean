import Thumbnailer.Decimal.Text
import Thumbnailer.Render.Backend

/-!
# Generation requests

A request for one page thumbnail: the page, the target box, the quality multiplier, a
priority (lower is more urgent), the instant it was submitted, how often it has been retried
and the rasterizer it prefers. Instants are ticks of a clock that every new request advances,
so later requests carry larger stamps.

Two requests describe the same work when they name the same page and box and their qualities
differ by less than 0.001 (a NaN quality is never the same work as anything).
-/

namespace Thumbnailer
namespace Schedule

/-- Two qualities closer than this describe the same work. -/
def qualityEpsilon : Float := 0.001

/-- A request for one page thumbnail. -/
structure Request where
  page : Nat
  size : Page.Target
  quality : Float
  /-- Lower is more urgent. -/
  priority : Int
  /-- When the request was made, as a tick of the requester's clock. -/
  submittedAt : Nat
  retryCount : Nat := 0
  backend : Render.Preference := .hybrid

namespace Request

/-- `{page}_{w}x{h}_q{quality}`, the quality in shortest round-trip form. -/
def cacheKey (r : Request) : String :=
  toString r.page ++ "_" ++ toString r.size.width ++ "x" ++ toString r.size.height ++ "_q" ++
    Decimal.display r.quality

/-- Same page, box and quality: queuing both would render twice. -/
def sameWork (r s : Request) : Bool :=
  r.page == s.page && r.size == s.size && (r.quality - s.quality).abs < qualityEpsilon

/-- The render request the backend receives. -/
def renderRequest (r : Request) : Render.Request :=
  { page := r.page, target := r.size, quality := r.quality, preference := r.backend }

end Request

end Schedule
end Thumbnailer
