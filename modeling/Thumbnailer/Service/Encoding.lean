import Thumbnailer.Service.Session
import Thumbnailer.Cache.Compressed
import Thumbnailer.Config.Names
import Thumbnailer.Render.Backend
import Thumbnailer.Render.Dpi
import Thumbnailer.Page.Synthetic
import Thumbnailer.Schedule.Release
import Thumbnailer.Generator.Rejection

/-!
# Reading and writing library values

How the service reads the library's inputs from request values (bitmaps, cache keys, page and
target sizes, documents, strategies, render modes, requests) and writes its results
(statistics, bitmaps with their checksums, errors, requests, completions).
-/

namespace Thumbnailer
namespace Service

open Value

def gradient (x y : Nat) : Raster.Rgba :=
  ⟨(4 * x % 256).toUInt8, (4 * y % 256).toUInt8, (2 * (x + y) % 256).toUInt8, 255⟩

def bitmapIn (j : Value) : Reply Raster.Bitmap := do
  let w ← j.u32 "width"
  let h ← j.u32 "height"
  match j.field? "pattern" with
  | some _ => pure (Raster.Bitmap.ofFn w h gradient)
  | none =>
    match j.field? "fill" with
    | none => pure (Raster.Bitmap.filled w h ⟨128, 128, 128, 255⟩)
    | some f => match ← (← Value.asList "fill" f).mapM (Value.asNatIn "fill" 255) with
      | [r, g, b, a] => pure (Raster.Bitmap.filled w h ⟨r.toUInt8, g.toUInt8, b.toUInt8, a.toUInt8⟩)
      | _ => bad "fill needs four channels"

def keyIn (j : Value) : Reply Cache.Key := do
  pure (Cache.Key.make (← j.u32 "page") (← j.u32 "width") (← j.u32 "height") (← j.f64 "dpi") (← j.f64 "quality"))

def cacheStatsOut (s : Cache.Stats) : Value :=
  .obj [("entries", .nat s.entries), ("capacity", .nat s.capacity), ("hits", .nat s.hits),
    ("misses", .nat s.misses), ("evictions", .nat s.evictions), ("rejected", .nat s.rejected)]

def poolStatsOut (s : Cache.Pool.Stats) : Value :=
  .obj [("entries", .nat s.entries), ("in_use", .nat s.inUse), ("bytes_reserved", .nat s.bytesReserved),
    ("capacity", .nat s.capacity), ("reuses", .nat s.reuses), ("allocations", .nat s.allocations),
    ("exhausted", .nat s.exhausted)]

def bitmapFields (b : Raster.Bitmap) : List (String × Value) :=
  [("size", Value.natPair b.width b.height), ("checksum", Value.opt .str b.checksum?)]

def bitmapOut (b : Raster.Bitmap) : Value :=
  .obj [("size", Value.natPair b.width b.height), ("checksum", Value.opt .str b.checksum?)]

def strategyIn (j : Value) (k : String) : Reply Cache.Strategy := do
  match Config.readStrategy (← j.text k) with
  | some s => pure s
  | none => bad ("unknown cache strategy \"" ++ (← j.text k) ++ "\"")

def policyName : Cache.Policy → String
  | .lru => "Lru"
  | .lfu => "Lfu"
  | .largestFirst => "LargestFirst"

def pageSizeIn (j : Value) (k : String) : Reply Page.Size := do
  let (w, h) ← pair j k Value.asFloat
  pure ⟨w, h⟩

def targetIn (j : Value) (k : String) : Reply Page.Target := do
  let (w, h) ← pair j k (Value.asNatIn · u32Max)
  pure ⟨w, h⟩

def qualityName : Render.Quality → String
  | .draft => "Draft"
  | .normal => "Normal"
  | .high => "High"
  | .ultra => "Ultra"

def qualityIn (s : String) : Reply Render.Quality :=
  match Render.Quality.read s with
  | .ok q => pure q
  | .error m => throw (failure "InvalidRenderQuality" m)

def cropIn (j : Value) : Reply (Option Page.Crop) := do
  match j.field? "crop" with
  | none => pure none
  | some c => pure (some ⟨← c.f64 "x", ← c.f64 "y", ← c.f64 "width", ← c.f64 "height"⟩)

def documentIn (j : Value) : Reply Page.Source := do
  let d ← j.need "document"
  let doc ← match d.field? "letter" with
    | some n => pure (Page.Synthetic.letter (← Value.asNatIn "letter" wordMax n))
    | none => pure ⟨← (← d.list "pages").mapM fun p => do
        match ← Value.asList "pages" p with
        | [w, h] => pure ⟨← Value.asFloat "pages" w, ← Value.asFloat "pages" h⟩
        | _ => bad "a page is a pair"⟩
  match d.field? "mode" with
  | none => pure doc.source
  | some m => match ← Value.asStr "mode" m with
    | "blank" => pure doc.source.blanked
    | "fail" => pure doc.source.corrupt
    | other => bad ("unknown document mode " ++ other)

def renderErrorOut (e : Render.RenderError) : List (String × Value) :=
  [("error", .str e.kind), ("message", .str e.message)]

def rasterOut (r : Except String Raster.Bitmap) : Value :=
  match r with
  | .ok b => .obj (bitmapFields b)
  | .error m => failure "SourceError" m

def preferenceIn (j : Value) : Reply Render.Preference := do
  match j.field? "preference" with
  | none => pure .hybrid
  | some v =>
    let s ← Value.asStr "preference" v
    match Config.readRenderMode s with
    | some p => pure p
    | none => bad ("unknown render mode \"" ++ s ++ "\"")

def scalingName : Render.ScalingMode → String
  | .fast => "Fast"
  | .smooth => "Smooth"

def backendIn (j : Value) (k : String) : Reply Render.Preference := do
  match j.field? k with
  | none => pure .hybrid
  | some v =>
    let s ← Value.asStr k v
    match Config.readRenderMode s with
    | some p => pure p
    | none => bad ("unknown render mode \"" ++ s ++ "\"")

def requestIn (j : Value) (stamp : Nat) : Reply Schedule.Request := do
  let page ← j.u64 "page"
  let w ← j.u32 "width"
  let h ← j.u32 "height"
  let quality ← j.optOr "quality" 1.0 Value.f64
  let priority ← j.optOr "priority" 0 Value.i32
  let backend ← backendIn j "backend"
  pure { page, size := ⟨w, h⟩, quality, priority, submittedAt := stamp, backend }

def requestOut (r : Schedule.Request) : Value :=
  .obj [("page", .nat r.page), ("size", Value.natPair r.size.width r.size.height), ("quality", .float r.quality),
    ("priority", .int r.priority), ("retry", .nat r.retryCount), ("backend", .str (Config.renderModeName r.backend))]

def requestsOut (rs : List Schedule.Request) : Value := .arr (rs.map requestOut)

def failureOut (f : Render.JobFailure) : Value :=
  .obj [("kind", .str f.kind), ("message", .str f.message), ("retryable", .bool f.retryable)]

def completionOut : Schedule.Completion → Value
  | .finished r b => .obj [("kind", .str "finished"), ("request", requestOut r), ("bitmap", Value.natPair b.width b.height)]
  | .retrying r e => .obj [("kind", .str "retrying"), ("request", requestOut r), ("error", failureOut e)]
  | .failed r e => .obj [("kind", .str "failed"), ("request", requestOut r), ("error", failureOut e)]
  | .discarded p => .obj [("kind", .str "discarded"), ("page", .nat p)]

def schedulerStatsOut (s : Schedule.SchedulerStats) : Value :=
  .obj [("submitted", .nat s.submitted), ("dispatched", .nat s.dispatched), ("completed", .nat s.completed),
    ("failed", .nat s.failed), ("retried", .nat s.retried), ("cancelled", .nat s.cancelled),
    ("discarded", .nat s.discarded)]

def admissionName : Schedule.Admission → String
  | .queued => "Queued"
  | .duplicate => "Duplicate"
  | .pageActive => "PageActive"

def notRunning : Value := .obj [("error", .str "NotRunning")]

end Service
end Thumbnailer
