import Thumbnailer.Service.Encoding
import Thumbnailer.Page.Folder

/-!
# Rendering requests

DPI calculation, names, page geometry, synthetic and folder documents, the render backend
session and render errors.
-/

namespace Thumbnailer
namespace Service

open Value

def dpiStep (c : Render.DpiCalculator) (j : Value) : String → Reply (Value × Render.DpiCalculator)
  | "thumbnail" => do
    let (d, c) := c.thumbnailDpi (← targetIn j "target") (← pageSizeIn j "page") (← j.f64 "quality")
    pure (.float d, c)
  | "set_dpr" => do pure (.null, c.setRatio (← j.f64 "ratio"))
  | "dpr" => pure (.float c.ratio, c)
  | "cached_entries" => pure (.nat c.cachedEntries, c)
  | "clear" => pure (.null, c.clear)
  | op => unknownStep "dpi" op

def runDpi (j : Value) : Reply Value := do
  runSteps (Render.DpiCalculator.create (← j.optOr "device_pixel_ratio" 1.0 Value.f64)) (← j.list "ops") dpiStep
    fun c => [("cached", .nat c.cachedEntries)]

def runViewerDpi (j : Value) : Reply Value := do
  let q ← qualityIn (← j.text "quality")
  let v := Render.ViewerProfile.create (← j.f64 "base_x") (← j.f64 "base_y") q
  pure (.obj [("base", Value.floatPair v.baseX v.baseY), ("dpi", (fun (a, b) => Value.floatPair a b) (v.effective (← j.f64 "zoom") (← j.f64 "dpr"))),
    ("quality", .str (qualityName q))])

def runRenderQuality (j : Value) : Reply Value := do
  let q ← qualityIn (← j.text "value")
  pure (.obj [("quality", .str (qualityName q)), ("multiplier", .float q.multiplier)])

def runNames (j : Value) : Reply Value := do
  let v ← j.text "value"
  let q ← match j.field? "quality" with
    | some x => pure (some (Config.clampQuality (← Value.asFloat "quality" x)))
    | none => pure none
  pure (.obj [("render_mode", Value.opt (.str ∘ Config.renderModeName) (Config.readRenderMode v)),
    ("cache_strategy", Value.opt (.str ∘ Config.strategyName) (Config.readStrategy v)),
    ("quality_clamp", Value.opt .float q)])

def runPixelsAt (j : Value) : Reply Value := do
  let p ← pageSizeIn j "page"
  let (w, h) := p.pixelsAt (← j.f64 "dpi_x") (← j.f64 "dpi_y")
  let t ← match j.field? "target" with
    | some _ => pure (some (← targetIn j "target"))
    | none => pure none
  pure (.obj [("pixels", Value.natPair w h), ("page_empty", .bool p.isEmpty), ("target_empty", Value.opt (fun t => .bool t.isEmpty) t)])

def runSyntheticRender (j : Value) : Reply Value := do
  let s ← documentIn j
  let p ← j.u64 "page"
  pure (.obj [("num_pages", .nat s.numPages),
    ("page_size", Value.opt (fun z => Value.floatPair z.width z.height) (s.pageSize p)),
    ("result", rasterOut (s.rasterize p (← j.f64 "dpi_x") (← j.f64 "dpi_y") (← cropIn j)))])

def backendStep (s : Page.Source) (b : Render.Backend) (now : Instant) (j : Value) : String → Reply (Value × Render.Backend)
  | "render" => do
    let page ← j.u64 "page"
    let w ← j.u32 "width"
    let h ← j.u32 "height"
    let quality ← j.optOr "quality" 1.0 Value.f64
    let preference ← preferenceIn j
    let r : Render.Request := { page, target := ⟨w, h⟩, quality, preference }
    let (out, b) ← lift (b.render s r now)
    let counts := [("cache_hit", .bool out.cacheHit), ("cpu_calls", .nat out.calls.cpu), ("gpu_calls", .nat out.calls.gpu)]
    match out.result with
    | .ok bm => pure (.obj (bitmapFields (if out.cacheHit then Raster.Bitmap.decodedOf bm.width bm.height else bm) ++ counts), b)
    | .error e => pure (.obj (renderErrorOut e ++ counts), b)
  | "render_page" => do
    let (bx, by_) ← match j.field? "base_dpi" with
      | none => pure (72.0, 72.0)
      | some _ => j.pair "base_dpi" Value.asFloat
    let q ← match Render.Quality.read (← j.optOr "quality" "high" Value.text) with
      | .ok q => pure q
      | .error m => bad m
    let v := Render.ViewerProfile.create bx by_ q
    match b.renderPage s (← j.u64 "page") v (← j.optOr "zoom" 1.0 Value.f64) with
    | .ok bm => pure (.obj (bitmapFields bm), b)
    | .error e => pure (.obj (renderErrorOut e), b)
  | "set_gpu_enabled" => do pure (.null, { b with gpuEnabled := ← j.flag "enabled" })
  | "set_compression_enabled" => do pure (.null, { b with compressionEnabled := ← j.flag "enabled" })
  | "set_dpr" => do let (r, b) := b.setRatio (← j.f64 "ratio"); pure (.float r, b)
  | "invalidate_page" => do
    let (n, c) := b.cache.invalidatePage (← j.u32 "page")
    pure (.nat n, { b with cache := c })
  | "clear_cache" => pure (.null, { b with cache := b.cache.clear })
  | "set_cache_capacity" => do pure (.null, { b with cache := b.cache.setCapacity (← j.u64 "capacity") })
  | "set_cache_quality" => do
    let c := b.cache.setQuality (← j.u8 "quality")
    pure (.nat c.quality, { b with cache := c })
  | "gpu_available" => pure (.bool b.gpuAvailable, b)
  | "flags" => pure (.obj [("gpu_enabled", .bool b.gpuEnabled), ("compression_enabled", .bool b.compressionEnabled)], b)
  | "scaling_mode" => do
    pure (.str (scalingName (Render.ScalingMode.choose (← j.f64 "ratio") (← j.u32 "width"))), b)
  | op => unknownStep "render" op

def runRender (j : Value) : Reply Value := do
  let s ← documentIn j
  let mut cfg : Config.CacheConfig := {}
  cfg := cfg.withCompression (← j.optOr "compression" true Value.flag)
  if let some q := j.field? "compression_quality" then
    cfg := cfg.withCompressionQuality (← Value.asNatIn "compression_quality" 255 q)
  let mut b := Render.Backend.create cfg (← j.optOr "device_pixel_ratio" 1.0 Value.f64) .standard
  if let some c := j.field? "cache_capacity" then
    b := { b with cache := b.cache.setCapacity (← Value.asNatIn "cache_capacity" wordMax c) }
  if let some g := j.field? "gpu" then
    b := { b with gpu := some (Render.Gpu.solid (← g.optOr "available" true Value.flag) (← g.optOr "fail" false Value.flag)) }
  runClockedSteps b (← j.list "ops") (backendStep s) fun b =>
    [("cache", cacheStatsOut b.cache.stats), ("pool", poolStatsOut b.pool.stats),
      ("dpi_entries", .nat b.dpi.cachedEntries)]

def renderErrorIn (j : Value) : Reply Render.RenderError := do
  match ← j.text "kind" with
  | "NoDocument" => pure .noDocument
  | "InvalidPage" => pure (.invalidPage (← j.u64 "page") (← j.u64 "page_count"))
  | "ZeroTargetSize" => pure (.zeroTargetSize (← j.u32 "width") (← j.u32 "height"))
  | "EmptyRaster" => pure (.emptyRaster (← j.u64 "page"))
  | "Source" => pure (.source (← j.u64 "page") (← j.text "message"))
  | "Gpu" => pure (.gpu (← j.text "message"))
  | "Panicked" => pure (.panicked (← j.text "message"))
  | k => bad ("unknown render error kind \"" ++ k ++ "\"")

def runRenderError (j : Value) : Reply Value := do
  let e ← renderErrorIn j
  let f := Render.JobFailure.render e
  pure (.obj [("message", .str e.message), ("retryable", .bool e.retryable),
    ("job_failure", .obj [("kind", .str f.kind), ("message", .str f.message), ("retryable", .bool f.retryable)])])

def runRequestError (j : Value) : Reply Value := do
  match ← j.text "kind" with
  | "NoDocument" => pure (.obj [("message", .str Generator.Rejection.noDocument.message)])
  | "InvalidPage" => pure (.obj [("message", .str (Generator.Rejection.invalidPage (← j.u64 "page") (← j.u64 "page_count")).message)])
  | "ZeroTargetSize" => pure (.obj [("message", .str (Generator.Rejection.zeroTargetSize (← j.u32 "width") (← j.u32 "height")).message)])
  | "WorkerPanicked" =>
    let f := Render.JobFailure.workerPanicked (← j.text "message")
    pure (.obj [("message", .str f.message), ("retryable", .bool f.retryable)])
  | k => bad ("unknown request error kind \"" ++ k ++ "\"")

def folderFileIn (j : Value) : Reply Page.DirEntry := do
  let name ← j.text "name"
  if (← j.optOr "dir" false Value.flag) then return ⟨name, .directory⟩
  match j.field? "text" with
  | some t => pure ⟨name, .text (← Value.asStr "text" t)⟩
  | none =>
    let fmt ← match ← j.optOr "format" "png" Value.text with
      | "png" => pure Page.ImageFormat.png
      | "jpeg" => pure Page.ImageFormat.jpeg
      | other => bad ("unknown image format " ++ other)
    pure ⟨name, .image fmt (← bitmapIn j)⟩

def runImageFolder (j : Value) : Reply Value := do
  let files ← (← j.list "files").mapM folderFileIn
  let missing ← j.optOr "missing_dir" false Value.flag
  let dir := if missing then "<dir>/absent" else "<dir>"
  match Page.openFolder dir (if missing then none else some files) with
  | .error m => pure (failure "OpenError" m)
  | .ok pages =>
    let s := Page.folderSource pages
    let steps ← (← j.list "ops").mapM fun st => do
      pure (rasterOut (s.rasterize (← st.u64 "page") (← st.f64 "dpi_x") (← st.f64 "dpi_y") (← cropIn st)))
    pure (.obj [("num_pages", .nat pages.length),
      ("pages", .arr (pages.map fun p => .obj [("file", .str p.file), ("size", Value.floatPair p.size.width p.size.height)])),
      ("steps", .arr steps)])

end Service
end Thumbnailer
