import Thumbnailer.Service.Configs
import Thumbnailer.Service.Session
import Thumbnailer.Viewer.Model

/-!
# Generator requests

A session drives a generator, and a thumbnail model over it when the request asks for one.
Render jobs wait on their page lookup until a step lets them through (`finish`,
`finish_next`, `run_all`); stopping and replacing the document wind the jobs down first. After
each step the session waits for the workers to settle; a job that never reaches its page lookup
keeps it from settling, and the request ends with a panic.

After each step the answer shows the events the generator sent during the step, the queue
and job counts, the live and cancelled running jobs by page, and the state of every page
below 64 that is not idle.
-/

namespace Thumbnailer
namespace Service

open Value Generator Viewer

/-- A generator session: the generator, the model if any, and the session's own subscription
to the generator's events with what it received during the last step. -/
structure GeneratorSession where
  engine : Engine
  model : Option Model
  watcher : Nat
  events : List Event := []

/-- An event. -/
def eventOut : Event → Value
  | .generated p size q b => .obj [("event", .str "generated"), ("page", .nat p),
      ("size", .natPair size.width size.height), ("quality", .float q), ("bitmap", .natPair b.width b.height)]
  | .error p m => .obj [("event", .str "error"), ("page", .nat p), ("message", .str m)]
  | .cancelled p => .obj [("event", .str "cancelled"), ("page", .nat p)]
  | .queueSize n => .obj [("event", .str "queue"), ("n", .nat n)]
  | .activeJobs n => .obj [("event", .str "active"), ("n", .nat n)]
  | .progress c t => .obj [("event", .str "progress"), ("completed", .nat c), ("total", .nat t)]

/-- A refused request. -/
def rejectionOut (e : Rejection) : Value := .obj [("error", .str e.kind), ("message", .str e.message)]

/-- A request's answer: `{"ok": value}` or the refusal. -/
def admittedOut {α : Type} (f : α → Value) : Except Rejection α → Value
  | .ok a => .obj [("ok", f a)]
  | .error e => rejectionOut e

/-- How the document behaves for a job let through, from a `result` field. -/
def lookupIn (j : Value) : Reply Lookup := do
  match j.field? "result" with
  | none => pure .found
  | some (.str "ok") => pure .found
  | some (.str "blank") => pure .blank
  | some (.str "missing_page") => pure .missing
  | some (.str other) => bad ("unknown finish result \"" ++ other ++ "\"")
  | some v =>
    if let some m := v.field? "fail" then pure (.failing (← asStr "fail" m))
    else if let some m := v.field? "panic" then pure (.panics (← asStr "panic" m))
    else if (v.field? "panic_any").isSome then pure (.panics "unknown panic")
    else bad "unknown finish result"

/-- An optional document. -/
def documentOpt (j : Value) : Reply (Option Page.Source) := do
  if (j.field? "document").isSome then pure (some (← documentIn j)) else pure none

/-- An optional box from `width` and `height`. -/
def sizeOpt (j : Value) (default : Page.Target) : Reply (Option Page.Target) := do
  if (j.field? "width").isSome || (j.field? "height").isSome then
    pure (some ⟨← j.optOr "width" default.width u32, ← j.optOr "height" default.height u32⟩)
  else pure none

/-- A render mode by name. -/
def preferenceOf (s : String) : Reply Render.Preference :=
  match Config.readRenderMode s with
  | some p => pure p
  | none => bad ("unknown render mode \"" ++ s ++ "\"")

def notRunningOut : Value := .obj [("error", .str "NotRunning")]

/-- A generator step. -/
def engineStep (g : Engine) (now : Instant) (j : Value) : String → Reply (Value × Engine)
  | "generate" => do
    let (r, g) := g.generate (← j.u64 "page") (← j.optOr "priority" 0 i32)
    pure (admittedOut (fun _ => .null) r, g)
  | "generate_with" => do
    let size ← sizeOpt j g.thumbnailSize
    let quality ← j.optional "quality" f64
    let backend ← if (j.field? "backend").isSome then some <$> preferenceOf (← j.text "backend") else pure none
    let (r, g) := g.generateWith (← j.u64 "page") { size, quality, priority := ← j.optOr "priority" 0 i32, backend }
    pure (admittedOut (fun _ => .null) r, g)
  | "range" => do
    let (r, g) := g.generateRange (← j.u64 "start") (← j.u64 "end") (← sizeOpt j g.thumbnailSize) (← j.optional "quality" f64)
    pure (admittedOut .nat r, g)
  | "batch" => do
    let pages ← (← j.list "pages").mapM (asNatIn "pages" wordMax)
    let (r, g) := g.generateBatch pages
    pure (admittedOut .nat r, g)
  | "finish" => do
    match ← lift (g.finishPage (← j.u64 "page") (← lookupIn j) now) with
    | some g => pure (.null, g)
    | none => pure (notRunningOut, g)
  | "finish_next" => do
    match ← lift (g.finishNext (← lookupIn j) now) with
    | some (p, g) => pure (.nat p, g)
    | none => pure (notRunningOut, g)
  | "run_all" => do let (n, g) ← lift (g.runAll now); pure (.nat n, g)
  | "tick" => do let (n, g) := g.tick now; pure (.nat n, g)
  | "cancel" => do pure (.null, g.cancelRequest (← j.u64 "page"))
  | "set_priority" => do pure (.null, g.setPriority (← j.u64 "page") (← j.i32 "priority"))
  | "clear_queue" => pure (.null, g.clearQueue)
  | "pause" => pure (.null, g.pause)
  | "resume" => pure (.null, g.resume)
  | "stop" => do pure (.null, ← lift (g.shutdown now))
  | "start" => pure (.null, g.start)
  | "set_document" => do pure (.null, ← lift (g.setDocument (← documentOpt j) now))
  | "set_thumbnail_size" => do pure (.null, g.setThumbnailSize ⟨← j.u32 "width", ← j.u32 "height"⟩)
  | "set_quality" => do pure (.null, g.setQuality (← j.f64 "quality"))
  | "set_max_concurrent_jobs" => do pure (.null, g.setMaxConcurrentJobs (← j.u64 "jobs"))
  | "set_max_retries" => do pure (.null, g.setMaxRetries (← j.u32 "retries"))
  | "set_render_mode" => do pure (.null, g.setRenderMode (← preferenceOf (← j.text "mode")))
  | "set_cache_strategy" => do pure (.null, g.setCacheStrategy (← strategyIn j "strategy"))
  | "set_gpu_enabled" => do pure (.null, g.setGpuEnabled (← j.flag "enabled"))
  | "set_compression_enabled" => do pure (.null, g.setCompressionEnabled (← j.flag "enabled"))
  | "set_compression_quality" => do pure (.null, g.setCompressionQuality (← j.u8 "quality"))
  | "set_cache_capacity" => do pure (.null, g.setCacheCapacity (← j.u64 "capacity"))
  | "set_memory_pool_size" => do pure (.null, g.setMemoryPoolSize (← j.u64 "bytes"))
  | "set_dpr" => do pure (.null, g.setDevicePixelRatio (← j.f64 "ratio"))
  | "page_state" => do pure (.str (g.pageState (← j.u64 "page")).name, g)
  | "is_generating" => do pure (.bool (g.isGenerating (← j.u64 "page")), g)
  | "statistics" => do
    let s ← lift g.statistics
    pure (.obj [("total_generated", .nat s.totalGenerated), ("total_errors", .nat s.totalErrors),
      ("success_rate", .float s.successRate), ("queue_size", .nat s.queueSize), ("active_jobs", .nat s.activeJobs),
      ("scheduler", schedulerStatsOut s.scheduler), ("cache", cacheStatsOut s.cache), ("pool", poolStatsOut s.pool)], g)
  | "settings" => pure (.obj [("thumbnail_size", .natPair g.thumbnailSize.width g.thumbnailSize.height),
      ("quality", .float g.quality), ("max_concurrent_jobs", .nat g.scheduler.limit),
      ("max_retries", .nat g.scheduler.maxRetries), ("render_mode", .str (Config.renderModeName g.renderMode)),
      ("cache_strategy", .str (Config.strategyName g.cacheStrategy)), ("gpu_available", .bool g.gpuAccelerationAvailable),
      ("compression_enabled", .bool g.backend.compressionEnabled), ("compression_quality", .nat g.backend.cache.quality),
      ("device_pixel_ratio", .float g.backend.dpi.ratio), ("memory_pool_usage", .nat g.backend.pool.reserved),
      ("page_count", .nat g.pageCount)], g)
  | op => unknownStep "generator" op

/-- A model step. -/
def modelStep (m : Model) (g : Engine) (now : Instant) (j : Value) : String → Reply (Value × Model × Engine)
  | "model_request" => do
    let (b, m, g) := m.request g (← j.u64 "page") now
    pure (Value.opt (fun b => .natPair b.width b.height) b, m, g)
  | "model_request_range" => do
    let (n, m, g) := m.requestRange g (← j.u64 "start") (← j.u64 "end") now
    pure (.nat n, m, g)
  | "model_thumbnail" => do
    pure (Value.opt (fun b => .natPair b.width b.height) (m.thumbnail (← j.u64 "page")), m, g)
  | "model_sync" => do let (n, m, g) ← lift (m.sync g now); pure (.nat n, m, g)
  | "model_status" => do
    let page ← j.u64 "page"
    pure (.obj [("loading", .bool (m.isLoading page)), ("error", .bool (m.errorMessage page).isSome),
      ("message", Value.opt .str (m.errorMessage page))], m, g)
  | "model_viewport" => do
    let (m, g) := m.setViewport g (← j.u64 "start") (← j.u64 "end") (← j.optOr "margin" m.config.viewportMargin u64)
    pure (Value.opt (fun (a, b) => .natPair a b) (m.viewport.bind (·.visibleRange)), m, g)
  | "model_preload" => do
    let (n, m, g) := m.preload g (← j.u64 "first") (← j.u64 "last")
    pure (.nat n, m, g)
  | "model_refresh" => do let (m, g) := m.refresh g (← j.u64 "page"); pure (.null, m, g)
  | "model_clear_cache" => pure (.null, m.clearCache, g)
  | "model_set_cache_size" => do pure (.null, m.setCacheSize (← j.u64 "items"), g)
  | "model_set_memory_limit" => do pure (.null, m.setMemoryLimit (← j.u64 "bytes"), g)
  | "model_cleanup" => do let (n, m) := m.cleanup now; pure (.nat n, m, g)
  | "model_cache_stats" => pure (.obj [("entries", .nat m.cache.entries.length), ("bytes_used", .nat m.cache.bytesUsed),
      ("capacity", .nat m.cache.maxBytes), ("hits", .nat m.cache.hits), ("misses", .nat m.cache.misses),
      ("evictions", .nat m.cache.evictions), ("rejected", .nat m.cache.rejected)], m, g)
  | "model_set_thumbnail_size" => do
    let (m, g) := m.setThumbnailSize g ⟨← j.u32 "width", ← j.u32 "height"⟩
    pure (.null, m, g)
  | "model_set_quality" => do let (m, g) := m.setQuality g (← j.f64 "quality"); pure (.null, m, g)
  | "model_set_document" => do let (m, g) ← lift (m.setDocument g (← documentOpt j) now); pure (.null, m, g)
  | "model_config" => pure (.obj [("preload_range", .nat m.config.preloadRange),
      ("viewport_margin", .nat m.config.viewportMargin), ("lazy_loading", .bool m.config.lazyLoading),
      ("adaptive_caching", .bool m.config.adaptiveCaching)], m, g)
  | op => unknownStep "generator" op

/-- Whether the workers have settled as a step waits for them: every live job is running,
waiting on its page lookup, or every worker is busy. A job that failed before its lookup was run
to the end at once and is still live with no worker on it, so its step never settles. -/
def settled (s : Schedule.Scheduler) : Bool :=
  s.workers ≤ s.running.length || s.active.all fun j => s.running.any (·.id == j.id)

/-- One session step; the events it caused are kept for the snapshot. -/
def generatorStep (s : GeneratorSession) (now : Instant) (j : Value) (op : String) : Reply (Value × GeneratorSession) := do
  let (r, s) ← if op.startsWith "model_" then
      match s.model with
      | none => bad "no model in this session"
      | some m => do
        let (r, m, g) ← modelStep m s.engine now j op
        pure (r, { s with engine := g, model := some m })
    else do
      let (r, g) ← engineStep s.engine now j op
      pure (r, { s with engine := g })
  if !settled s.engine.scheduler then panicked "driver: workers did not settle"
  match s.engine.bus.drain s.watcher with
  | some (events, bus) => pure (r, { s with engine := { s.engine with bus }, events })
  | none => pure (r, { s with events := [] })

/-- The state shown after each step. -/
def generatorSnapshot (s : GeneratorSession) : List (String × Value) :=
  let g := s.engine
  let pages (js : List Schedule.Job) : Value := .nats ((js.map (·.request.page)).mergeSort (· ≤ ·))
  let shown := (g.states.snapshot.filter fun (p, st) => p < min g.pageCount 64 && st != .idle)
  [("events", .arr (s.events.map eventOut)), ("queue", .nat g.queueSize), ("active", .nat g.activeJobs),
   ("paused", .bool g.scheduler.paused), ("running", .bool g.running), ("limit", .nat g.scheduler.limit),
   ("executing", pages g.scheduler.executing), ("stragglers", pages g.scheduler.stragglers),
   ("states", .obj (shown.map fun (p, st) => (toString p, .str st.name)))]

/-- The model settings a request gives, on top of the defaults. -/
def modelConfigIn (v : Value) : Reply Config.ModelConfig := do
  pure { preloadRange := ← v.optOr "preload_range" 5 u64, viewportMargin := ← v.optOr "viewport_margin" 2 u64,
         lazyLoading := ← v.optOr "lazy_loading" true flag, adaptiveCaching := ← v.optOr "adaptive_caching" true flag }

def runGenerator (j : Value) : Reply Value := do
  let config ← generatorBuildersFrom { batchIntervalMs := 1000000000 } (← j.optOr "config" [] list)
  let gpu ← match j.field? "gpu" with
    | none => pure none
    | some v => pure (some (Render.Gpu.solid (← v.optOr "available" true flag) (← v.optOr "fail" false flag)))
  let g := (Engine.create config gpu .standard).replaceDocument (← documentOpt j)
  let (model, g) ← match j.field? "model" with
    | none => pure (none, g)
    | some v => do
      let (m, g) := Model.create g (← modelConfigIn v) config.cache
      pure (some m, g)
  let (watcher, bus) := g.bus.subscribe
  runClockedSteps { engine := { g with bus }, model, watcher } (← j.list "ops") generatorStep generatorSnapshot

end Service
end Thumbnailer
