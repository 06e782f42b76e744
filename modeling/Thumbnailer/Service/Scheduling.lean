import Thumbnailer.Service.Encoding
import Thumbnailer.Schedule.Viewport
import Thumbnailer.Schedule.Cancel
import Thumbnailer.Generator.PageState
import Thumbnailer.Generator.Events
import Thumbnailer.Generator.Statistics

/-!
# Scheduling requests

Generation requests, the request queue, the job scheduler (whose jobs end as the request's
steps say), viewport priorities, page states, statistics arithmetic, cancellation tokens and
the event bus.
-/

namespace Thumbnailer
namespace Service

open Value

def runRequest (j : Value) : Reply Value := do
  let r ← requestIn j 0
  let rr := r.renderRequest
  let base := [("cache_key", .str r.cacheKey), ("request", requestOut r),
    ("render_request", .obj [("page", .nat rr.page), ("target", Value.natPair rr.target.width rr.target.height),
      ("quality", .float rr.quality), ("preference", .str (Config.renderModeName rr.preference))])]
  match j.field? "other" with
  | none => pure (.obj base)
  | some o =>
    let s ← requestIn o 1
    pure (.obj (base ++ [("same_work", .bool (r.sameWork s)), ("same_work_reverse", .bool (s.sameWork r))]))

/-- The queue together with the clock that stamps new requests. -/
structure Stamped where
  queue : Schedule.Queue := {}
  clock : Nat := 0

def queueStep (s : Stamped) (j : Value) : String → Reply (Value × Stamped)
  | "push" => do
    let r ← requestIn j (s.clock + 1)
    let (ok, q) := s.queue.push r
    pure (.bool ok, { queue := q, clock := s.clock + 1 })
  | "pop" => do let (r, q) := s.queue.pop; pure (Value.opt requestOut r, { s with queue := q })
  | "len" => pure (.nat s.queue.size, s)
  | "is_empty" => pure (.bool (s.queue.size = 0), s)
  | "contains_page" => do pure (.bool (s.queue.containsPage (← j.u64 "page")), s)
  | "clear" => do let (rs, q) := s.queue.clear; pure (requestsOut rs, { s with queue := q })
  | "remove_page" => do
    let p ← j.u64 "page"
    let (rs, q) := s.queue.removeWhere (·.page == p)
    pure (requestsOut rs, { s with queue := q })
  | "remove_priority_below" => do
    let p ← j.i32 "priority"
    let (rs, q) := s.queue.removeWhere (·.priority < p)
    pure (requestsOut rs, { s with queue := q })
  | "set_priority" => do
    let (n, q) := s.queue.setPriority (← j.u64 "page") (← j.i32 "priority")
    pure (.nat n, { s with queue := q })
  | op => unknownStep "queue" op

def runQueue (j : Value) : Reply Value := do
  runSteps ({} : Stamped) (← j.list "ops") queueStep fun s => [("len", .nat s.queue.size)]

/-- The render error a stub result names, for a request's page. -/
def renderErrorOf (kind msg : String) (pageCount : Nat) (page : Nat) : Option Render.RenderError :=
  match kind with
  | "empty_raster" => some (.emptyRaster page)
  | "no_document" => some .noDocument
  | "zero_target" => some (.zeroTargetSize 0 0)
  | "invalid_page" => some (.invalidPage page pageCount)
  | "source" => some (.source page msg)
  | "gpu" => some (.gpu msg)
  | "panicked" => some (.panicked msg)
  | _ => none

/-- The stub executor's result for a request, from a `result` field. -/
def executorIn (j : Value) : Reply Schedule.Executor := do
  let blank : Schedule.Executor := fun r => .ok (Raster.Bitmap.blank r.size.width r.size.height)
  match j.field? "result" with
  | none => pure blank
  | some v =>
    match v with
    | .str "ok" => pure blank
    | .str other => bad ("unknown finish result \"" ++ other ++ "\"")
    | _ =>
      if (v.field? "ok").isSome then
        let (w, h) ← v.pair "ok" (Value.asNatIn · u32Max)
        pure fun _ => .ok (Raster.Bitmap.blank w h)
      else if let some m := v.field? "panic" then
        let m ← Value.asStr "panic" m
        pure fun _ => .error (.workerPanicked m)
      else if (v.field? "panic_any").isSome then
        pure fun _ => .error (.workerPanicked "unknown panic")
      else if (v.field? "error").isSome then
        let kind ← v.text "error"
        let msg ← v.optOr "message" "boom" Value.text
        let count ← v.optOr "page_count" 0 Value.u64
        if (renderErrorOf kind msg count 0).isNone then bad ("unknown finish result \"" ++ kind ++ "\"") else
        pure fun r => match renderErrorOf kind msg count r.page with
          | some e => .error (Render.JobFailure.ofRender e)
          | none => blank r
      else bad "unknown finish result"

def schedulerConfigIn (j : Value) : Reply Schedule.SchedulerConfig := do
  match j.field? "config" with
  | none => pure {}
  | some c => pure { maxConcurrentJobs := ← c.optOr "max_concurrent_jobs" 6 Value.u64,
                     maxRetries := ← c.optOr "max_retries" 2 Value.u32,
                     batchSize := ← c.optOr "batch_size" 8 Value.u64,
                     adaptiveConcurrency := ← c.optOr "adaptive_concurrency" true Value.flag }

def pagesOf (js : List Schedule.Job) : Value := Value.nats ((js.map (·.request.page)).mergeSort (· ≤ ·))

def schedulerStep (s : Schedule.Scheduler) (j : Value) : String → Reply (Value × Schedule.Scheduler)
  | "submit" => do
    let (t, s) := s.tick
    let (a, s) := s.submit (← requestIn j t)
    pure (.str (admissionName a), s)
  | "dispatch" => do let (rs, s) := s.dispatch; pure (requestsOut rs, s)
  | "finish" => do
    let page ← j.u64 "page"
    let run ← executorIn j
    match s.finishPage page run with
    | (some c, s) => pure (completionOut c, s)
    | (none, s) => pure (notRunning, s)
  | "finish_next" => do
    let run ← executorIn j
    match s.finishNext run with
    | (some (p, some c), s) => pure (.obj [("page", .nat p), ("completion", completionOut c)], s)
    | (some (p, none), s) => pure (.obj [("page", .nat p), ("completion", .null)], s)
    | (none, s) => pure (notRunning, s)
  | "cancel" => do
    let (c, s) := s.cancel (← j.u64 "page")
    pure (.obj [("queued", .nat c.queued), ("in_flight", .bool c.inFlight)], s)
  | "set_priority" => do let (n, s) := s.setPriority (← j.u64 "page") (← j.i32 "priority"); pure (.nat n, s)
  | "clear_queue" => do let (rs, s) := s.clearQueue; pure (requestsOut rs, s)
  | "remove_queued" => do
    let w ← j.u32 "width"
    let h ← j.u32 "height"
    let (rs, s) := s.removeQueuedWhere (·.size == ⟨w, h⟩)
    pure (requestsOut rs, s)
  | "stop" => do
    let ((cs, queued, inFlight), s) := s.shutdown fun r => .ok (Raster.Bitmap.blank r.size.width r.size.height)
    pure (.obj [("stragglers", .arr (cs.map completionOut)), ("dropped_queued", requestsOut queued),
      ("dropped_in_flight", requestsOut inFlight)], s)
  | "pause" => pure (.null, s.pause)
  | "resume" => pure (.null, s.resume)
  | "adapt" => do let (n, s) := s.adaptConcurrency; pure (Value.opt .nat n, s)
  | "set_max_concurrent_jobs" => do pure (.null, s.setMaxConcurrentJobs (← j.u64 "jobs"))
  | "set_max_retries" => do pure (.null, s.setMaxRetries (← j.u32 "retries"))
  | "set_adaptive" => do let s := s.setAdaptive (← j.flag "enabled"); pure (.bool s.adaptive, s)
  | "has_active" => do pure (.bool (s.hasActive (← j.u64 "page")), s)
  | "is_queued" => do pure (.bool (s.isQueued (← j.u64 "page")), s)
  | "drain" => do let (cs, s) := s.drainCompletions; pure (.arr (cs.map completionOut), s)
  | op => unknownStep "scheduler" op

def runScheduler (j : Value) : Reply Value := do
  let s := Schedule.Scheduler.create (← schedulerConfigIn j)
  runSteps s (← j.list "ops") schedulerStep fun s =>
    [("queue", .nat s.queue.size), ("active", .nat s.active.length), ("idle", .bool s.isIdle),
      ("paused", .bool s.paused), ("limit", .nat s.limit), ("max_retries", .nat s.maxRetries),
      ("workers", .nat s.workers), ("executing", pagesOf s.executing), ("stragglers", pagesOf s.stragglers),
      ("stats", schedulerStatsOut s.stats)]

def rangeOut : Option (Nat × Nat) → Value
  | some (a, b) => .arr [.nat a, .nat b]
  | none => .null

def runViewport (j : Value) : Reply Value := do
  let v ← if (← j.optOr "hidden" false Value.flag) then pure Schedule.Viewport.hidden
    else pure (Schedule.Viewport.create (← j.u64 "first") (← j.u64 "last") (← j.u64 "margin"))
  let pages ← (← j.list "pages").mapM (Value.asNatIn "pages" wordMax)
  pure (.obj [("visible_range", rangeOut v.visibleRange), ("margin_range", rangeOut v.marginRange),
    ("priorities", .arr (pages.map fun p => .int (v.priorityFor p))),
    ("visible", .arr (pages.map fun p => .bool (v.isVisible p)))])

def pageStateIn (j : Value) (k : String) : Reply Generator.PageState := do
  let s ← j.text k
  match Generator.PageState.ofName? s with
  | some p => pure p
  | none => bad ("unknown page state \"" ++ s ++ "\"")

def pageStatesStep (t : Generator.PageStates) (j : Value) : String → Reply (Value × Generator.PageStates)
  | "transition" => do
    let (ok, t) := t.transition (← j.u64 "page") (← pageStateIn j "state")
    pure (.bool ok, t)
  | "get" => do pure (.str (t.get (← j.u64 "page")).name, t)
  | "count" => do pure (.nat (t.count (← pageStateIn j "state")), t)
  | "clear" => pure (.null, t.clear)
  | op => unknownStep "page_states" op

def runPageStates (j : Value) : Reply Value := do
  runSteps ({} : Generator.PageStates) (← j.list "ops") pageStatesStep fun t =>
    [("snapshot", .arr (t.snapshot.map fun (p, s) => .arr [.nat p, .str s.name]))]

def runTransitionMatrix : Value :=
  .obj (Generator.PageState.all.map fun s =>
    (s.name, .obj [("to", .arr ((Generator.PageState.all.filter s.canTransitionTo).map (.str ·.name))),
      ("pending", .bool s.isPending)]))

def runStatsMath (j : Value) : Reply Value := do
  let g ← j.u64 "generated"
  let rate ← lift (Generator.successRate g (← j.u64 "errors"))
  let avg := Generator.averageRenderNanos (← j.u64 "render_time_ns") g
  pure (.obj [("success_rate", .float rate), ("average_render_time_ns", .nat (avg % wordSize))])

def tokenStep (t : Schedule.TokenTable) (j : Value) : String → Reply (Value × Schedule.TokenTable)
  | "new" => do let (h, t) := t.fresh; pure (.nat h, t)
  | "clone" => do
    match t.clone (← j.u64 "id") with
    | some (h, t) => pure (.nat h, t)
    | none => bad "no such token"
  | "cancel" => do
    match t.cancel (← j.u64 "id") with
    | some t => pure (.null, t)
    | none => bad "no such token"
  | "check" => do
    match t.isCancelled (← j.u64 "id") with
    | some true => pure (failure "Cancelled" Schedule.cancelledMessage, t)
    | some false => pure (.str "ok", t)
    | none => bad "no such token"
  | op => unknownStep "token" op

def runToken (j : Value) : Reply Value := do
  runSteps ({} : Schedule.TokenTable) (← j.list "ops") tokenStep fun t =>
    [("cancelled", .arr (t.states.map .bool))]

def eventIn (j : Value) : Reply Generator.Event := do
  match ← j.text "event" with
  | "queue" => pure (.queueSize (← j.u64 "n"))
  | "active" => pure (.activeJobs (← j.u64 "n"))
  | "cancelled" => pure (.cancelled (← j.u64 "page"))
  | "error" => pure (.error (← j.u64 "page") (← j.text "message"))
  | "progress" => pure (.progress (← j.u64 "completed") (← j.u64 "total"))
  | "generated" => do
    let (w, h) ← j.pair "size" (Value.asNatIn · u32Max)
    let (bw, bh) ← j.pair "bitmap" (Value.asNatIn · u32Max)
    pure (.generated (← j.u64 "page") ⟨w, h⟩ (← j.f64 "quality") (Raster.Bitmap.blank bw bh))
  | e => bad ("unknown event \"" ++ e ++ "\"")

def busStep (b : Generator.Bus) (j : Value) : String → Reply (Value × Generator.Bus)
  | "subscribe" => do let (i, b) := b.subscribe; pure (.nat i, b)
  | "unsubscribe" => do let (ok, b) := b.unsubscribe (← j.u64 "id"); pure (.bool ok, b)
  | "add_listener" => do let (i, b) := b.addListener; pure (.nat i, b)
  | "emit" => do
    let e ← eventIn (← j.need "event")
    pure (.obj [("page", Value.opt .nat e.page?)], b.emit e)
  | "drain" => do
    match b.drain (← j.u64 "id") with
    | some (es, b) => pure (.arr (es.map (.str ·.name)), b)
    | none => bad "no such subscriber"
  | "heard" => pure (.arr (b.heard.map fun (l, e) => .arr [.nat l, .str e.name]), b)
  | op => unknownStep "event_bus" op

def runEventBus (j : Value) : Reply Value := do
  runSteps ({} : Generator.Bus) (← j.list "ops") busStep fun b => [("subscribers", .nat b.subscriberCount)]

end Service
end Thumbnailer
