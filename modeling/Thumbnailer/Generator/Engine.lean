import Thumbnailer.Generator.PageState
import Thumbnailer.Generator.Events
import Thumbnailer.Generator.Rejection
import Thumbnailer.Generator.Statistics
import Thumbnailer.Schedule.Scheduler
import Thumbnailer.Render.Backend
import Thumbnailer.Config.Generator
import Thumbnailer.Numeric.FloatOrder

/-!
# The thumbnail generator

The generator is what a viewer talks to. It checks each request against the document, feeds
the job scheduler, keeps the state of every page, counts the thumbnails made and the failed
attempts, and turns the scheduler's completions into events.

* A request for a page outside the document, or for an empty box, is rejected at once with an
  `error` event and never queued; one identical to work already waiting or rendering is
  ignored.
* Queued pages are `Queued`; `dispatch` admits work while the generator runs and marks those
  pages `Rendering`, announcing the new queue size and number of active jobs.
* A job that fails before its page is looked up (without a document, or for an empty box) is
  run to the end by the worker that picks it up, at once; its failure is posted and handled
  like any other.
* A finished job leaves its page `Cached` and announces the thumbnail; a failed attempt that is
  retried puts the page back to `Queued`; a final failure leaves it `Failed` with an `error`
  event. When another request for the page is still waiting the page goes back to `Queued`.
* `tick` handles the completions already posted, runs the batch tick when it is due (adaptive
  concurrency, a sweep of the buffer pool and a `progress` event once anything finished) and
  dispatches; `pump` first dispatches and takes one completion. Both take the instant they
  happen at.
* Cancelling, clearing the queue, stopping and changing the default box settle the pages whose
  requests were dropped: back to `Rendering` while a job still runs, otherwise `Cancelled` with
  a `cancelled` event.
* A new document stops all work, forgets every page state and empties the thumbnail cache.

The batch tick is due once its interval has passed since the last batch tick (since creation,
before the first): always when the interval is zero.
-/

namespace Thumbnailer
namespace Generator

open Schedule Render Page Config Cache

/-- What a request overrides of the generator's defaults. -/
structure Options where
  size : Option Target := none
  quality : Option Float := none
  priority : Int := 0
  backend : Option Preference := none

/-- Size, quality and rasterizer of one submission. -/
structure Variant where
  size : Target
  quality : Float
  backend : Preference

/-- The generator's state. -/
structure Engine where
  document : Option Source := none
  backend : Backend
  scheduler : Scheduler
  states : PageStates := {}
  bus : Bus := {}
  thumbnailSize : Target
  quality : Float
  renderMode : Preference
  cacheStrategy : Strategy
  batchIntervalMs : Nat
  /-- Thumbnails made. -/
  generated : Nat := 0
  /-- Failed attempts, retried or not. -/
  errors : Nat := 0
  /-- Whether work is admitted; `stop` clears it and `start` sets it. -/
  running : Bool := true
  /-- Batch ticks that reported progress. -/
  batchTicks : Nat := 0
  /-- When the last batch tick ran; creation before the first. -/
  lastBatch : Instant := Instant.origin

/-- The generator's counters and the caches' and scheduler's. -/
structure Statistics where
  totalGenerated : Nat
  totalErrors : Nat
  successRate : Float
  queueSize : Nat
  activeJobs : Nat
  scheduler : SchedulerStats
  cache : Cache.Stats
  pool : Pool.Stats

namespace Engine

/-- Sends an event. -/
def emit (g : Engine) (e : Event) : Engine := { g with bus := g.bus.emit e }

/-- Moves a page to a state when allowed; answers whether it is now in that state. -/
def transition (g : Engine) (page : Nat) (s : PageState) : Bool × Engine :=
  let (ok, states) := g.states.transition page s
  (ok, { g with states })

/-- Moves a page to a state when allowed. -/
def moveTo (g : Engine) (page : Nat) (s : PageState) : Engine := (g.transition page s).2

/-- Whether the GPU is enabled and an attached rasterizer is usable. -/
def gpuAccelerationAvailable (g : Engine) : Bool := g.backend.gpuEnabled && g.backend.gpuAvailable

/-- Selects the rasterizer for new requests; GPU-only without a usable GPU is CPU-only. -/
def setRenderMode (g : Engine) (m : Preference) : Engine :=
  { g with renderMode := if m = .gpuAccelerated && !g.gpuAccelerationAvailable then .cpuOnly else m }

/-- A generator for a configuration, with a hardware rasterizer when one is given, rendering
with the given image operations. -/
def create (c : GeneratorConfig) (gpu : Option Gpu) (imaging : Imaging := .standard) : Engine :=
  let b := Backend.create c.cache c.devicePixelRatio imaging
  let g : Engine :=
    { backend := { b with gpu, gpuEnabled := c.gpuAcceleration },
      scheduler := Scheduler.create c.schedulerConfig,
      thumbnailSize := c.thumbnailSize,
      quality := clampQuality c.quality,
      renderMode := c.renderMode,
      cacheStrategy := c.cacheStrategy,
      batchIntervalMs := c.batchIntervalMs }
  g.setRenderMode c.renderMode

/-- Pages in the document, 0 without one. -/
def pageCount (g : Engine) : Nat := (g.document.map (·.numPages)).getD 0

/-- Requests waiting. -/
def queueSize (g : Engine) : Nat := g.scheduler.queue.size

/-- Jobs active. -/
def activeJobs (g : Engine) : Nat := g.scheduler.active.length

/-- The state of a page. -/
def pageState (g : Engine) (page : Nat) : PageState := g.states.get page

/-- Whether a job for the page is active. -/
def isGenerating (g : Engine) (page : Nat) : Bool := g.scheduler.hasActive page

/-- Replaces the document once all work has stopped: the scheduler stops, page states and the
thumbnail cache are cleared, and the queue and active counts are announced as zero. -/
def replaceDocument (g : Engine) (src : Option Source) : Engine :=
  let g := { g with document := none }
  let (_, scheduler) := g.scheduler.stop
  let g := { g with scheduler, states := g.states.clear,
                    backend := { g.backend with cache := g.backend.cache.clear },
                    document := src }
  (g.emit (.queueSize 0)).emit (.activeJobs 0)

/-- The size, quality and rasterizer a request gets. -/
def variant (g : Engine) (o : Options) : Variant where
  size := o.size.getD g.thumbnailSize
  quality := (o.quality.map clampQuality).getD g.quality
  backend := o.backend.getD g.renderMode

/-- Why a request for a page at a size is refused, if it is. -/
def validate (g : Engine) (page : Nat) (size : Target) : Option Rejection :=
  match g.document with
  | none => some .noDocument
  | some d =>
    if page ≥ d.numPages then some (.invalidPage page d.numPages)
    else if size.isEmpty then some (.zeroTargetSize size.width size.height)
    else none

/-- Submits one request; answers whether it was queued, in which case the page is `Queued`. -/
def enqueue (g : Engine) (page : Nat) (v : Variant) (priority : Int) : Bool × Engine :=
  let (t, scheduler) := g.scheduler.tick
  let r : Schedule.Request := { page, size := v.size, quality := v.quality, priority, submittedAt := t, backend := v.backend }
  match scheduler.submit r with
  | (.queued, scheduler) => (true, { g with scheduler }.moveTo page .queued)
  | (_, scheduler) => (false, { g with scheduler })

/-- Admits queued work while running; the started pages are `Rendering`. -/
def admitQueued (g : Engine) : Engine :=
  if !g.running then g
  else
    let (started, scheduler) := g.scheduler.dispatch
    let g := { g with scheduler }
    if started.isEmpty then g
    else
      let g := started.foldl (fun g r => g.moveTo r.page .rendering) g
      (g.emit (.queueSize g.queueSize)).emit (.activeJobs g.activeJobs)

/-- How a job ends before its page is looked up: without a document, or for an empty box. -/
def earlyFailure (g : Engine) (r : Schedule.Request) : Option JobFailure :=
  if g.document.isNone then some (.render .noDocument)
  else if r.size.isEmpty then some (.render (.zeroTargetSize r.size.width r.size.height))
  else none

/-- Workers run the jobs that fail before their page lookup to the end as soon as they pick
them up: each such running job posts its failure, and its worker takes the next task. A round
ends a running job and picking up only moves pending tasks, so the running and pending jobs
bound the rounds. -/
def runEarly (g : Engine) : Engine :=
  go (g.scheduler.running.length + g.scheduler.pending.length) g
where
  go : Nat → Engine → Engine
    | 0, g => g
    | fuel + 1, g =>
      match g.scheduler.running.findSome? fun j => (g.earlyFailure j.request).map (j, ·) with
      | none => g
      | some (j, e) => go fuel { g with scheduler := g.scheduler.post j (.error e) }

/-- Admits queued work while running, the started pages `Rendering`; the jobs picked up that
fail before their page lookup end at once. -/
def dispatch (g : Engine) : Engine := g.admitQueued.runEarly

/-- After a batch of submissions: announces the queue and dispatches when anything was queued. -/
def afterEnqueue (g : Engine) (queued : Nat) : Engine :=
  if queued > 0 then (g.emit (.queueSize g.queueSize)).dispatch else g

/-- Queues a page with the given overrides. A refused request is announced with an `error`
event. -/
def generateWith (g : Engine) (page : Nat) (o : Options) : Except Rejection Unit × Engine :=
  let v := g.variant o
  match g.validate page v.size with
  | some e => (.error e, g.emit (.error page e.message))
  | none =>
    match g.enqueue page v o.priority with
    | (true, g) => (.ok (), (g.emit (.queueSize g.queueSize)).dispatch)
    | (false, g) => (.ok (), g)

/-- Queues a page at the default size, quality and render mode. -/
def generate (g : Engine) (page : Nat) (priority : Int) : Except Rejection Unit × Engine :=
  g.generateWith page { priority }

/-- Submits one page of a batch at its priority, counting it when it was queued. -/
def enqueueCounted (v : Variant) (acc : Nat × Engine) (page : Nat × Int) : Nat × Engine :=
  match acc.2.enqueue page.1 v page.2 with
  | (true, g) => (acc.1 + 1, g)
  | (false, g) => (acc.1, g)

/-- Submits pages in order, each with the priority its position gives; answers how many were
queued. -/
def enqueueAll (g : Engine) (v : Variant) (pages : List (Nat × Int)) : Nat × Engine :=
  pages.foldl (enqueueCounted v) (0, g)

/-- Queues `start..=end`, clamped to the document, with priorities rising from 0 at `start`.
Answers how many were queued. -/
def generateRange (g : Engine) (start stop : Nat) (size : Option Target) (quality : Option Float) :
    Except Rejection Nat × Engine :=
  match g.document with
  | none => (.error .noDocument, g)
  | some d =>
    let v := g.variant { size, quality }
    if v.size.isEmpty then (.error (.zeroTargetSize v.size.width v.size.height), g)
    else if d.numPages = 0 then (.ok 0, g)
    else
      let first := min start (d.numPages - 1)
      let last := max first (min stop (d.numPages - 1))
      let pages := (List.range (last - first + 1)).map fun i => (first + i, Word.wrapI32 i)
      let (n, g) := g.enqueueAll v pages
      (.ok n, g.afterEnqueue n)

/-- Queues a set of pages inside the document, by page (by page area, stably, under the
memory-aware strategy), each with its position as priority. Answers how many were queued. -/
def generateBatch (g : Engine) (pages : List Nat) : Except Rejection Nat × Engine :=
  match g.document with
  | none => (.error .noDocument, g)
  | some d =>
    let ordered := ((pages.filter (· < d.numPages)).mergeSort (· ≤ ·)).eraseDups
    let area (p : Nat) : Int := totalKey (((d.pageSize p).map fun z => z.width * z.height).getD 0.0)
    let ordered := if g.cacheStrategy = .memoryAware then ordered.mergeSort (fun a b => area a ≤ area b) else ordered
    let v := g.variant {}
    let (n, g) := g.enqueueAll v (ordered.zipIdx.map fun (p, i) => (p, Word.wrapI32 i))
    (.ok n, g.afterEnqueue n)

/-- Records a job's end, going back to `Queued` when another request for the page waits. -/
def settle (g : Engine) (page : Nat) (s : PageState) : Engine :=
  let g := g.moveTo page s
  if g.scheduler.isQueued page then g.moveTo page .queued else g

/-- Accounts for one completion. -/
def handleOne (g : Engine) : Completion → Engine
  | .finished r b =>
    let g := { g with generated := g.generated + 1 }
    (g.settle r.page .cached).emit (.generated r.page r.size r.quality b)
  | .retrying r _ =>
    let g := { g with errors := g.errors + 1 }
    (g.moveTo r.page .queued).emit (.queueSize g.queueSize)
  | .failed r e =>
    let g := { g with errors := g.errors + 1 }
    (g.settle r.page .failed).emit (.error r.page e.message)
  | .discarded _ => g

/-- Accounts for completions, then announces the number of active jobs. -/
def handleCompletions (g : Engine) (cs : List Completion) : Engine :=
  if cs.isEmpty then g
  else
    let g := cs.foldl handleOne g
    g.emit (.activeJobs g.activeJobs)

/-- Tunes concurrency, sweeps the buffer pool at `now` and reports progress once anything
finished. -/
def batchTick (g : Engine) (now : Instant) : Engine :=
  let (_, scheduler) := g.scheduler.adaptConcurrency
  let pool := g.backend.cache.pool.map fun p => (p.sweepAt now).2
  let g := { g with scheduler, backend := { g.backend with cache := { g.backend.cache with pool } } }
  let total := g.generated + g.errors
  if total = 0 then g
  else { g.emit (.progress g.generated total) with batchTicks := g.batchTicks + 1 }

/-- Runs the batch tick at `now` when its interval has passed since the last one. -/
def batchIfDue (g : Engine) (now : Instant) : Engine :=
  if now.elapsedAtLeastMs g.lastBatch g.batchIntervalMs then { g with lastBatch := now }.batchTick now else g

/-- Handles the completions already posted, runs the batch tick when due at `now` and
dispatches. Answers how many completions were handled. -/
def tick (g : Engine) (now : Instant) : Nat × Engine :=
  let (cs, scheduler) := g.scheduler.drainCompletions
  let g := { g with scheduler }.handleCompletions cs
  let g := g.batchIfDue now
  (cs.length, g.dispatch)

/-- Dispatches, handles one completion if one is posted, then ticks at `now`. Answers how many
completions were handled. -/
def pump (g : Engine) (now : Instant) : Nat × Engine :=
  let g := g.dispatch
  let (c, scheduler) := g.scheduler.waitCompletion
  let g := { g with scheduler }
  let (first, g) := match c with
    | some c => (1, g.handleCompletions [c])
    | none => (0, g)
  let (n, g) := g.tick now
  (first + n, g)

/-- Settles one page whose waiting requests were removed: a page still queued is left alone, one
with a job still active is `Rendering` again, one with nothing left is `Cancelled` with an
event. -/
def releasePage (g : Engine) (page : Nat) : Engine :=
  if g.scheduler.isQueued page then g
  else if g.scheduler.hasActive page then g.moveTo page .rendering
  else
    match g.transition page .cancelled with
    | (true, g) => g.emit (.cancelled page)
    | (false, g) => g

/-- Settles the pages whose waiting requests were removed, each once, in page order. -/
def releaseQueued (g : Engine) (removed : List Schedule.Request) : Engine :=
  ((removed.map (·.page)).mergeSort (· ≤ ·)).eraseDups.foldl releasePage g

/-- Drops the waiting requests for a page and cancels its active job. -/
def cancelRequest (g : Engine) (page : Nat) : Engine :=
  let (outcome, scheduler) := g.scheduler.cancel page
  let g := { g with scheduler }
  if outcome.isEmpty then g
  else
    let g := match g.transition page .cancelled with
      | (true, g) => g.emit (.cancelled page)
      | (false, g) => g
    let g := g.emit (.queueSize g.queueSize)
    if outcome.inFlight then g.emit (.activeJobs g.activeJobs) else g

/-- Reprioritises the waiting requests for a page. -/
def setPriority (g : Engine) (page : Nat) (priority : Int) : Engine :=
  { g with scheduler := (g.scheduler.setPriority page priority).2 }

/-- Drops every waiting request; active jobs go on. -/
def clearQueue (g : Engine) : Engine :=
  let (cleared, scheduler) := g.scheduler.clearQueue
  ({ g with scheduler }.releaseQueued cleared).emit (.queueSize 0)

/-- Stops admitting jobs. -/
def pause (g : Engine) : Engine := { g with scheduler := g.scheduler.pause }

/-- Admits jobs again. -/
def resume (g : Engine) : Engine := { g with scheduler := g.scheduler.resume }.dispatch

/-- Stops: nothing is admitted until `start`, the queue is cleared and active jobs are
cancelled once the workers have let go of them. -/
def stop (g : Engine) : Engine :=
  let g := { g with running := false, scheduler := g.scheduler.resume }
  let ((queued, inFlight), scheduler) := g.scheduler.stop
  let g := { g with scheduler }.releaseQueued (queued ++ inFlight)
  (g.emit (.queueSize 0)).emit (.activeJobs 0)

/-- Admits work again after `stop`. -/
def start (g : Engine) : Engine :=
  { g with running := true, scheduler := g.scheduler.resume }.dispatch

/-- A new default box; waiting requests made at the old one are dropped. An empty box is
ignored. -/
def setThumbnailSize (g : Engine) (size : Target) : Engine :=
  if size.isEmpty then g
  else
    let previous := g.thumbnailSize
    let g := { g with thumbnailSize := size }
    if previous = size then g
    else
      let (removed, scheduler) := g.scheduler.removeQueuedWhere (·.size == previous)
      let g := { g with scheduler }.releaseQueued removed
      g.emit (.queueSize g.queueSize)

/-- A new default quality, clamped. -/
def setQuality (g : Engine) (q : Float) : Engine := { g with quality := clampQuality q }

/-- A new concurrency limit, clamped to 1–8. -/
def setMaxConcurrentJobs (g : Engine) (n : Nat) : Engine :=
  { g with scheduler := g.scheduler.setMaxConcurrentJobs n }

/-- A new retry limit, at most 5. -/
def setMaxRetries (g : Engine) (n : Nat) : Engine := { g with scheduler := g.scheduler.setMaxRetries n }

/-- A new cache strategy. -/
def setCacheStrategy (g : Engine) (s : Strategy) : Engine := { g with cacheStrategy := s }

/-- The GPU switch. -/
def setGpuEnabled (g : Engine) (b : Bool) : Engine := { g with backend := { g.backend with gpuEnabled := b } }

/-- The compression switch. -/
def setCompressionEnabled (g : Engine) (b : Bool) : Engine :=
  { g with backend := { g.backend with compressionEnabled := b } }

/-- A new codec quality for cached thumbnails, clamped to 1–100. -/
def setCompressionQuality (g : Engine) (q : Nat) : Engine :=
  { g with backend := { g.backend with cache := g.backend.cache.setQuality q } }

/-- A new byte capacity of the thumbnail cache; shrinking evicts. -/
def setCacheCapacity (g : Engine) (bytes : Nat) : Engine :=
  { g with backend := { g.backend with cache := g.backend.cache.setCapacity bytes } }

/-- A new budget of the buffer pool, clamped to 16–512 MiB. -/
def setMemoryPoolSize (g : Engine) (bytes : Nat) : Engine :=
  let pool := g.backend.cache.pool.map (·.setCapacity bytes)
  { g with backend := { g.backend with cache := { g.backend.cache with pool } } }

/-- A new device pixel ratio. -/
def setDevicePixelRatio (g : Engine) (r : Float) : Engine := { g with backend := (g.backend.setRatio r).2 }

/-- The counters; the success rate's sum of counts may overflow a word. -/
def statistics (g : Engine) : Except Overflow Statistics := do
  pure { totalGenerated := g.generated, totalErrors := g.errors,
         successRate := ← successRate g.generated g.errors,
         queueSize := g.queueSize, activeJobs := g.activeJobs, scheduler := g.scheduler.stats,
         cache := g.backend.cache.stats, pool := g.backend.pool.stats }

end Engine

end Generator
end Thumbnailer
