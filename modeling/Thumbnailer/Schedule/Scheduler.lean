import Thumbnailer.Schedule.Queue
import Thumbnailer.Numeric.Word
import Thumbnailer.Render.Error
import Thumbnailer.Raster.Bitmap

/-!
# The job scheduler

The scheduler owns the request queue, the table of active jobs (at most one per page) and a
pool of worker threads. `submit` queues work; `dispatch` admits queued requests while fewer
jobs than the concurrency limit are active; outcomes posted by workers are resolved into
`Completion`s, and retryable failures are queued again with a lower priority.

Workers are modelled as the environment they are: `dispatch` hands each job to the pool as
a task; a free worker picks up the oldest task (a task whose job was cancelled meanwhile is
skipped); a picked-up job runs until the environment says how it ended (`post`). The pool
grows to the concurrency limit at each dispatch and never shrinks. A job is *live* while it
is still the active job of its page; a running job that is no longer live (its page was
cancelled) is a *straggler*, and its outcome is discarded when it arrives.

Resolving an outcome (`resolve`):

* a job that is no longer live counts as discarded;
* a success counts as completed;
* a failure counts as failed, and is retried (one more retry, priority raised by 10 with
  saturation, submitted anew) when the failure is retryable, the retries are not exhausted and
  the same work is not already waiting.

`stop` clears the queue, cancels every active job and waits for the workers to let go of
them: outcomes posted by then are discarded.
-/

namespace Thumbnailer
namespace Schedule

open Render

/-- Upper bound of the concurrency limit. -/
def maxConcurrentJobs : Nat := 8

/-- Upper bound of the retry limit. -/
def maxRetriesBound : Nat := 5

/-- Added to a request's priority at each retry. -/
def retryPenalty : Int := 10

/-- Adaptive tuning never raises the limit above this. -/
def adaptiveCeiling : Nat := 6

/-- Adaptive tuning never lowers the limit below this. -/
def adaptiveFloor : Nat := 2

/-- A concurrency limit within 1–8. -/
def clampConcurrency (n : Nat) : Nat := max 1 (min n maxConcurrentJobs)

/-- Scheduler tuning. -/
structure SchedulerConfig where
  /-- Jobs allowed in flight, 1–8. -/
  maxConcurrentJobs : Nat := 6
  /-- Retries after the first attempt, 0–5. -/
  maxRetries : Nat := 2
  /-- Queue depth unit for adaptive concurrency. -/
  batchSize : Nat := 8
  adaptiveConcurrency : Bool := true
  deriving DecidableEq, Repr

/-- What `submit` did with a request. -/
inductive Admission where
  | queued
  /-- The same work is already waiting. -/
  | duplicate
  /-- The same work is in flight. -/
  | pageActive
  deriving DecidableEq, Repr

/-- What `cancel` removed. -/
structure CancelOutcome where
  queued : Nat
  inFlight : Bool
  deriving DecidableEq, Repr

/-- Whether `cancel` removed nothing. -/
def CancelOutcome.isEmpty (c : CancelOutcome) : Bool := c.queued = 0 && !c.inFlight

/-- A worker outcome once the scheduler has accounted for it. -/
inductive Completion where
  | finished (request : Request) (bitmap : Raster.Bitmap)
  /-- Failed and queued again; the request is the queued copy. -/
  | retrying (request : Request) (error : JobFailure)
  /-- Failed for good. -/
  | failed (request : Request) (error : JobFailure)
  /-- The job had been cancelled or superseded; its result was dropped. -/
  | discarded (page : Nat)

/-- The page a completion is about. -/
def Completion.page : Completion → Nat
  | .finished r _ | .retrying r _ | .failed r _ => r.page
  | .discarded p => p

/-- Scheduler counters. -/
structure SchedulerStats where
  submitted : Nat := 0
  dispatched : Nat := 0
  completed : Nat := 0
  /-- Every failed attempt, retried or not. -/
  failed : Nat := 0
  retried : Nat := 0
  cancelled : Nat := 0
  discarded : Nat := 0
  deriving DecidableEq, Repr

/-- A job: its id and request. -/
structure Job where
  id : Nat
  request : Request

/-- What a worker reports for a job. -/
structure Outcome where
  job : Job
  result : Except JobFailure Raster.Bitmap

/-- The scheduler's state. -/
structure Scheduler where
  queue : Queue := {}
  /-- The active job of each page that has one. -/
  active : List Job := []
  limit : Nat
  maxRetries : Nat
  batchSize : Nat
  adaptive : Bool
  paused : Bool := false
  nextId : Nat := 1
  stats : SchedulerStats := {}
  /-- Worker threads spawned so far. -/
  workers : Nat := 0
  /-- Jobs handed to the pool that no worker has picked up yet, oldest first. -/
  pending : List Job := []
  /-- Jobs picked up by a worker and not yet finished, in start order. -/
  running : List Job := []
  /-- Outcomes posted by workers and not yet resolved, oldest first. -/
  posted : List Outcome := []
  /-- Ticks of the clock that stamps requests. -/
  clock : Nat := 0

namespace Scheduler

/-- A scheduler with the given tuning (clamped). -/
def create (c : SchedulerConfig) : Scheduler where
  limit := clampConcurrency c.maxConcurrentJobs
  maxRetries := min c.maxRetries maxRetriesBound
  batchSize := max c.batchSize 1
  adaptive := c.adaptiveConcurrency

/-- The next instant of the request clock. -/
def tick (s : Scheduler) : Nat × Scheduler := (s.clock + 1, { s with clock := s.clock + 1 })

/-- Whether a job is still the active job of its page. -/
def isLive (s : Scheduler) (j : Job) : Bool := s.active.any (·.id == j.id)

/-- The active job of a page. -/
def activeJob? (s : Scheduler) (page : Nat) : Option Job := s.active.find? (·.request.page == page)

/-- Whether a page has an active job. -/
def hasActive (s : Scheduler) (page : Nat) : Bool := (s.activeJob? page).isSome

/-- Whether a request for the page is waiting. -/
def isQueued (s : Scheduler) (page : Nat) : Bool := s.queue.containsPage page

/-- Nothing waiting and nothing active. -/
def isIdle (s : Scheduler) : Bool := s.queue.size = 0 && s.active.isEmpty

/-- Running jobs that are still live, in start order. -/
def executing (s : Scheduler) : List Job := s.running.filter s.isLive

/-- Running jobs that were cancelled, in start order. -/
def stragglers (s : Scheduler) : List Job := s.running.filter (!s.isLive ·)

/-- Free workers pick up pending tasks, oldest first, skipping cancelled ones. Each round
consumes a task, so the number of tasks bounds the rounds. -/
def settle (s : Scheduler) : Scheduler :=
  go s.pending.length s
where
  go : Nat → Scheduler → Scheduler
    | 0, s => s
    | fuel + 1, s =>
      if s.running.length < s.workers then
        match s.pending with
        | [] => s
        | j :: rest =>
          let s := { s with pending := rest }
          go fuel (if s.isLive j then { s with running := s.running ++ [j] } else s)
      else s

/-- Queues a request unless the same work is in flight or already waiting. -/
def submit (s : Scheduler) (r : Request) : Admission × Scheduler :=
  if (s.activeJob? r.page).any (·.request.sameWork r) then (.pageActive, s)
  else
    match s.queue.push r with
    | (false, _) => (.duplicate, s)
    | (true, q) => (.queued, { s with queue := q, stats := { s.stats with submitted := s.stats.submitted + 1 } })

/-- The admission loop: pops while under the limit; a request whose page is active is set
aside. Each round pops a request, so the queue's length bounds the rounds. -/
def takeQueued : Nat → Scheduler → List Request → List Request → Scheduler × List Request × List Request
  | 0, s, started, deferred => (s, started, deferred)
  | fuel + 1, s, started, deferred =>
    if s.active.length < s.limit then
      match s.queue.pop with
      | (none, _) => (s, started, deferred)
      | (some r, q) =>
        let s := { s with queue := q }
        if s.hasActive r.page then takeQueued fuel s started (deferred ++ [r])
        else
          let j : Job := ⟨s.nextId, r⟩
          takeQueued fuel { s with nextId := s.nextId + 1, pending := s.pending ++ [j], active := s.active ++ [j] }
            (started ++ [r]) deferred
    else (s, started, deferred)

/-- Admits queued requests while under the concurrency limit; returns the requests handed to
workers, in dispatch order. Nothing happens while paused. -/
def dispatch (s : Scheduler) : List Request × Scheduler :=
  if s.paused then ([], s)
  else
    let s := { s with workers := max s.workers s.limit }
    let (s, started, deferred) := takeQueued s.queue.size s [] []
    let q := deferred.foldl (fun q r => (q.push r).2) s.queue
    (started, settle { s with queue := q,
                              stats := { s.stats with dispatched := s.stats.dispatched + started.length } })

/-- A failed attempt: retried when allowed and not already waiting, otherwise final. -/
def handleFailure (s : Scheduler) (r : Request) (e : JobFailure) : Completion × Scheduler :=
  let s := { s with stats := { s.stats with failed := s.stats.failed + 1 } }
  if !(e.retryable && r.retryCount < s.maxRetries) then (.failed r e, s)
  else
    let (t, s) := s.tick
    let again := { r with retryCount := r.retryCount + 1,
                          priority := Word.addI32Saturating r.priority retryPenalty,
                          submittedAt := t }
    match s.queue.push again with
    | (false, _) => (.failed r e, s)
    | (true, q) => (.retrying again e, { s with queue := q, stats := { s.stats with retried := s.stats.retried + 1 } })

/-- Accounts for one outcome. -/
def resolve (s : Scheduler) (o : Outcome) : Completion × Scheduler :=
  if !s.isLive o.job then
    (.discarded o.job.request.page, { s with stats := { s.stats with discarded := s.stats.discarded + 1 } })
  else
    let s := { s with active := s.active.filter (·.id != o.job.id) }
    match o.result with
    | .ok b => (.finished o.job.request b, { s with stats := { s.stats with completed := s.stats.completed + 1 } })
    | .error e => s.handleFailure o.job.request e

/-- A worker finishes a running job and posts its outcome; the worker is then free. -/
def post (s : Scheduler) (j : Job) (result : Except JobFailure Raster.Bitmap) : Scheduler :=
  settle { s with running := s.running.filter (·.id != j.id), posted := s.posted ++ [⟨j, result⟩] }

/-- Resolves the oldest posted outcome, if any. -/
def waitCompletion (s : Scheduler) : Option Completion × Scheduler :=
  match s.posted with
  | [] => (none, s)
  | o :: rest =>
    let (c, s) := resolve { s with posted := rest } o
    (some c, s)

/-- Resolves one posted outcome against the state so far, adding its completion to those
already drained. -/
def resolveNext (acc : List Completion × Scheduler) (o : Outcome) : List Completion × Scheduler :=
  let (c, s) := acc.2.resolve o
  (acc.1 ++ [c], s)

/-- Resolves every posted outcome, oldest first. -/
def drainCompletions (s : Scheduler) : List Completion × Scheduler :=
  s.posted.foldl resolveNext ([], { s with posted := [] })

/-- Drops the waiting requests for a page and cancels its active job. -/
def cancel (s : Scheduler) (page : Nat) : CancelOutcome × Scheduler :=
  let (removed, q) := s.queue.removeWhere (·.page == page)
  let inFlight := s.hasActive page
  let s := { s with queue := q, active := s.active.filter (·.request.page != page) }
  let n := removed.length + (if inFlight then 1 else 0)
  (⟨removed.length, inFlight⟩, { s with stats := { s.stats with cancelled := s.stats.cancelled + n } })

/-- Reprioritises the waiting requests for a page. -/
def setPriority (s : Scheduler) (page : Nat) (priority : Int) : Nat × Scheduler :=
  let (n, q) := s.queue.setPriority page priority
  (n, { s with queue := q })

/-- Removes the waiting requests satisfying `p`, in queue order; they count as cancelled. -/
def removeQueuedWhere (s : Scheduler) (p : Request → Bool) : List Request × Scheduler :=
  let (removed, q) := s.queue.removeWhere p
  (removed, { s with queue := q, stats := { s.stats with cancelled := s.stats.cancelled + removed.length } })

/-- Removes every waiting request, in queue order. -/
def clearQueue (s : Scheduler) : List Request × Scheduler := s.removeQueuedWhere fun _ => true

/-- Clears the queue and cancels every active job, waiting for the workers to let go of them:
a live job still running finishes and, like every outcome posted by then, is discarded.
Returns the dropped requests: the waiting ones in queue order, then the active ones by page. -/
def stop (s : Scheduler) : (List Request × List Request) × Scheduler :=
  let (queued, q) := s.queue.clear
  let jobs := s.active.mergeSort fun a b => a.request.page ≤ b.request.page
  let stale := s.posted.length + (s.running.filter s.isLive).length
  let s := { s with queue := q, posted := [], running := s.running.filter (!s.isLive ·),
                    stats := { s.stats with cancelled := s.stats.cancelled + queued.length + jobs.length,
                                            discarded := s.stats.discarded + stale } }
  ((queued, jobs.map (·.request)), settle { s with active := [] })

/-- Stops admitting jobs; running jobs go on. -/
def pause (s : Scheduler) : Scheduler := { s with paused := true }

/-- Admits jobs again at the next dispatch. -/
def resume (s : Scheduler) : Scheduler := { s with paused := false }

/-- One step of concurrency tuning from the queue depth; the new limit if it changed. -/
def adaptConcurrency (s : Scheduler) : Option Nat × Scheduler :=
  if !s.adaptive then (none, s)
  else
    let depth := s.queue.size
    if depth > s.batchSize * 2 && s.limit < adaptiveCeiling then (some (s.limit + 1), { s with limit := s.limit + 1 })
    else if depth < s.batchSize && s.limit > adaptiveFloor then (some (s.limit - 1), { s with limit := s.limit - 1 })
    else (none, s)

/-- A new concurrency limit (clamped to 1–8), effective at the next dispatch. -/
def setMaxConcurrentJobs (s : Scheduler) (n : Nat) : Scheduler := { s with limit := clampConcurrency n }

/-- A new retry limit, at most 5. -/
def setMaxRetries (s : Scheduler) (n : Nat) : Scheduler := { s with maxRetries := min n maxRetriesBound }

/-- Adaptive tuning on or off. -/
def setAdaptive (s : Scheduler) (b : Bool) : Scheduler := { s with adaptive := b }

end Scheduler

end Schedule
end Thumbnailer
