import Thumbnailer.Generator.Engine
import Thumbnailer.Schedule.Release

/-!
# Letting render jobs run

A render job runs on a worker: it takes the document, and the backend asks the document for
the page's size before anything else. When that lookup returns is up to the environment, so
each job is let through explicitly, with the way the document behaves for it (`Lookup`):

* `found`: the page is there and renders normally (cache lookup, rasterization, scaling,
  cache insert);
* `missing`: the page's size is unknown, so the job fails with `InvalidPage` without touching
  the cache or the pool;
* `failing m`: rasterization fails with `m`, unless the cache or the GPU serves the page;
* `blank`: rasterization gives a 0 × 0 image, so the job fails with `EmptyRaster`;
* `panics m`: the lookup panics; the worker reports `render worker panicked: m`.

A job without a document fails with `NoDocument`, and one for an empty box with
`ZeroTargetSize`, before the lookup: such a job never waits to be let through, since its worker
runs it to the end as soon as it picks it up (`Engine.runEarly`).

`finishPage` and `finishNext` let one job through and pump its completion; `runAll` does so
until no job runs; `windDown` is the sequence that precedes stopping: the stragglers
are let through one by one and pumped, every live job still running is turned away as a
missing page, and then the stop itself runs and discards those outcomes. Each of these calls
takes the instant it happens at, which its renders and ticks use.
-/

namespace Thumbnailer
namespace Generator

open Schedule Render Page

/-- How the document behaves for a job let through. -/
inductive Lookup where
  | found
  | missing
  | failing (message : String)
  | blank
  | panics (message : String)
  deriving DecidableEq, Repr

/-- The document as a job let through with `l` sees it. -/
def Lookup.source (l : Lookup) (s : Source) : Source :=
  match l with
  | .missing => { s with pageSize := fun _ => none }
  | .failing m => { s with rasterize := fun _ _ _ _ => .error m }
  | .blank => s.blanked
  | _ => s

namespace Engine

/-- Runs a job's request against the document and the backend at `now`. -/
def runJob (g : Engine) (r : Schedule.Request) (l : Lookup) (now : Instant) :
    Except Overflow (Except JobFailure Raster.Bitmap × Engine) := do
  let some s := g.document | pure (.error (.render .noDocument), g)
  if let .panics m := l then
    if !r.size.isEmpty then return (.error (.workerPanicked m), g)
  let (out, backend) ← g.backend.render (l.source s) r.renderRequest now
  pure (out.result.mapError .render, { g with backend })

/-- Lets a running job through and posts its outcome; the worker freed takes the next task,
and the jobs picked up that fail before their page lookup end at once. -/
def release (g : Engine) (j : Job) (l : Lookup) (now : Instant) : Except Overflow Engine := do
  let (result, g) ← g.runJob j.request l now
  pure { g with scheduler := g.scheduler.post j result }.runEarly

/-- Lets the oldest running job of a page through, then pumps; `none` when no job of the
page runs. -/
def finishPage (g : Engine) (page : Nat) (l : Lookup) (now : Instant) : Except Overflow (Option Engine) := do
  match g.scheduler.running.find? (·.request.page == page) with
  | none => pure none
  | some j => pure (some ((← g.release j l now).pump now).2)

/-- Lets the running job with the lowest page (the earliest started among equals) through,
then pumps; answers its page, `none` when no job runs. -/
def finishNext (g : Engine) (l : Lookup) (now : Instant) : Except Overflow (Option (Nat × Engine)) := do
  match g.scheduler.nextRunning with
  | none => pure none
  | some j => pure (some (j.request.page, ((← g.release j l now).pump now).2))

/-- Lets running jobs through normally, lowest page first (cancelled ones too), pumping after
each, until none runs; answers how many. Every request is dispatched at most once per
attempt, so the running and waiting jobs bound the rounds. -/
def runAll (g : Engine) (now : Instant) : Except Overflow (Nat × Engine) :=
  go ((g.scheduler.running.length + g.scheduler.queue.size + 1) * (maxRetriesBound + 2)) 0 g
where
  go : Nat → Nat → Engine → Except Overflow (Nat × Engine)
    | 0, n, g => pure (n, g)
    | fuel + 1, n, g => do
      match g.scheduler.nextRunning with
      | none => pure (n, g)
      | some j => go fuel (n + 1) ((← g.release j .found now).pump now).2

/-- The sequence before a stop: stragglers let through one by one, oldest first, each outcome
pumped; then every live running job turned away as a missing page; then `finish`. -/
def windDown (g : Engine) (finish : Engine → Engine) (now : Instant) : Except Overflow Engine := do
  let g ← g.scheduler.stragglers.foldlM (fun g j => do pure ((← g.release j .found now).pump now).2) g
  let g ← g.scheduler.executing.foldlM (fun g j => g.release j .missing now) g
  pure (finish g)

/-- Stops after winding down. -/
def shutdown (g : Engine) (now : Instant) : Except Overflow Engine := g.windDown stop now

/-- Replaces the document after winding down. -/
def setDocument (g : Engine) (src : Option Source) (now : Instant) : Except Overflow Engine :=
  g.windDown (·.replaceDocument src) now

end Engine

end Generator
end Thumbnailer
