import Thumbnailer.Schedule.Scheduler

/-!
# Releasing running jobs

How a job ends is up to its environment. These are the ways a caller that controls the
workers ends them, one job at a time:

* `finishPage`: the oldest running job of a page (live or a straggler) ends with a result,
  and its outcome is resolved;
* `finishNext`: the running job (live or a straggler) with the lowest page, then the earliest
  start, does;
* `shutdown`: the stragglers end one by one, oldest first, each resolved as it arrives; then
  every live running job ends at once; then the scheduler stops, discarding those outcomes.

A result is chosen from the job's request, as an executor would compute it.
-/

namespace Thumbnailer
namespace Schedule

open Render

/-- How a released job ends, given its request. -/
abbrev Executor := Request → Except JobFailure Raster.Bitmap

namespace Scheduler

/-- Ends job `j` with the executor's result and resolves the outcome. -/
def release (s : Scheduler) (j : Job) (run : Executor) : Option Completion × Scheduler :=
  (s.post j (run j.request)).waitCompletion

/-- Ends the oldest running job of a page, if there is one. -/
def finishPage (s : Scheduler) (page : Nat) (run : Executor) : Option Completion × Scheduler :=
  match s.running.find? (·.request.page == page) with
  | none => (none, s)
  | some j => s.release j run

/-- The running job with the lowest page, the earliest started among equals. -/
def nextRunning (s : Scheduler) : Option Job :=
  s.running.foldl (fun best j =>
    match best with
    | none => some j
    | some b => if j.request.page < b.request.page then some j else some b) none

/-- Ends the next running job, answering its page and completion. -/
def finishNext (s : Scheduler) (run : Executor) : Option (Nat × Option Completion) × Scheduler :=
  match s.nextRunning with
  | none => (none, s)
  | some j =>
    let (c, s) := s.release j run
    (some (j.request.page, c), s)

/-- The stragglers end one by one, each outcome resolved; then every live running job ends
and the scheduler stops. Answers the stragglers' completions, the dropped waiting requests
and the dropped active ones. -/
def shutdown (s : Scheduler) (run : Executor) :
    (List Completion × List Request × List Request) × Scheduler :=
  let (cs, s) := s.stragglers.foldl (fun (cs, s) j =>
    match s.release j run with
    | (some c, s) => (cs ++ [c], s)
    | (none, s) => (cs, s)) ([], s)
  let s := s.executing.foldl (fun s j => s.post j (run j.request)) s
  let ((queued, inFlight), s) := s.stop
  ((cs, queued, inFlight), s)

end Scheduler

end Schedule
end Thumbnailer
