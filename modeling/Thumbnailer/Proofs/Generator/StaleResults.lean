import Thumbnailer.Proofs.Schedule.Stale
import Thumbnailer.Proofs.Generator.Run

/-!
# Stale results reach no one

A generator hands the completions its scheduler resolves to its handler, which counts the
thumbnails made and the failed attempts and announces them; a discarded completion is passed
over. Every run of a generator drives a run of its scheduler (`run_drives`), so what holds of
scheduler runs holds of the resolutions a generator performs (`Engine.trace`):

* a job's result is delivered at most once;
* after `cancelRequest p`, no job of page `p` dispatched before it delivers a result, and after
  `stop` or a new document, no job at all dispatched before;
* the counters grow by exactly the delivered results (`run_counters`), so a discarded
  completion changes neither of them.

Jobs are dispatched under ids counted up from `nextId`, so the jobs dispatched before an event
are those whose ids are below the scheduler's `nextId` at that event.
-/

namespace Thumbnailer
namespace Generator

open Schedule Config Render

namespace Engine

/-- **The counters count what was delivered**: thumbnails made and failed attempts among the
resolutions of the run. -/
theorem run_counters (g : Engine) (ops : List Op) :
    (g.run ops).generated = g.generated + ((g.trace ops).filter (·.2.2.isFinished)).length ∧
      (g.run ops).errors = g.errors + ((g.trace ops).filter (·.2.2.isFailure)).length :=
  ⟨(run_drives g ops).generated, (run_drives g ops).errors⟩

/-- From the scheduler's side, a generator run ending in `op` and what follows it. -/
theorem scheduler_run_split (c : GeneratorConfig) (gpu : Option Gpu) (ops₁ : List Op) (op : Op)
    (ops₂ : List Op) : ∃ sops₁ sops₂,
      ((create c gpu).run ops₁).scheduler = (Scheduler.create c.schedulerConfig).run sops₁ ∧
      ((create c gpu).run (ops₁ ++ [op])).trace ops₂ =
        ((create c gpu).run (ops₁ ++ [op])).scheduler.trace sops₂ := by
  obtain ⟨sops₁, hs₁, -⟩ := (run_drives (create c gpu) ops₁).run
  obtain ⟨sops₂, -, ht⟩ := (run_drives ((create c gpu).run (ops₁ ++ [op])) ops₂).run
  exact ⟨sops₁, sops₂, by simpa using hs₁, ht⟩

/-- **A generator delivers each job's result at most once.** -/
theorem trace_delivered_pairwise (c : GeneratorConfig) (gpu : Option Gpu) (ops : List Op) :
    ((create c gpu).trace ops).Pairwise fun e f =>
      e.2.2.isDiscarded = false → f.2.2.isDiscarded = false → e.2.1.job.id ≠ f.2.1.job.id := by
  obtain ⟨sops, -, ht⟩ := (run_drives (create c gpu) ops).run
  rw [ht, create_scheduler]
  exact Scheduler.trace_delivered_pairwise c.schedulerConfig sops

/-- **After `cancelRequest p`, no job of page `p` dispatched before it delivers a result.** -/
theorem trace_discarded_after_cancelRequest (c : GeneratorConfig) (gpu : Option Gpu)
    (ops₁ : List Op) (page : Nat) (ops₂ : List Op) :
    let g := (create c gpu).run (ops₁ ++ [.cancelRequest page])
    ∀ e ∈ g.trace ops₂, e.2.1.job.request.page = page → e.2.1.job.id < g.scheduler.nextId →
      e.2.2.isDiscarded = true := by
  intro g e he
  obtain ⟨sops₁, sops₂, hs₁, ht⟩ := scheduler_run_split c gpu ops₁ (.cancelRequest page) ops₂
  have hg : g.scheduler = (Scheduler.create c.schedulerConfig).run (sops₁ ++ [.cancel page]) := by
    simp [g, run_append, Op.step, hs₁, Scheduler.run_append, Scheduler.Op.step]
  rw [ht] at he
  rw [hg] at he ⊢
  exact Scheduler.trace_discarded_after_cancel c.schedulerConfig sops₁ page sops₂ e he

/-- **After `stop`, no job dispatched before it delivers a result.** -/
theorem trace_discarded_after_stop (c : GeneratorConfig) (gpu : Option Gpu) (ops₁ ops₂ : List Op) :
    let g := (create c gpu).run (ops₁ ++ [.stop])
    ∀ e ∈ g.trace ops₂, e.2.1.job.id < g.scheduler.nextId → e.2.2.isDiscarded = true := by
  intro g e he
  obtain ⟨sops₁, sops₂, hs₁, ht⟩ := scheduler_run_split c gpu ops₁ .stop ops₂
  -- the generator resumes its scheduler, then stops it
  have hg : g.scheduler = (Scheduler.create c.schedulerConfig).run ((sops₁ ++ [.resume]) ++ [.stop]) := by
    simp [g, run_append, Op.step, hs₁, Scheduler.run_append, Scheduler.Op.step]
  rw [ht] at he
  rw [hg] at he ⊢
  exact Scheduler.trace_discarded_after_stop c.schedulerConfig _ sops₂ e he

/-- **After a new document, no job dispatched before it delivers a result.** -/
theorem trace_discarded_after_setDocument (c : GeneratorConfig) (gpu : Option Gpu)
    (ops₁ : List Op) (src : Option Page.Source) (ops₂ : List Op) :
    let g := (create c gpu).run (ops₁ ++ [.setDocument src])
    ∀ e ∈ g.trace ops₂, e.2.1.job.id < g.scheduler.nextId → e.2.2.isDiscarded = true := by
  intro g e he
  obtain ⟨sops₁, sops₂, hs₁, ht⟩ := scheduler_run_split c gpu ops₁ (.setDocument src) ops₂
  have hg : g.scheduler = (Scheduler.create c.schedulerConfig).run (sops₁ ++ [.stop]) := by
    simp [g, run_append, Op.step, hs₁, Scheduler.run_append, Scheduler.Op.step]
  rw [ht] at he
  rw [hg] at he ⊢
  exact Scheduler.trace_discarded_after_stop c.schedulerConfig sops₁ sops₂ e he

end Engine

/-- **Stale job results are never delivered.** In every run of a scheduler, an outcome is
delivered (finished, retried or failed) exactly when its job is the active job of its page,
and otherwise discarded; each job delivers at most once; after `cancel p` no job of page `p`
dispatched before it, and after `stop` no job dispatched before it, delivers. In every run of a
generator the same holds of `cancelRequest`, `stop` and a new document, and its counters of
thumbnails made and of failed attempts grow by exactly the delivered results. -/
theorem stale_results_never_delivered (sc : SchedulerConfig) (c : GeneratorConfig) (gpu : Option Gpu) :
    (∀ ops : List Scheduler.Op, ∀ e ∈ (Scheduler.create sc).trace ops, e.2.2.isDiscarded = false ↔
      (e.1.activeJob? e.2.1.job.request.page).map (·.id) = some e.2.1.job.id) ∧
    (∀ ops : List Scheduler.Op, ((Scheduler.create sc).trace ops).Pairwise fun e f =>
      e.2.2.isDiscarded = false → f.2.2.isDiscarded = false → e.2.1.job.id ≠ f.2.1.job.id) ∧
    (∀ (ops₁ : List Scheduler.Op) (page : Nat) (ops₂ : List Scheduler.Op),
      let s := (Scheduler.create sc).run (ops₁ ++ [.cancel page])
      ∀ e ∈ s.trace ops₂, e.2.1.job.request.page = page → e.2.1.job.id < s.nextId →
        e.2.2.isDiscarded = true) ∧
    (∀ ops₁ ops₂ : List Scheduler.Op,
      let s := (Scheduler.create sc).run (ops₁ ++ [.stop])
      ∀ e ∈ s.trace ops₂, e.2.1.job.id < s.nextId → e.2.2.isDiscarded = true) ∧
    (∀ ops : List Engine.Op, ((Engine.create c gpu).trace ops).Pairwise fun e f =>
      e.2.2.isDiscarded = false → f.2.2.isDiscarded = false → e.2.1.job.id ≠ f.2.1.job.id) ∧
    (∀ (ops₁ : List Engine.Op) (page : Nat) (ops₂ : List Engine.Op),
      let g := (Engine.create c gpu).run (ops₁ ++ [.cancelRequest page])
      ∀ e ∈ g.trace ops₂, e.2.1.job.request.page = page → e.2.1.job.id < g.scheduler.nextId →
        e.2.2.isDiscarded = true) ∧
    (∀ ops₁ ops₂ : List Engine.Op,
      let g := (Engine.create c gpu).run (ops₁ ++ [.stop])
      ∀ e ∈ g.trace ops₂, e.2.1.job.id < g.scheduler.nextId → e.2.2.isDiscarded = true) ∧
    (∀ (ops₁ : List Engine.Op) (src : Option Page.Source) (ops₂ : List Engine.Op),
      let g := (Engine.create c gpu).run (ops₁ ++ [.setDocument src])
      ∀ e ∈ g.trace ops₂, e.2.1.job.id < g.scheduler.nextId → e.2.2.isDiscarded = true) ∧
    (∀ (g : Engine) (ops : List Engine.Op),
      (g.run ops).generated = g.generated + ((g.trace ops).filter (·.2.2.isFinished)).length ∧
      (g.run ops).errors = g.errors + ((g.trace ops).filter (·.2.2.isFailure)).length) :=
  ⟨Scheduler.trace_delivered_iff sc, Scheduler.trace_delivered_pairwise sc,
    Scheduler.trace_discarded_after_cancel sc, Scheduler.trace_discarded_after_stop sc,
    Engine.trace_delivered_pairwise c gpu, Engine.trace_discarded_after_cancelRequest c gpu,
    Engine.trace_discarded_after_stop c gpu, Engine.trace_discarded_after_setDocument c gpu,
    Engine.run_counters⟩

end Generator
end Thumbnailer
