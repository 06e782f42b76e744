import Thumbnailer.Proofs.Generator.Announcements

/-!
# The generator's three accounts agree

What the jobs of a generator came to is kept three times: in the generator's own counters
(`generated`, `errors`), in its scheduler's statistics (`completed`, `failed`), and in the events
its bus sends (`generated`, `error`). They are bumped on different paths: the scheduler counts
when it resolves an outcome, the generator when it handles the completion, and the bus hears of
refused requests the scheduler never sees. Over every run they agree
(`statistics_agree_with_events`):

* the thumbnails made are counted alike by the generator and the scheduler, and each is
  announced once;
* the failed attempts, retried or not, are counted alike by the generator and the scheduler;
* an error is announced for each failure for good and for each request `generateWith` refuses,
  and never for the requests of a range or a batch;
* a cancellation that removes anything announces one cancellation of its page;
* a request cancelled while it waits adds nothing to any of them: its job, if one is ever
  resolved, is discarded.

The scheduler's side is `Scheduler.run_tallies`: only resolving an outcome moves its counts.
-/

namespace Thumbnailer

namespace Schedule

open Render

/-! ### The scheduler's counts -/

/-- What a completion adds to the scheduler's counts. -/
def Completion.tally (c : Completion) : Nat × Nat :=
  (if c.isFinished then 1 else 0, if c.isFailure then 1 else 0)

namespace Scheduler

/-- The thumbnails made and the failed attempts the scheduler has counted. -/
def tallies (s : Scheduler) : Nat × Nat := (s.stats.completed, s.stats.failed)

theorem takeQueued_stats (fuel : Nat) (s : Scheduler) (started deferred : List Request) :
    (takeQueued fuel s started deferred).1.stats = s.stats := by
  -- each round changes the queue, the ids and the jobs, never the statistics
  fun_induction takeQueued fuel s started deferred <;> simp_all <;> rfl

theorem dispatch_tallies (s : Scheduler) : s.dispatch.2.tallies = s.tallies := by
  unfold dispatch
  split
  · rfl
  · rcases hT : takeQueued s.queue.size { s with workers := max s.workers s.limit } [] [] with
      ⟨s', started, deferred⟩
    have hs : s'.stats = s.stats := by
      simpa [hT] using takeQueued_stats s.queue.size { s with workers := max s.workers s.limit } [] []
    simp only [hT]
    simp only [tallies, settle_stats, hs]

/-- A failed attempt counts as failed, whether it is retried or not. -/
theorem handleFailure_tallies (s : Scheduler) (r : Request) (e : JobFailure) :
    (s.handleFailure r e).1.isFailure = true ∧
      (s.handleFailure r e).2.tallies = (s.stats.completed, s.stats.failed + 1) := by
  unfold handleFailure
  dsimp only
  split
  · exact ⟨rfl, rfl⟩
  · simp only [tick]
    split <;> exact ⟨rfl, rfl⟩

/-- **Resolving an outcome counts its completion.** -/
theorem resolve_tallies (s : Scheduler) (o : Outcome) :
    (s.resolve o).2.tallies = s.tallies + (s.resolve o).1.tally := by
  unfold resolve
  split
  · rfl
  · split
    · rfl
    · obtain ⟨hf, ht⟩ := handleFailure_tallies
        { s with active := s.active.filter (·.id != o.job.id) } o.job.request ‹_›
      generalize (handleFailure _ _ _) = p at hf ht
      rcases p with ⟨c, s'⟩
      cases c <;> simp_all [tallies, Completion.tally, Completion.isFinished, Completion.isFailure]

theorem posted_eq_nil_of_waitTrace {s : Scheduler} (h : waitTrace s = []) : s.posted = [] := by
  unfold waitTrace at h
  split at h
  · assumption
  · simp at h

/-- **Only resolving an outcome moves the counts**: an event that resolves nothing keeps them. -/
theorem Op.tallies_of_trace_nil (op : Op) (s : Scheduler) (h : op.trace s = []) :
    (op.step s).2.tallies = s.tallies := by
  cases op with
  | submit r =>
    simp only [Op.step]
    unfold Scheduler.submit
    split
    · rfl
    · split <;> rfl
  | dispatch => exact dispatch_tallies s
  | finish i result =>
    simp only [Op.step]
    split
    · simp [tallies, post]
    · rfl
  | waitCompletion =>
    simp only [Op.step, waitCompletion_nil (posted_eq_nil_of_waitTrace h)]
  | drainCompletions =>
    -- a wait that resolves nothing finds nothing posted
    cases hp : s.posted with
    | nil => simp [Op.step, Scheduler.drainCompletions, hp, tallies]
    | cons o rest => simp [Op.trace, hp, waits, waitTrace] at h
  | stop => simp [Op.step, Scheduler.stop, tallies]
  | adaptConcurrency =>
    simp only [Op.step, Scheduler.adaptConcurrency]
    split
    · rfl
    · split
      · rfl
      · split <;> rfl
  | tick | cancel _ | setPriority _ _ | clearQueue | removeQueuedWhere _ | pause | resume
  | setMaxConcurrentJobs _ | setMaxRetries _ | setAdaptive _ => rfl

/-- A wait counts the completion it resolves, if any. -/
theorem waitCompletion_tallies (s : Scheduler) :
    s.waitCompletion.2.tallies = s.tallies + (((waitTrace s).filter (·.2.2.isFinished)).length,
      ((waitTrace s).filter (·.2.2.isFailure)).length) := by
  unfold waitTrace
  split
  · rename_i hp
    simp [waitCompletion_nil hp]
  · rename_i o rest hp
    have hs : ({ s with posted := rest }).tallies = s.tallies := rfl
    rw [waitCompletion_cons hp, resolve_tallies, hs]
    generalize (({ s with posted := rest }).resolve o).1 = c
    cases c <;> rfl

/-- **The scheduler's counts over a run**: it has counted exactly the thumbnails made and the
failed attempts among the completions the run resolved. -/
theorem run_tallies (s : Scheduler) (ops : List Op) :
    (s.run ops).tallies = s.tallies + (((s.trace ops).filter (·.2.2.isFinished)).length,
      ((s.trace ops).filter (·.2.2.isFailure)).length) := by
  -- accumulate the completions resolved so far
  have h := @trace_accumulate Completion
    (fun cs t => t.tallies = s.tallies + ((cs.filter (·.isFinished)).length,
      (cs.filter (·.isFailure)).length)) (fun e => some e.2.2)
    (fun cs t op hq ht => by simpa only [Op.tallies_of_trace_nil op t hq] using ht)
    (fun cs t ht => by
      rw [waitCompletion_tallies, ht]
      simp [List.filter_append, List.filter_map, Function.comp_def, Prod.ext_iff, Nat.add_assoc])
    ops [] s (by simp)
  simpa [List.filter_map, Function.comp_def] using h

end Scheduler
end Schedule

namespace Generator

open Schedule Render Page Config

namespace Engine

/-- A subscriber listening to a generator's bus hears, over a run, the events the run sends. -/
theorem run_heard {g : Engine} {id : Nat} (h : g.bus.Listens id) (ops : List Op) :
    ∃ evs : List Event, (g.run ops).bus.inbox id = g.bus.inbox id ++ evs ∧
      (g.run ops).bus.Listens id ∧
      (evs.filter (·.isGenerated)).length = ((g.trace ops).filter (·.2.2.isFinished)).length ∧
      (evs.filter (·.isError)).length =
        ((g.trace ops).filter (·.2.2.isFailed)).length + g.rejections ops := by
  obtain ⟨evs, hbus, hmade, hfailed⟩ := run_announces g ops
  obtain ⟨hin, hl⟩ := Bus.inbox_foldl_emit h evs
  exact ⟨evs, hbus ▸ hin, hbus ▸ hl, hmade, hfailed⟩

/-- A completion for a job that is no longer live counts nowhere. -/
theorem Completion.tally_of_isDiscarded {c : Completion} (h : c.isDiscarded = true) :
    c.isFinished = false ∧ c.isFailure = false := by
  cases c <;> simp_all [Completion.isDiscarded, Completion.isFinished, Completion.isFailure]

end Engine

/-- **The generator's counters, its scheduler's statistics and its events agree over every
run.** A subscriber that listens from the generator's creation on hears:

* a thumbnail for each one made, and the generator and its scheduler count the same ones;
* the generator and its scheduler count the same failed attempts: the retried ones and the
  failures for good among the completions the run resolves;
* an error for each failure for good and each request `generateWith` refuses, and none from
  a range or a batch of requests;
* one cancellation of a page from each cancellation that removes anything;

and a request cancelled while it waits is never delivered: a completion of its job, if any
comes, is neither a thumbnail made nor a failure, so it counts nowhere. -/
theorem statistics_agree_with_events (c : GeneratorConfig) (gpu : Option Gpu) (ops : List Engine.Op) :
    let sub := (Engine.create c gpu).bus.subscribe
    let g₀ : Engine := { Engine.create c gpu with bus := sub.2 }
    let g := g₀.run ops
    let heard := g.bus.inbox sub.1
    let es := g₀.trace ops
    (g.generated = g.scheduler.stats.completed ∧
      g.generated = (heard.filter (·.isGenerated)).length) ∧
    (g.errors = g.scheduler.stats.failed ∧ g.errors = (es.filter (·.2.2.isFailure)).length) ∧
    ((heard.filter (·.isError)).length = (es.filter (·.2.2.isFailed)).length + g₀.rejections ops ∧
      (∀ (h : Engine) first last size quality,
        Engine.Announces h (h.generateRange first last size quality).2 0 0) ∧
      ∀ (h : Engine) pages, Engine.Announces h (h.generateBatch pages).2 0 0) ∧
    (∀ ops₁ page, let h := g₀.run ops₁
      (h.scheduler.cancel page).1.isEmpty = false →
      ∃ evs : List Event, (h.cancelRequest page).bus.inbox sub.1 = h.bus.inbox sub.1 ++ evs ∧
        evs.filter (·.isCancelled) = [.cancelled page]) ∧
    (∀ ops₁ page ops₂, let h := g₀.run ops₁
      ∀ r ∈ h.scheduler.queue.toList, r.page = page →
        ∀ e ∈ (h.cancelRequest page).trace ops₂, e.2.1.job.request = r →
          e.2.2.isFinished = false ∧ e.2.2.isFailure = false) := by
  intro sub g₀ g heard es
  -- the subscriber listens from the start and has heard nothing yet
  have hl : g₀.bus.Listens sub.1 := rfl
  have hnil : g₀.bus.inbox sub.1 = [] := rfl
  have hzero : g₀.generated = 0 ∧ g₀.errors = 0 ∧ g₀.scheduler.tallies = (0, 0) := ⟨rfl, rfl, rfl⟩
  -- the three accounts, each in terms of what the run resolved
  have hd := Engine.run_drives g₀ ops
  obtain ⟨sops, hs, hes⟩ := hd.run
  have ht := Scheduler.run_tallies g₀.scheduler sops
  rw [← hs, ← hes, hzero.2.2] at ht
  simp only [Scheduler.tallies, Prod.ext_iff, Prod.fst_add, Prod.snd_add, zero_add] at ht
  obtain ⟨evs, hin, -, hmade, hfailed⟩ := Engine.run_heard hl ops
  have hheard : heard = evs := by simpa [hnil] using hin
  have hgen := hd.generated
  have herr := hd.errors
  rw [hzero.1, zero_add] at hgen
  rw [hzero.2.1, zero_add] at herr
  refine ⟨⟨hgen.trans ht.1.symm, ?_⟩, ⟨herr.trans ht.2.symm, herr⟩, ⟨?_, Engine.generateRange_announces,
    Engine.generateBatch_announces⟩, ?_, ?_⟩
  · rw [hheard, hmade]
    exact hgen
  · rw [hheard]
    exact hfailed
  · -- a cancellation from a state of the run, where the page table agrees with the scheduler
    intro ops₁ page h hne
    have hagree : h.StatesAgree :=
      @Engine.StatesAgree.run g₀ (Engine.schedulerOk_create c gpu) (Engine.statesAgree_create c gpu) ops₁
    obtain ⟨evs₁, -, hl₁, -⟩ := Engine.run_heard hl ops₁
    obtain ⟨evs₂, hbus, hcancelled⟩ := Engine.cancelRequest_announces_cancelled hagree hne
    exact ⟨evs₂, by rw [hbus]; exact (Bus.inbox_foldl_emit hl₁ evs₂).1, hcancelled⟩
  · intro ops₁ page ops₂ h r hr hpage e he her
    exact Engine.Completion.tally_of_isDiscarded
      (@Engine.cancelled_request_never_delivered g₀ c.schedulerConfig rfl ops₁ page ops₂ r hr hpage
        e he her).1

end Generator

end Thumbnailer
