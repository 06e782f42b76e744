import Thumbnailer.Generator.Engine
import Thumbnailer.Proofs.Schedule.Run

/-!
# Runs of the generator

`Engine.Op` names what can happen to a generator: each call its owner can make, and a worker
ending one of the scheduler's running jobs with any result. `Engine.run` performs a sequence
of them; from `Engine.create`, the runs are every history a generator can have. Replacing the
document is `replaceDocument`: the jobs let through before it are `finish` and `pump` events of
their own.

The generator reaches its scheduler only through the scheduler's own events, so every run of
the generator drives a run of its scheduler (`Drives`, `run_drives`): the scheduler's state is
that run's, and the outcomes the generator resolves, in `tick` and `pump`, are that run's
resolutions (`Engine.trace`). Every fact proved of scheduler runs holds of the scheduler
inside a generator.
-/

namespace Thumbnailer

namespace Schedule

/-- Whether the completion is a thumbnail made. -/
def Completion.isFinished : Completion → Bool
  | .finished .. => true
  | _ => false

/-- Whether the completion is a failed attempt, retried or not. -/
def Completion.isFailure : Completion → Bool
  | .retrying .. | .failed .. => true
  | _ => false

end Schedule

namespace Generator

open Schedule Render Page Config Cache

namespace Engine

/-! ### What leaves the scheduler and the counters alone

Marking pages and sending events touch neither the scheduler nor the counters; the
functions built from them keep whatever those two keep. -/

@[simp] theorem emit_scheduler (g : Engine) (e : Event) : (g.emit e).scheduler = g.scheduler := rfl
@[simp] theorem emit_generated (g : Engine) (e : Event) : (g.emit e).generated = g.generated := rfl
@[simp] theorem emit_errors (g : Engine) (e : Event) : (g.emit e).errors = g.errors := rfl

theorem transition_eq (g : Engine) (page : Nat) (s : PageState) :
    g.transition page s = ((g.states.transition page s).1, g.moveTo page s) :=
  rfl

@[simp] theorem moveTo_scheduler (g : Engine) (page : Nat) (s : PageState) :
    (g.moveTo page s).scheduler = g.scheduler := rfl
@[simp] theorem moveTo_generated (g : Engine) (page : Nat) (s : PageState) :
    (g.moveTo page s).generated = g.generated := rfl
@[simp] theorem moveTo_errors (g : Engine) (page : Nat) (s : PageState) :
    (g.moveTo page s).errors = g.errors := rfl

section Keeps

variable {α : Type} (f : Engine → α)

theorem settle_keeps (hmove : ∀ g page s, f (g.moveTo page s) = f g) (g : Engine) (page : Nat)
    (s : PageState) : f (g.settle page s) = f g := by
  unfold settle
  dsimp only
  split <;> simp [hmove]

theorem foldl_moveTo_keeps (hmove : ∀ g page s, f (g.moveTo page s) = f g)
    (rs : List Schedule.Request) (s : PageState) (g : Engine) :
    f (rs.foldl (fun g r => g.moveTo r.page s) g) = f g := by
  induction rs generalizing g with
  | nil => rfl
  | cons r rs ih => simp [ih, hmove]

theorem releasePage_keeps (hemit : ∀ g e, f (g.emit e) = f g)
    (hmove : ∀ g page s, f (g.moveTo page s) = f g) (g : Engine) (page : Nat) :
    f (g.releasePage page) = f g := by
  unfold releasePage
  split
  · rfl
  · split
    · exact hmove ..
    · rw [transition_eq]
      split <;>
      · rename_i heq
        obtain ⟨-, rfl⟩ := Prod.mk.inj heq
        simp [hemit, hmove]

theorem releaseQueued_keeps (hemit : ∀ g e, f (g.emit e) = f g)
    (hmove : ∀ g page s, f (g.moveTo page s) = f g) (g : Engine) (removed : List Schedule.Request) :
    f (g.releaseQueued removed) = f g := by
  unfold releaseQueued
  exact List.foldlRecOn (motive := fun g' => f g' = f g) _ _ rfl fun g' h page _ =>
    (releasePage_keeps f hemit hmove g' page).trans h

end Keeps

@[simp] theorem settle_scheduler (g : Engine) (page : Nat) (s : PageState) :
    (g.settle page s).scheduler = g.scheduler :=
  settle_keeps Engine.scheduler (fun _ _ _ => rfl) g page s
@[simp] theorem settle_generated (g : Engine) (page : Nat) (s : PageState) :
    (g.settle page s).generated = g.generated :=
  settle_keeps Engine.generated (fun _ _ _ => rfl) g page s
@[simp] theorem settle_errors (g : Engine) (page : Nat) (s : PageState) :
    (g.settle page s).errors = g.errors :=
  settle_keeps Engine.errors (fun _ _ _ => rfl) g page s

@[simp] theorem releasePage_scheduler (g : Engine) (page : Nat) :
    (g.releasePage page).scheduler = g.scheduler :=
  releasePage_keeps Engine.scheduler (fun _ _ => rfl) (fun _ _ _ => rfl) g page
@[simp] theorem releaseQueued_scheduler (g : Engine) (removed : List Schedule.Request) :
    (g.releaseQueued removed).scheduler = g.scheduler :=
  releaseQueued_keeps Engine.scheduler (fun _ _ => rfl) (fun _ _ _ => rfl) g removed
@[simp] theorem releaseQueued_generated (g : Engine) (removed : List Schedule.Request) :
    (g.releaseQueued removed).generated = g.generated :=
  releaseQueued_keeps Engine.generated (fun _ _ => rfl) (fun _ _ _ => rfl) g removed
@[simp] theorem releaseQueued_errors (g : Engine) (removed : List Schedule.Request) :
    (g.releaseQueued removed).errors = g.errors :=
  releaseQueued_keeps Engine.errors (fun _ _ => rfl) (fun _ _ _ => rfl) g removed

@[simp] theorem foldl_moveTo_scheduler (rs : List Schedule.Request) (s : PageState) (g : Engine) :
    (rs.foldl (fun g r => g.moveTo r.page s) g).scheduler = g.scheduler :=
  foldl_moveTo_keeps Engine.scheduler (fun _ _ _ => rfl) rs s g
@[simp] theorem foldl_moveTo_generated (rs : List Schedule.Request) (s : PageState) (g : Engine) :
    (rs.foldl (fun g r => g.moveTo r.page s) g).generated = g.generated :=
  foldl_moveTo_keeps Engine.generated (fun _ _ _ => rfl) rs s g
@[simp] theorem foldl_moveTo_errors (rs : List Schedule.Request) (s : PageState) (g : Engine) :
    (rs.foldl (fun g r => g.moveTo r.page s) g).errors = g.errors :=
  foldl_moveTo_keeps Engine.errors (fun _ _ _ => rfl) rs s g

/-! ### Jobs that fail before their page lookup -/

/-- **What every posting of such a job keeps, the early run keeps.** Each round of the run posts
the failure of a running job that fails before its lookup; the fuel only bounds the rounds. -/
theorem runEarly_induction {P : Engine → Prop} {g : Engine} (hg : P g)
    (hpost : ∀ g j e, j ∈ g.scheduler.running → g.earlyFailure j.request = some e → P g →
      P { g with scheduler := g.scheduler.post j (.error e) }) :
    P g.runEarly := by
  unfold runEarly
  generalize g.scheduler.running.length + g.scheduler.pending.length = fuel
  induction fuel generalizing g with
  | zero => exact hg
  | succ fuel ih =>
    unfold runEarly.go
    split
    · exact hg
    · rename_i j e h
      obtain ⟨j', hj', hsome⟩ := List.exists_of_findSome?_eq_some h
      obtain ⟨e', he', hje⟩ := Option.map_eq_some_iff.1 hsome
      cases hje
      exact ih (hpost g _ _ hj' he' hg)

/-- The early run changes the scheduler alone. -/
theorem runEarly_eq (g : Engine) : ∃ s, g.runEarly = { g with scheduler := s } :=
  runEarly_induction (P := fun g' => ∃ s, g' = { g with scheduler := s }) ⟨_, rfl⟩ <| by
    rintro _ _ _ _ _ ⟨_, rfl⟩
    exact ⟨_, rfl⟩

/-- Posting a failure leaves the queue and the active jobs as they are. -/
@[simp] theorem runEarly_queue (g : Engine) : g.runEarly.scheduler.queue = g.scheduler.queue :=
  runEarly_induction (P := fun g' => g'.scheduler.queue = g.scheduler.queue) rfl
    fun _ _ _ _ _ h => by simpa [Scheduler.post] using h

@[simp] theorem runEarly_active (g : Engine) : g.runEarly.scheduler.active = g.scheduler.active :=
  runEarly_induction (P := fun g' => g'.scheduler.active = g.scheduler.active) rfl
    fun _ _ _ _ _ h => by simpa [Scheduler.post] using h

@[simp] theorem runEarly_stats (g : Engine) : g.runEarly.scheduler.stats = g.scheduler.stats :=
  runEarly_induction (P := fun g' => g'.scheduler.stats = g.scheduler.stats) rfl
    fun _ _ _ _ _ h => by simpa [Scheduler.post] using h

@[simp] theorem runEarly_bus (g : Engine) : g.runEarly.bus = g.bus := by
  obtain ⟨s, hs⟩ := runEarly_eq g
  rw [hs]

@[simp] theorem runEarly_states (g : Engine) : g.runEarly.states = g.states := by
  obtain ⟨s, hs⟩ := runEarly_eq g
  rw [hs]

@[simp] theorem runEarly_generated (g : Engine) : g.runEarly.generated = g.generated := by
  obtain ⟨s, hs⟩ := runEarly_eq g
  rw [hs]

@[simp] theorem runEarly_errors (g : Engine) : g.runEarly.errors = g.errors := by
  obtain ⟨s, hs⟩ := runEarly_eq g
  rw [hs]

/-! ### Handling completions -/

@[simp] theorem handleOne_scheduler (g : Engine) (c : Completion) :
    (g.handleOne c).scheduler = g.scheduler := by
  cases c <;> simp [handleOne]

/-- A thumbnail made counts as generated. -/
theorem handleOne_generated (g : Engine) (c : Completion) :
    (g.handleOne c).generated = g.generated + if c.isFinished then 1 else 0 := by
  cases c <;> simp [handleOne, Completion.isFinished]

/-- A failed attempt counts as an error, retried or not. -/
theorem handleOne_errors (g : Engine) (c : Completion) :
    (g.handleOne c).errors = g.errors + if c.isFailure then 1 else 0 := by
  cases c <;> simp [handleOne, Completion.isFailure]

theorem handleCompletions_eq (g : Engine) (cs : List Completion) :
    g.handleCompletions cs = if cs.isEmpty then g else
      (cs.foldl handleOne g).emit (.activeJobs (cs.foldl handleOne g).activeJobs) :=
  rfl

@[simp] theorem handleCompletions_scheduler (g : Engine) (cs : List Completion) :
    (g.handleCompletions cs).scheduler = g.scheduler := by
  rw [handleCompletions_eq]
  split
  · rfl
  · -- every completion handled leaves the scheduler as it is
    induction cs generalizing g with
    | nil => rfl
    | cons c cs ih => cases cs <;> simp_all

/-- **The generated counter counts the thumbnails made** among the handled completions. -/
theorem handleCompletions_generated (g : Engine) (cs : List Completion) :
    (g.handleCompletions cs).generated = g.generated + (cs.filter (·.isFinished)).length := by
  have key : ∀ (cs : List Completion) (g : Engine),
      (cs.foldl handleOne g).generated = g.generated + (cs.filter (·.isFinished)).length := by
    intro cs
    induction cs with
    | nil => intro g; rfl
    | cons c cs ih =>
      intro g
      rw [List.foldl_cons, ih, handleOne_generated, List.filter_cons]
      cases c.isFinished
      · simp
      · simp only [if_true, List.length_cons]
        omega
  rw [handleCompletions_eq]
  split
  · rename_i h
    simp [List.isEmpty_iff.1 h]
  · simp [key]

/-- **The error counter counts the failed attempts** among the handled completions. -/
theorem handleCompletions_errors (g : Engine) (cs : List Completion) :
    (g.handleCompletions cs).errors = g.errors + (cs.filter (·.isFailure)).length := by
  have key : ∀ (cs : List Completion) (g : Engine),
      (cs.foldl handleOne g).errors = g.errors + (cs.filter (·.isFailure)).length := by
    intro cs
    induction cs with
    | nil => intro g; rfl
    | cons c cs ih =>
      intro g
      rw [List.foldl_cons, ih, handleOne_errors, List.filter_cons]
      cases c.isFailure
      · simp
      · simp only [if_true, List.length_cons]
        omega
  rw [handleCompletions_eq]
  split
  · rename_i h
    simp [List.isEmpty_iff.1 h]
  · simp [key]

/-! ### What the generator does to its scheduler -/

/-- `g'` is `g` once its scheduler has gone through a run whose resolutions are `es`, with
the thumbnails made and the failed attempts among them counted. -/
structure Drives (g g' : Engine) (es : List (Scheduler × Outcome × Completion)) : Prop where
  run : ∃ sops : List Scheduler.Op, g'.scheduler = g.scheduler.run sops ∧ es = g.scheduler.trace sops
  generated : g'.generated = g.generated + (es.filter (·.2.2.isFinished)).length
  errors : g'.errors = g.errors + (es.filter (·.2.2.isFailure)).length

theorem Drives.same {g g' : Engine} (hs : g'.scheduler = g.scheduler)
    (hg : g'.generated = g.generated) (he : g'.errors = g.errors) : Drives g g' [] :=
  ⟨⟨[], hs, rfl⟩, by simpa using hg, by simpa using he⟩

/-- One event of the scheduler that resolves nothing. -/
theorem Drives.op {g g' : Engine} (sop : Scheduler.Op) (hq : sop.trace g.scheduler = [])
    (hs : g'.scheduler = (sop.step g.scheduler).2) (hg : g'.generated = g.generated)
    (he : g'.errors = g.errors) : Drives g g' [] :=
  ⟨⟨[sop], hs, by simp [Scheduler.trace, hq]⟩, by simpa using hg, by simpa using he⟩

/-- **One event of the scheduler whose completions the generator handles.** -/
theorem Drives.handle (sop : Scheduler.Op) (g : Engine) :
    Drives g ({ g with scheduler := (sop.step g.scheduler).2 }.handleCompletions (sop.step g.scheduler).1)
      (sop.trace g.scheduler) where
  run := ⟨[sop], by simp, by simp [Scheduler.trace]⟩
  generated := by
    rw [handleCompletions_generated, Scheduler.Op.step_fst, List.filter_map, List.length_map]
    rfl
  errors := by
    rw [handleCompletions_errors, Scheduler.Op.step_fst, List.filter_map, List.length_map]
    rfl

theorem Drives.trans {g₁ g₂ g₃ : Engine} {es₁ es₂ : List (Scheduler × Outcome × Completion)}
    (h₁ : Drives g₁ g₂ es₁) (h₂ : Drives g₂ g₃ es₂) : Drives g₁ g₃ (es₁ ++ es₂) where
  run := by
    obtain ⟨sops₁, hs₁, he₁⟩ := h₁.run
    obtain ⟨sops₂, hs₂, he₂⟩ := h₂.run
    refine ⟨sops₁ ++ sops₂, by rw [hs₂, hs₁, Scheduler.run_append], ?_⟩
    rw [he₁, he₂, hs₁, Scheduler.trace_append]
  generated := by
    rw [h₂.generated, h₁.generated, List.filter_append, List.length_append, Nat.add_assoc]
  errors := by
    rw [h₂.errors, h₁.errors, List.filter_append, List.length_append, Nat.add_assoc]

theorem Drives.trans_same {g₁ g₂ g₃ : Engine} {es : List (Scheduler × Outcome × Completion)}
    (h₁ : Drives g₁ g₂ es) (hs : g₃.scheduler = g₂.scheduler) (hg : g₃.generated = g₂.generated)
    (he : g₃.errors = g₂.errors) : Drives g₁ g₃ es := by
  simpa using h₁.trans (Drives.same hs hg he)

theorem drives_admitQueued (g : Engine) : Drives g g.admitQueued [] := by
  unfold admitQueued
  split
  · exact Drives.same rfl rfl rfl
  · rcases h : g.scheduler.dispatch with ⟨started, s⟩
    have hd : Drives g { g with scheduler := s } [] :=
      Drives.op .dispatch rfl (by simp only [Scheduler.Op.step, h]) rfl rfl
    dsimp only
    split
    · exact hd
    · -- marking the started pages and announcing the counts touch neither
      exact hd.trans_same (by simp) (by simp) (by simp)

/-- A worker posting a running job's outcome is the scheduler's `finish` of that job. -/
theorem Drives.post (g : Engine) {j : Job} (hj : j ∈ g.scheduler.running)
    (result : Except JobFailure Raster.Bitmap) :
    Drives g { g with scheduler := g.scheduler.post j result } [] := by
  obtain ⟨i, hi⟩ := List.mem_iff_getElem?.1 hj
  exact Drives.op (.finish i result) rfl (by simp [Scheduler.Op.step, hi]) rfl rfl

theorem drives_runEarly (g : Engine) : Drives g g.runEarly [] :=
  runEarly_induction (P := fun g' => Drives g g' []) (Drives.same rfl rfl rfl)
    fun g' _ e hj _ h => h.trans (Drives.post g' hj (.error e))

theorem drives_dispatch (g : Engine) : Drives g g.dispatch [] :=
  (drives_admitQueued g).trans (drives_runEarly _)

theorem drives_enqueue (g : Engine) (page : Nat) (v : Variant) (priority : Int) :
    Drives g (g.enqueue page v priority).2 [] := by
  unfold enqueue
  dsimp only
  let r : Schedule.Request := { page, size := v.size, quality := v.quality, priority,
                                submittedAt := g.scheduler.tick.1, backend := v.backend }
  have ht : Drives g { g with scheduler := g.scheduler.tick.2 } [] := Drives.op .tick rfl rfl rfl rfl
  have hs : Drives { g with scheduler := g.scheduler.tick.2 }
      { g with scheduler := (g.scheduler.tick.2.submit r).2 } [] := Drives.op (.submit r) rfl rfl rfl rfl
  have h := ht.trans hs
  split
  · rename_i s hsub
    exact h.trans_same (by simp [r, hsub]) rfl rfl
  · rename_i x s hsub
    exact h.trans_same (by simp [r, hsub]) rfl rfl

theorem drives_enqueueAll (g : Engine) (v : Variant) (pages : List (Nat × Int)) :
    Drives g (g.enqueueAll v pages).2 [] := by
  unfold enqueueAll
  -- the fold enqueues one page after another, each driving the scheduler
  refine List.foldlRecOn (motive := fun acc : Nat × Engine => Drives g acc.2 []) _ _
    (Drives.same rfl rfl rfl) fun acc h x _ => ?_
  have he := h.trans (drives_enqueue acc.2 x.1 v x.2)
  unfold enqueueCounted
  split
  · rename_i g' hq
    rw [hq] at he
    exact he
  · rename_i g' hq
    rw [hq] at he
    exact he

theorem drives_afterEnqueue (g : Engine) (n : Nat) : Drives g (g.afterEnqueue n) [] := by
  unfold afterEnqueue
  split
  · have he : Drives g (g.emit (.queueSize g.queueSize)) [] := Drives.same rfl rfl rfl
    exact he.trans (drives_dispatch _)
  · exact Drives.same rfl rfl rfl

theorem drives_batchTick (g : Engine) (now : Instant) : Drives g (g.batchTick now) [] := by
  have ha : Drives g { g with scheduler := g.scheduler.adaptConcurrency.2 } [] :=
    Drives.op .adaptConcurrency rfl rfl rfl rfl
  unfold batchTick
  dsimp only
  split
  · exact ha.trans_same rfl rfl rfl
  · exact ha.trans_same rfl rfl rfl

theorem drives_batchIfDue (g : Engine) (now : Instant) : Drives g (g.batchIfDue now) [] := by
  unfold batchIfDue
  split
  · -- recording the instant touches neither the scheduler nor the counters
    have hl : Drives g { g with lastBatch := now } [] := Drives.same rfl rfl rfl
    simpa using hl.trans (drives_batchTick _ now)
  · exact Drives.same rfl rfl rfl

theorem drives_tick (g : Engine) (now : Instant) :
    Drives g (g.tick now).2 (Scheduler.Op.drainCompletions.trace g.scheduler) := by
  have hh : Drives g ({ g with scheduler := g.scheduler.drainCompletions.2 }.handleCompletions
      g.scheduler.drainCompletions.1) (Scheduler.Op.drainCompletions.trace g.scheduler) :=
    Drives.handle .drainCompletions g
  unfold tick
  dsimp only
  simpa using (hh.trans (drives_batchIfDue _ now)).trans (drives_dispatch _)

theorem drives_pump (g : Engine) (now : Instant) :
    Drives g (g.pump now).2 (Scheduler.Op.waitCompletion.trace g.dispatch.scheduler ++
      Scheduler.Op.drainCompletions.trace g.dispatch.scheduler.waitCompletion.2) := by
  have hw := (drives_dispatch g).trans (Drives.handle .waitCompletion g.dispatch)
  unfold pump
  dsimp only
  rcases hc : g.dispatch.scheduler.waitCompletion with ⟨c, s⟩
  -- the completion waited for, if any, is handled; then the tick drains
  have hw' : Drives g ({ g.dispatch with scheduler := s }.handleCompletions c.toList)
      (Scheduler.Op.waitCompletion.trace g.dispatch.scheduler) := by
    simpa [Scheduler.Op.step, hc] using hw
  cases c with
  | none => simpa [handleCompletions_eq] using hw'.trans (drives_tick _ now)
  | some c => simpa using hw'.trans (drives_tick _ now)

theorem drives_generateWith (g : Engine) (page : Nat) (o : Options) :
    Drives g (g.generateWith page o).2 [] := by
  unfold generateWith
  dsimp only
  split
  · exact Drives.same rfl rfl rfl
  · have he := drives_enqueue g page (g.variant o) o.priority
    split
    · rename_i g' hq
      rw [hq] at he
      have he' : Drives g (g'.emit (.queueSize g'.queueSize)) [] := he.trans_same rfl rfl rfl
      simpa using he'.trans (drives_dispatch _)
    · rename_i g' hq
      rw [hq] at he
      exact he

theorem drives_generateRange (g : Engine) (first last : Nat) (size : Option Target)
    (quality : Option Float) : Drives g (g.generateRange first last size quality).2 [] := by
  unfold generateRange
  split
  · exact Drives.same rfl rfl rfl
  · dsimp only
    split
    · exact Drives.same rfl rfl rfl
    · split
      · exact Drives.same rfl rfl rfl
      · exact (drives_enqueueAll _ _ _).trans (drives_afterEnqueue _ _)

theorem drives_generateBatch (g : Engine) (pages : List Nat) :
    Drives g (g.generateBatch pages).2 [] := by
  unfold generateBatch
  split
  · exact Drives.same rfl rfl rfl
  · exact (drives_enqueueAll _ _ _).trans (drives_afterEnqueue _ _)

/-- Cancelling a page reaches the scheduler through its `cancel` only. -/
theorem cancelRequest_keeps {α : Type} (f : Engine → α) (hemit : ∀ g e, f (g.emit e) = f g)
    (hmove : ∀ g page s, f (g.moveTo page s) = f g) (g : Engine) (page : Nat) :
    f (g.cancelRequest page) = f { g with scheduler := (g.scheduler.cancel page).2 } := by
  unfold cancelRequest
  dsimp only
  split
  · rfl
  · rw [transition_eq]
    split <;> split <;>
    · rename_i heq
      obtain ⟨-, rfl⟩ := Prod.mk.inj heq
      simp [hemit, hmove]

@[simp] theorem cancelRequest_scheduler (g : Engine) (page : Nat) :
    (g.cancelRequest page).scheduler = (g.scheduler.cancel page).2 :=
  cancelRequest_keeps Engine.scheduler (fun _ _ => rfl) (fun _ _ _ => rfl) g page

theorem drives_cancelRequest (g : Engine) (page : Nat) :
    Drives g (g.cancelRequest page) [] :=
  Drives.op (.cancel page) rfl (cancelRequest_scheduler g page)
    (cancelRequest_keeps Engine.generated (fun _ _ => rfl) (fun _ _ _ => rfl) g page)
    (cancelRequest_keeps Engine.errors (fun _ _ => rfl) (fun _ _ _ => rfl) g page)

theorem drives_clearQueue (g : Engine) : Drives g g.clearQueue [] :=
  (Drives.op .clearQueue rfl rfl rfl rfl :
    Drives g { g with scheduler := g.scheduler.clearQueue.2 } []).trans_same
    (by simp [clearQueue]) (by simp [clearQueue]) (by simp [clearQueue])

@[simp] theorem stop_scheduler (g : Engine) : g.stop.scheduler = g.scheduler.resume.stop.2 := by
  simp [stop]

@[simp] theorem replaceDocument_scheduler (g : Engine) (src : Option Source) :
    (g.replaceDocument src).scheduler = g.scheduler.stop.2 :=
  rfl

@[simp] theorem create_scheduler (c : GeneratorConfig) (gpu : Option Gpu) :
    (create c gpu).scheduler = Scheduler.create c.schedulerConfig :=
  rfl

theorem drives_stop (g : Engine) : Drives g g.stop [] := by
  have hr : Drives g { g with running := false, scheduler := g.scheduler.resume } [] :=
    Drives.op .resume rfl rfl rfl rfl
  have hs := hr.trans (Drives.op .stop rfl rfl rfl rfl :
    Drives { g with running := false, scheduler := g.scheduler.resume }
      { g with running := false, scheduler := g.scheduler.resume.stop.2 } [])
  exact hs.trans_same (by simp [stop]) (by simp [stop]) (by simp [stop])

theorem drives_setThumbnailSize (g : Engine) (size : Target) :
    Drives g (g.setThumbnailSize size) [] := by
  unfold setThumbnailSize
  split
  · exact Drives.same rfl rfl rfl
  · dsimp only
    split
    · exact Drives.same rfl rfl rfl
    · have hr : Drives g
          { g with thumbnailSize := size,
                   scheduler := (g.scheduler.removeQueuedWhere (·.size == g.thumbnailSize)).2 } [] :=
        Drives.op (.removeQueuedWhere _) rfl rfl rfl rfl
      exact hr.trans_same (by simp) (by simp) (by simp)

theorem drives_replaceDocument (g : Engine) (src : Option Source) :
    Drives g (g.replaceDocument src) [] :=
  (Drives.op .stop rfl rfl rfl rfl : Drives g { g with scheduler := g.scheduler.stop.2 } []).trans_same
    rfl rfl rfl

/-! ### Every event and every run -/

/-- What can happen to a generator: a call of its owner, or a worker ending a job. -/
inductive Op where
  | generate (page : Nat) (options : Options)
  | generateRange (first last : Nat) (size : Option Target) (quality : Option Float)
  | generateBatch (pages : List Nat)
  | tick (now : Instant)
  | pump (now : Instant)
  /-- The worker running the job in slot `i` of the scheduler's `running` ends it with
  `result`. -/
  | finish (i : Nat) (result : Except JobFailure Raster.Bitmap)
  | cancelRequest (page : Nat)
  | setPriority (page : Nat) (priority : Int)
  | clearQueue
  | pause
  | resume
  | stop
  | start
  | setThumbnailSize (size : Target)
  | setQuality (quality : Float)
  | setDocument (document : Option Source)
  | setRenderMode (mode : Preference)
  | setCacheStrategy (strategy : Strategy)
  | setMaxConcurrentJobs (n : Nat)
  | setMaxRetries (n : Nat)
  | setGpuEnabled (b : Bool)
  | setCompressionEnabled (b : Bool)
  | setCompressionQuality (q : Nat)
  | setCacheCapacity (bytes : Nat)
  | setMemoryPoolSize (bytes : Nat)
  | setDevicePixelRatio (ratio : Float)

/-- Performs an event. -/
def Op.step : Op → Engine → Engine
  | .generate page o, g => (g.generateWith page o).2
  | .generateRange first last size quality, g => (g.generateRange first last size quality).2
  | .generateBatch pages, g => (g.generateBatch pages).2
  | .tick now, g => (g.tick now).2
  | .pump now, g => (g.pump now).2
  | .finish i result, g =>
    match g.scheduler.running[i]? with
    | some j => { g with scheduler := g.scheduler.post j result }
    | none => g
  | .cancelRequest page, g => g.cancelRequest page
  | .setPriority page priority, g => g.setPriority page priority
  | .clearQueue, g => g.clearQueue
  | .pause, g => g.pause
  | .resume, g => g.resume
  | .stop, g => g.stop
  | .start, g => g.start
  | .setThumbnailSize size, g => g.setThumbnailSize size
  | .setQuality q, g => g.setQuality q
  | .setDocument src, g => g.replaceDocument src
  | .setRenderMode m, g => g.setRenderMode m
  | .setCacheStrategy s, g => g.setCacheStrategy s
  | .setMaxConcurrentJobs n, g => g.setMaxConcurrentJobs n
  | .setMaxRetries n, g => g.setMaxRetries n
  | .setGpuEnabled b, g => g.setGpuEnabled b
  | .setCompressionEnabled b, g => g.setCompressionEnabled b
  | .setCompressionQuality q, g => g.setCompressionQuality q
  | .setCacheCapacity bytes, g => g.setCacheCapacity bytes
  | .setMemoryPoolSize bytes, g => g.setMemoryPoolSize bytes
  | .setDevicePixelRatio r, g => g.setDevicePixelRatio r

/-- The state after a sequence of events. -/
def run (g : Engine) (ops : List Op) : Engine := ops.foldl (fun g op => op.step g) g

@[simp] theorem run_nil (g : Engine) : g.run [] = g := rfl

@[simp] theorem run_cons (g : Engine) (op : Op) (ops : List Op) :
    g.run (op :: ops) = (op.step g).run ops := rfl

theorem run_append (g : Engine) (ops₁ ops₂ : List Op) : g.run (ops₁ ++ ops₂) = (g.run ops₁).run ops₂ :=
  List.foldl_append

/-- **What every event keeps holds after every run.** -/
theorem run_induction {P : Engine → Prop} {g : Engine} (hg : P g)
    (hstep : ∀ g (op : Op), P g → P (op.step g)) (ops : List Op) : P (g.run ops) := by
  induction ops generalizing g with
  | nil => exact hg
  | cons op ops ih => exact ih (hstep g op hg)

/-- The outcomes an event resolves: `tick` drains the posted ones; `pump` dispatches, waits
for one, then ticks. -/
def Op.trace : Op → Engine → List (Scheduler × Outcome × Completion)
  | .tick _, g => Scheduler.Op.drainCompletions.trace g.scheduler
  | .pump _, g => Scheduler.Op.waitCompletion.trace g.dispatch.scheduler ++
      Scheduler.Op.drainCompletions.trace g.dispatch.scheduler.waitCompletion.2
  | _, _ => []

/-- Every outcome resolved along a run, in order. -/
def trace (g : Engine) : List Op → List (Scheduler × Outcome × Completion)
  | [] => []
  | op :: ops => op.trace g ++ trace (op.step g) ops

/-- **Each event drives the scheduler through its own events.** -/
theorem Op.drives (op : Op) (g : Engine) : Drives g (op.step g) (op.trace g) := by
  cases op with
  | generate page o => exact drives_generateWith g page o
  | generateRange first last size quality => exact drives_generateRange g first last size quality
  | generateBatch pages => exact drives_generateBatch g pages
  | tick now => exact drives_tick g now
  | pump now => exact drives_pump g now
  | finish i result =>
    simp only [Op.step, Op.trace]
    split
    · rename_i j hj
      exact Drives.op (.finish i result) rfl (by simp [Scheduler.Op.step, hj]) rfl rfl
    · exact Drives.same rfl rfl rfl
  | cancelRequest page => exact drives_cancelRequest g page
  | setPriority page priority => exact Drives.op (.setPriority page priority) rfl rfl rfl rfl
  | clearQueue => exact drives_clearQueue g
  | pause => exact Drives.op .pause rfl rfl rfl rfl
  | resume =>
    have hr : Drives g { g with scheduler := g.scheduler.resume } [] :=
      Drives.op .resume rfl rfl rfl rfl
    exact hr.trans (drives_dispatch _)
  | stop => exact drives_stop g
  | start =>
    have hr : Drives g { g with running := true, scheduler := g.scheduler.resume } [] :=
      Drives.op .resume rfl rfl rfl rfl
    exact hr.trans (drives_dispatch _)
  | setThumbnailSize size => exact drives_setThumbnailSize g size
  | setDocument src => exact drives_replaceDocument g src
  | setMaxConcurrentJobs n => exact Drives.op (.setMaxConcurrentJobs n) rfl rfl rfl rfl
  | setMaxRetries n => exact Drives.op (.setMaxRetries n) rfl rfl rfl rfl
  | setQuality _ | setRenderMode _ | setCacheStrategy _ | setGpuEnabled _ | setCompressionEnabled _
  | setCompressionQuality _ | setCacheCapacity _ | setMemoryPoolSize _ | setDevicePixelRatio _ =>
    exact Drives.same rfl rfl rfl

/-- **Every run of the generator drives a run of its scheduler**, whose resolutions are the
generator's. -/
theorem run_drives (g : Engine) (ops : List Op) : Drives g (g.run ops) (g.trace ops) := by
  induction ops generalizing g with
  | nil => exact Drives.same rfl rfl rfl
  | cons op ops ih => exact (op.drives g).trans (ih _)

end Engine

end Generator
end Thumbnailer
