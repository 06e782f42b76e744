import Thumbnailer.Proofs.Generator.PageView

/-!
# The page table agrees with the scheduler

In every state a generator reaches, its page table and its scheduler tell the same story about
every page (`Agrees`): a queued page has a waiting request, a rendering page an active job, and
a page with either is queued or rendering, so an idle, cached, failed or cancelled page has no
work left.

Each event is taken apart into what it does to the scheduler (`Schedule.Scheduler.dispatch_view`,
`resolve_delivered` and the like) and what it does to the page table (`pageState_moveTo`,
`pageState_handleOne`, `agrees_releaseQueued`). Two events take more than one step:

* `tick` resolves every posted outcome before it handles any completion, so in between the
  pages of the delivered results lag behind the scheduler, one completion per page (`Lags`);
  handling the completions one by one catches them up;
* after waiting requests are dropped (`clearQueue`, a new thumbnail size, `stop`), each page
  concerned is released against the scheduler as it is after the drop (`StatesAgree.release`).

Dispatching and resolving rely on the scheduler's own invariants, which every run keeps
(`SchedulerOk`).
-/

namespace Thumbnailer
namespace Generator

open Schedule Render Page Config

namespace Engine

/-- The page table agrees with the scheduler about every page. -/
def StatesAgree (g : Engine) : Prop :=
  ∀ p, Agrees (g.pageState p) (g.scheduler.isQueued p) (g.scheduler.hasActive p)

/-- The scheduler's invariants, which hold in every state a scheduler reaches. -/
def SchedulerOk (g : Engine) : Prop := g.scheduler.Inv ∧ g.scheduler.JobsOk

@[simp] theorem pageState_setScheduler (g : Engine) (s : Scheduler) (p : Nat) :
    ({ g with scheduler := s }).pageState p = g.pageState p := rfl

theorem SchedulerOk.op {g g' : Engine} (hs : g.SchedulerOk) (sop : Scheduler.Op)
    (h : g'.scheduler = (sop.step g.scheduler).2) : g'.SchedulerOk := by
  unfold SchedulerOk
  rw [h]
  exact Scheduler.reach_step hs sop

theorem Drives.schedulerOk {g g' : Engine} {es : List (Scheduler × Outcome × Completion)}
    (h : Drives g g' es) (hs : g.SchedulerOk) : g'.SchedulerOk := by
  obtain ⟨sops, hr, -⟩ := h.run
  unfold SchedulerOk
  rw [hr]
  exact @Scheduler.run_induction (fun t => t.Inv ∧ t.JobsOk) _ hs
    (fun _ op h => Scheduler.reach_step h op) sops

/-- A step that changes neither the page table nor the scheduler's answers keeps the agreement. -/
theorem StatesAgree.of_view {g g' : Engine} (h : g.StatesAgree)
    (hst : ∀ p, g'.pageState p = g.pageState p)
    (hq : ∀ p, g'.scheduler.isQueued p = g.scheduler.isQueued p)
    (ha : ∀ p, g'.scheduler.hasActive p = g.scheduler.hasActive p) : g'.StatesAgree := by
  intro p
  rw [hst, hq, ha]
  exact h p

/-- A step that changes neither the page table nor the queue and the active jobs keeps the
agreement. -/
theorem StatesAgree.of_scheduler {g g' : Engine} (h : g.StatesAgree)
    (hst : ∀ p, g'.pageState p = g.pageState p) (hq : g'.scheduler.queue = g.scheduler.queue)
    (ha : g'.scheduler.active = g.scheduler.active) : g'.StatesAgree :=
  h.of_view hst (fun p => by simp [Scheduler.isQueued, hq])
    (fun p => by simp [Scheduler.hasActive, Scheduler.activeJob?, ha])

end Engine

/-! ### Completions waiting to be handled -/

/-- The pages against scheduler `s` while the completions `cs` wait to be handled: each page
has at most one of them; a page with none agrees, and a page with one lags. -/
structure Lags (st : Nat → PageState) (s : Scheduler) (cs : List Completion) : Prop where
  nodup : (cs.filterMap Completion.deliveredPage?).Nodup
  agree : ∀ p, p ∉ cs.filterMap Completion.deliveredPage? →
    Agrees (st p) (s.isQueued p) (s.hasActive p)
  lag : ∀ c ∈ cs, ∀ p, c.deliveredPage? = some p →
    Lagging (st p) (s.isQueued p) (s.hasActive p) c.isRetrying

namespace Lags

variable {st : Nat → PageState}

theorem of_agrees {s : Scheduler} (h : ∀ p, Agrees (st p) (s.isQueued p) (s.hasActive p)) :
    Lags st s [] :=
  ⟨List.nodup_nil, fun p _ => h p, by simp⟩

/-- **A wait makes one more page lag.** The result delivered is for a page with an active
job, so for no page lagging already. -/
theorem wait {s : Scheduler} {cs : List Completion} (hs : s.Inv ∧ s.JobsOk) (h : Lags st s cs) :
    Lags st s.waitCompletion.2 (cs ++ s.waitCompletion.1.toList) := by
  rcases hp : s.posted with _ | ⟨o, rest⟩
  · rw [Scheduler.waitCompletion_nil hp]
    simpa using h
  · rw [Scheduler.waitCompletion_eq hp]
    simp only [Option.toList_some]
    cases hc : (s.resolve o).1.deliveredPage? with
    | none =>
      -- a discard changes no answer
      obtain ⟨hq, ha⟩ := Scheduler.resolve_discarded hc
      have hv : ∀ p, ({ (s.resolve o).2 with posted := rest }).isQueued p = s.isQueued p ∧
          ({ (s.resolve o).2 with posted := rest }).hasActive p = s.hasActive p := fun p =>
        ⟨by simp only [Scheduler.isQueued, hq], by simp only [Scheduler.hasActive, Scheduler.activeJob?, ha]⟩
      refine ⟨by simpa [hc] using h.nodup, fun p hp => ?_, fun c hc' p hcp => ?_⟩
      · rw [(hv p).1, (hv p).2]
        exact h.agree p (by simpa [hc] using hp)
      · rw [(hv p).1, (hv p).2]
        rcases List.mem_append.1 hc' with hc' | hc'
        · exact h.lag c hc' p hcp
        · rw [List.mem_singleton.1 hc', hc] at hcp
          cases hcp
    | some p₀ =>
      have hu : ∀ a ∈ s.active, a.id = o.job.id → a = o.job := fun a ha hid =>
        hs.2.unique a (by simp [ha]) o.job (by simp [hp]) hid
      obtain ⟨he, hr⟩ := Scheduler.resolve_delivered hs.1.active hu hc
      -- the page had an active job, so it was not lagging yet
      have hnew : p₀ ∉ cs.filterMap Completion.deliveredPage? := fun hm => by
        obtain ⟨c, hc', hcp⟩ := List.mem_filterMap.1 hm
        have := (h.lag c hc' p₀ hcp).1
        rw [he.was_active] at this
        cases this
      have hfm : (cs ++ [(s.resolve o).1]).filterMap Completion.deliveredPage? =
          cs.filterMap Completion.deliveredPage? ++ [p₀] := by
        simp [hc]
      refine ⟨?_, fun p hp => ?_, fun c hc' p hcp => ?_⟩
      · rw [hfm]
        refine List.nodup_append.2 ⟨h.nodup, List.nodup_singleton _, fun x hx y hy hxy => ?_⟩
        rw [List.mem_singleton.1 hy] at hxy
        exact hnew (hxy ▸ hx)
      · rw [hfm] at hp
        have hne : p ≠ p₀ := fun he' => hp (by simp [he'])
        obtain ⟨hq, ha⟩ := he.other p hne
        show Agrees (st p) ((s.resolve o).2.isQueued p) ((s.resolve o).2.hasActive p)
        rw [hq, ha]
        exact h.agree p (fun hm => hp (List.mem_append_left _ hm))
      · show Lagging (st p) ((s.resolve o).2.isQueued p) ((s.resolve o).2.hasActive p) c.isRetrying
        rcases List.mem_append.1 hc' with hc' | hc'
        · -- a page lagging already is not the delivered one
          have hne : p ≠ p₀ := fun he' => hnew (he' ▸ List.mem_filterMap.2 ⟨c, hc', hcp⟩)
          obtain ⟨hq, ha⟩ := he.other p hne
          rw [hq, ha]
          exact h.lag c hc' p hcp
        · rw [List.mem_singleton.1 hc'] at hcp ⊢
          obtain rfl : p₀ = p := Option.some.inj (hc.symm.trans hcp)
          have hag := h.agree p₀ hnew
          rw [he.was_active] at hag
          rw [he.inactive]
          exact lagging_of_agrees hag he.queued hr

/-- Draining makes the pages of all the delivered results lag. -/
theorem drain (n : Nat) {s : Scheduler} {cs : List Completion} (hs : s.Inv ∧ s.JobsOk)
    (h : Lags st s cs) :
    Lags st (Scheduler.waits n s).2 (cs ++ (Scheduler.waits n s).1.map (·.2.2)) := by
  have hw := @Scheduler.waits_accumulate Completion (fun acc t => (t.Inv ∧ t.JobsOk) ∧ Lags st t acc)
    (fun e => some e.2.2)
    (fun acc t ht => ⟨Scheduler.reach_step ht.1 .waitCompletion,
      by simpa [Scheduler.waitCompletion_fst] using ht.2.wait ht.1⟩) n cs s ⟨hs, h⟩
  simpa using hw.2

/-- **Handling a completion catches its page up.** -/
theorem handleOne {g : Engine} {c : Completion} {cs : List Completion}
    (h : Lags g.pageState g.scheduler (c :: cs)) :
    Lags (g.handleOne c).pageState (g.handleOne c).scheduler cs := by
  have hfm : (c :: cs).filterMap Completion.deliveredPage? =
      c.deliveredPage?.toList ++ cs.filterMap Completion.deliveredPage? := by
    cases hc : c.deliveredPage? <;> simp [hc]
  have hnd := h.nodup
  rw [hfm] at hnd
  rw [Engine.handleOne_scheduler]
  refine ⟨(List.nodup_append.1 hnd).2.1, fun p hp => ?_, fun c' hc' p hcp => ?_⟩
  · rw [Engine.pageState_handleOne]
    split
    · rename_i hcp
      have hl := h.lag c List.mem_cons_self p hcp
      have ha := hl.1
      rw [ha] at hl ⊢
      exact agrees_handled hcp hl
    · rename_i hcp
      refine h.agree p (fun hm => ?_)
      rw [hfm] at hm
      rcases List.mem_append.1 hm with hm | hm
      · exact hcp (Option.mem_toList.1 hm)
      · exact hp hm
  · rw [Engine.pageState_handleOne, if_neg]
    · exact h.lag c' (List.mem_cons_of_mem c hc') p hcp
    · -- the handled completions are for different pages
      intro hcp'
      exact (List.nodup_append.1 hnd).2.2 p (Option.mem_toList.2 hcp') p
        (List.mem_filterMap.2 ⟨c', hc', hcp⟩) rfl

theorem foldl_handleOne {g : Engine} {cs : List Completion} (h : Lags g.pageState g.scheduler cs) :
    (cs.foldl Engine.handleOne g).StatesAgree := by
  induction cs generalizing g with
  | nil => exact fun p => h.agree p (by simp)
  | cons c cs ih => exact ih h.handleOne

/-- **Handling every completion makes every page agree.** -/
theorem handleCompletions {g : Engine} {cs : List Completion} (h : Lags g.pageState g.scheduler cs) :
    (g.handleCompletions cs).StatesAgree := by
  rw [Engine.handleCompletions_eq]
  split
  · rename_i he
    rw [List.isEmpty_iff.1 he] at h
    exact fun p => h.agree p (by simp)
  · exact h.foldl_handleOne

end Lags

namespace Engine

/-! ### Queueing and dispatching -/

/-- **Admitting work keeps the agreement**: the started pages were queued with no job, and are
rendering with one. -/
theorem StatesAgree.admitQueued {g : Engine} (hs : g.SchedulerOk) (h : g.StatesAgree) :
    g.admitQueued.StatesAgree := by
  have hv := Scheduler.dispatch_view hs.1
  unfold Engine.admitQueued
  split
  · exact h
  · rcases hd : g.scheduler.dispatch with ⟨started, s'⟩
    rw [hd] at hv
    dsimp only
    -- the pages not started keep their answers
    have hkeep : ∀ p, p ∉ started.map (·.page) →
        s'.isQueued p = g.scheduler.isQueued p ∧ s'.hasActive p = g.scheduler.hasActive p :=
      fun p hp => ⟨Scheduler.isQueued_eq_of_perm hv.queue hp |>.symm,
        Bool.eq_iff_iff.2 ((hv.active p).trans (by simp [hp]))⟩
    split
    · rename_i hempty
      rw [List.isEmpty_iff.1 hempty] at hkeep
      exact h.of_view (fun _ => rfl) (fun p => (hkeep p (by simp)).1) (fun p => (hkeep p (by simp)).2)
    · intro p
      simp only [pageState_emit, emit_scheduler, foldl_moveTo_scheduler, pageState_foldl_moveTo,
        pageState_setScheduler]
      split
      · rename_i hp
        obtain ⟨r, hr, rfl⟩ := List.mem_map.1 hp
        have hq := (Scheduler.isQueued_of_perm hv.queue _).2 (.inl hp)
        have hag := h r.page
        rw [hq, hv.fresh r hr] at hag
        rw [(hv.active _).2 (.inr hp)]
        exact agrees_start hag _
      · rename_i hp
        rw [(hkeep p hp).1, (hkeep p hp).2]
        exact h p

/-- A worker posting an outcome changes neither the queue nor the active jobs. -/
theorem StatesAgree.post {g : Engine} (h : g.StatesAgree) (j : Job)
    (result : Except JobFailure Raster.Bitmap) :
    ({ g with scheduler := g.scheduler.post j result }).StatesAgree :=
  h.of_scheduler (fun _ => rfl) (by simp [Scheduler.post]) (by simp [Scheduler.post])

theorem StatesAgree.runEarly {g : Engine} (h : g.StatesAgree) : g.runEarly.StatesAgree :=
  runEarly_induction h fun _ j e _ _ h' => h'.post j (.error e)

/-- **Dispatching keeps the agreement**: admitting work does, and so do the early failures. -/
theorem StatesAgree.dispatch {g : Engine} (hs : g.SchedulerOk) (h : g.StatesAgree) :
    g.dispatch.StatesAgree :=
  (StatesAgree.admitQueued hs h).runEarly

/-- **Queueing a request keeps the agreement**: its page is queued and has a waiting request. -/
theorem StatesAgree.enqueue {g : Engine} (h : g.StatesAgree) (page : Nat) (v : Variant)
    (priority : Int) : (g.enqueue page v priority).2.StatesAgree := by
  unfold Engine.enqueue
  dsimp only
  split
  · rename_i s' hsub
    have hq := Scheduler.submit_queued hsub
    have ha := congrArg (fun x => x.2.active) hsub
    simp only [Scheduler.submit_active] at ha
    -- the clock's tick changes no answer
    have htq : ∀ p, g.scheduler.tick.2.isQueued p = g.scheduler.isQueued p := fun _ => rfl
    have hta : g.scheduler.tick.2.active = g.scheduler.active := rfl
    intro p
    rw [pageState_moveTo, moveTo_scheduler]
    by_cases hp : p = page
    · subst hp
      rw [if_pos rfl, (Scheduler.isQueued_of_perm hq _).2 (.inl (by simp))]
      exact agrees_enqueue _ _
    · rw [if_neg hp, Scheduler.isQueued_eq_of_perm hq (by simpa using hp), htq]
      simpa [Scheduler.hasActive, Scheduler.activeJob?, ← ha, hta] using h p
  · rename_i a s' hne hsub
    obtain rfl := Scheduler.submit_not_queued hsub hne
    exact h

theorem StatesAgree.enqueueAll {g : Engine} (h : g.StatesAgree) (v : Variant)
    (pages : List (Nat × Int)) : (g.enqueueAll v pages).2.StatesAgree := by
  unfold Engine.enqueueAll
  refine List.foldlRecOn (motive := fun acc : Nat × Engine => acc.2.StatesAgree) _ _ h
    fun acc hacc x _ => ?_
  have he := hacc.enqueue x.1 v x.2
  unfold enqueueCounted
  split
  · rename_i g' hq
    rw [hq] at he
    exact he
  · rename_i g' hq
    rw [hq] at he
    exact he

theorem StatesAgree.afterEnqueue {g : Engine} (hs : g.SchedulerOk) (h : g.StatesAgree) (n : Nat) :
    (g.afterEnqueue n).StatesAgree := by
  unfold Engine.afterEnqueue
  split
  · exact @StatesAgree.dispatch (g.emit _) hs h
  · exact h

theorem StatesAgree.generateWith {g : Engine} (hs : g.SchedulerOk) (h : g.StatesAgree) (page : Nat)
    (o : Options) : (g.generateWith page o).2.StatesAgree := by
  have hd := drives_enqueue g page (g.variant o) o.priority
  have he := h.enqueue page (g.variant o) o.priority
  unfold Engine.generateWith
  dsimp only
  split
  · exact h
  · split
    · rename_i g' hq
      rw [hq] at hd he
      exact @StatesAgree.dispatch (g'.emit _) (hd.schedulerOk hs) he
    · rename_i g' hq
      rw [hq] at he
      exact he

/-- Queueing a batch and dispatching. -/
theorem StatesAgree.enqueueAll_afterEnqueue {g : Engine} (hs : g.SchedulerOk) (h : g.StatesAgree)
    (v : Variant) (pages : List (Nat × Int)) :
    ((g.enqueueAll v pages).2.afterEnqueue (g.enqueueAll v pages).1).StatesAgree :=
  (h.enqueueAll v pages).afterEnqueue ((drives_enqueueAll g v pages).schedulerOk hs) _

theorem StatesAgree.generateRange {g : Engine} (hs : g.SchedulerOk) (h : g.StatesAgree)
    (first last : Nat) (size : Option Target) (quality : Option Float) :
    (g.generateRange first last size quality).2.StatesAgree := by
  unfold Engine.generateRange
  split
  · exact h
  · dsimp only
    split
    · exact h
    · split
      · exact h
      · exact h.enqueueAll_afterEnqueue hs _ _

theorem StatesAgree.generateBatch {g : Engine} (hs : g.SchedulerOk) (h : g.StatesAgree)
    (pages : List Nat) : (g.generateBatch pages).2.StatesAgree := by
  unfold Engine.generateBatch
  split
  · exact h
  · exact h.enqueueAll_afterEnqueue hs _ _

/-! ### Handling completions -/

theorem StatesAgree.batchTick {g : Engine} (h : g.StatesAgree) (now : Instant) : (g.batchTick now).StatesAgree := by
  have hq : g.scheduler.adaptConcurrency.2.queue = g.scheduler.queue ∧
      g.scheduler.adaptConcurrency.2.active = g.scheduler.active := by
    unfold Scheduler.adaptConcurrency
    dsimp only
    split_ifs <;> exact ⟨rfl, rfl⟩
  unfold Engine.batchTick
  dsimp only
  split
  · exact h.of_scheduler (fun _ => rfl) hq.1 hq.2
  · exact h.of_scheduler (fun _ => rfl) hq.1 hq.2

theorem StatesAgree.batchIfDue {g : Engine} (h : g.StatesAgree) (now : Instant) :
    (g.batchIfDue now).StatesAgree := by
  unfold Engine.batchIfDue
  split
  · exact StatesAgree.batchTick (g := { g with lastBatch := now }) h now
  · exact h

/-- **A tick keeps the agreement**: it drains, handles what it drained, and dispatches. -/
theorem StatesAgree.tick {g : Engine} (hs : g.SchedulerOk) (h : g.StatesAgree) (now : Instant) :
    (g.tick now).2.StatesAgree := by
  have hl : Lags g.pageState g.scheduler.drainCompletions.2 g.scheduler.drainCompletions.1 := by
    rw [Scheduler.drainCompletions_eq]
    simpa using Lags.drain g.scheduler.posted.length hs (Lags.of_agrees h)
  have hh := @Lags.handleCompletions { g with scheduler := g.scheduler.drainCompletions.2 } _ hl
  have hsh := (Drives.handle .drainCompletions g).schedulerOk hs
  exact (hh.batchIfDue now).dispatch ((drives_batchIfDue _ now).schedulerOk hsh)

/-- **A pump keeps the agreement**: it dispatches, handles one completion, and ticks. -/
theorem StatesAgree.pump {g : Engine} (hs : g.SchedulerOk) (h : g.StatesAgree) (now : Instant) :
    (g.pump now).2.StatesAgree := by
  have hds := (drives_dispatch g).schedulerOk hs
  have hda := h.dispatch hs
  have hw := (Drives.handle .waitCompletion g.dispatch).schedulerOk hds
  have hl := Lags.wait hds (Lags.of_agrees hda)
  unfold Engine.pump
  dsimp only
  rcases hc : g.dispatch.scheduler.waitCompletion with ⟨c, s⟩
  rw [hc] at hl
  have hh := @Lags.handleCompletions { g.dispatch with scheduler := s } _ hl
  have hws : ({ g.dispatch with scheduler := s }.handleCompletions c.toList).SchedulerOk := by
    simpa [Scheduler.Op.step, hc] using hw
  cases c with
  | none =>
    simp only [Option.toList_none, handleCompletions_eq, List.isEmpty_nil, if_true] at hh hws
    exact hh.tick hws now
  | some c => exact hh.tick hws now

/-! ### Dropping work -/

/-- **Releasing pages after dropping work keeps the agreement.** The scheduler goes from `g`'s
to `s'` by dropping work: the requests `removed` are those dropped, each for a page that had
work; every other page keeps its answers; and a page with an active job keeps it or is left
with no waiting request. -/
theorem StatesAgree.release {g : Engine} (h : g.StatesAgree) {s' : Scheduler}
    {removed : List Schedule.Request}
    (hkeep : ∀ p, p ∉ removed.map (·.page) →
      s'.isQueued p = g.scheduler.isQueued p ∧ s'.hasActive p = g.scheduler.hasActive p)
    (hwork : ∀ r ∈ removed, g.scheduler.isQueued r.page = true ∨ g.scheduler.hasActive r.page = true)
    (hrend : ∀ p, g.scheduler.hasActive p = true → s'.hasActive p = true ∨ s'.isQueued p = false) :
    ({ g with scheduler := s' }.releaseQueued removed).StatesAgree := by
  intro p
  rw [releaseQueued_scheduler]
  refine agrees_releaseQueued { g with scheduler := s' } removed (fun q => ?_) (fun q hq => ?_) p
  · show Releasable (g.pageState q) (s'.isQueued q) (s'.hasActive q)
    by_cases hq : q ∈ removed.map (·.page)
    · -- a page whose work was dropped is pending, and keeps its job if rendering
      obtain ⟨r, hr, rfl⟩ := List.mem_map.1 hq
      exact .inl ⟨(h r.page).2.2 (hwork r hr), fun hst => hrend r.page ((h r.page).2.1 hst)⟩
    · rw [(hkeep q hq).1, (hkeep q hq).2]
      exact .inr (h q)
  · show Agrees (g.pageState q) (s'.isQueued q) (s'.hasActive q)
    rw [(hkeep q hq).1, (hkeep q hq).2]
    exact h q

/-- Dropping the waiting requests that satisfy `f` and releasing their pages keeps the
agreement. -/
theorem StatesAgree.removeQueued {g : Engine} (h : g.StatesAgree) (f : Schedule.Request → Bool) :
    ({ g with scheduler := (g.scheduler.removeQueuedWhere f).2 }.releaseQueued
      (g.scheduler.removeQueuedWhere f).1).StatesAgree := by
  rw [Scheduler.removeQueuedWhere_fst]
  refine h.release (fun p hp => ⟨Bool.eq_iff_iff.2 ?_, by simp [Scheduler.hasActive, Scheduler.activeJob?]⟩)
    (fun r hr => .inl ((Scheduler.isQueued_iff _ _).2
      (List.mem_map.2 ⟨r, List.mem_of_mem_filter hr, rfl⟩)))
    (fun p hp => .inl (by simpa [Scheduler.hasActive, Scheduler.activeJob?] using hp))
  -- a page none of whose requests was dropped waits exactly when it waited
  rw [Scheduler.removeQueuedWhere_isQueued, Scheduler.isQueued_iff]
  constructor
  · rintro ⟨r, hr, -, rfl⟩
    exact List.mem_map.2 ⟨r, hr, rfl⟩
  · intro hm
    obtain ⟨r, hr, rfl⟩ := List.mem_map.1 hm
    refine ⟨r, hr, ?_, rfl⟩
    rw [Bool.eq_false_iff]
    exact fun hf => hp (List.mem_map.2 ⟨r, List.mem_filter.2 ⟨hr, hf⟩, rfl⟩)

theorem StatesAgree.clearQueue {g : Engine} (h : g.StatesAgree) : g.clearQueue.StatesAgree :=
  h.removeQueued fun _ => true

theorem StatesAgree.setThumbnailSize {g : Engine} (h : g.StatesAgree) (size : Target) :
    (g.setThumbnailSize size).StatesAgree := by
  unfold Engine.setThumbnailSize
  split
  · exact h
  · dsimp only
    split
    · exact h
    · exact @StatesAgree.removeQueued { g with thumbnailSize := size } h
        (fun r => r.size == g.thumbnailSize)

/-- **Stopping keeps the agreement**: every page with work is released against a scheduler
with none. -/
theorem StatesAgree.stop {g : Engine} (h : g.StatesAgree) : g.stop.StatesAgree := by
  let g₁ : Engine := { g with running := false, scheduler := g.scheduler.resume }
  have h₁ : g₁.StatesAgree := h.of_scheduler (fun _ => rfl) rfl rfl
  refine @StatesAgree.release g₁ h₁ g₁.scheduler.stop.2 (g₁.scheduler.stop.1.1 ++ g₁.scheduler.stop.1.2)
    (fun p hp => ?_) (fun r hr => ?_) (fun p _ => .inr (Scheduler.stop_isQueued _ p))
  · -- a page none of whose work was dropped had none
    rw [Scheduler.mem_stop_fst] at hp
    rw [Scheduler.stop_isQueued, Scheduler.stop_hasActive]
    constructor <;> (symm; rw [Bool.eq_false_iff]; exact fun hc => hp (by simp [hc]))
  · exact (Scheduler.mem_stop_fst _ _).1 (List.mem_map.2 ⟨r, hr, rfl⟩)

/-- **Cancelling a page keeps the agreement**: a page with work is cancelled and has none. -/
theorem StatesAgree.cancelRequest {g : Engine} (h : g.StatesAgree) (page : Nat) :
    (g.cancelRequest page).StatesAgree := by
  have hq := Scheduler.cancel_isQueued g.scheduler page
  have ha := Scheduler.cancel_hasActive g.scheduler page
  -- every page but the cancelled one keeps its answers
  have hother : ∀ p ≠ page, (g.scheduler.cancel page).2.isQueued p = g.scheduler.isQueued p ∧
      (g.scheduler.cancel page).2.hasActive p = g.scheduler.hasActive p := fun p hp => by
    simp [hq, ha, hp]
  unfold Engine.cancelRequest
  dsimp only
  split
  · rename_i hempty
    rw [Scheduler.cancel_isEmpty] at hempty
    refine h.of_view (fun _ => rfl) (fun p => ?_) (fun p => ?_) <;> by_cases hp : p = page
    · subst hp
      simp_all
    · exact (hother p hp).1
    · subst hp
      simp_all
    · exact (hother p hp).2
  · rename_i hne
    rw [Scheduler.cancel_isEmpty] at hne
    have hw : g.scheduler.isQueued page = true ∨ g.scheduler.hasActive page = true := by
      cases hq' : g.scheduler.isQueued page <;> simp_all
    have hmoved : ({ g with scheduler := (g.scheduler.cancel page).2 }.moveTo page .cancelled).StatesAgree := by
      intro p
      rw [pageState_moveTo, moveTo_scheduler]
      by_cases hp : p = page
      · subst hp
        rw [if_pos rfl, hq, ha]
        simpa using agrees_cancel (h p) hw
      · rw [if_neg hp, (hother p hp).1, (hother p hp).2]
        exact h p
    rw [transition_eq]
    split <;> split <;>
    · rename_i heq
      obtain ⟨-, rfl⟩ := Prod.mk.inj heq
      exact hmoved

/-- A new document leaves every page idle and the scheduler with no work. -/
theorem statesAgree_replaceDocument (g : Engine) (src : Option Page.Source) :
    (g.replaceDocument src).StatesAgree := by
  intro p
  -- the table is cleared and the scheduler stopped
  have hs : (g.replaceDocument src).pageState p = .idle := rfl
  rw [hs, replaceDocument_scheduler, Scheduler.stop_isQueued, Scheduler.stop_hasActive]
  decide

/-! ### Every event and every run -/

theorem schedulerOk_create (c : GeneratorConfig) (gpu : Option Gpu) : (create c gpu).SchedulerOk :=
  ⟨Scheduler.inv_create _, Scheduler.jobsOk_create _⟩

theorem statesAgree_create (c : GeneratorConfig) (gpu : Option Gpu) : (create c gpu).StatesAgree := by
  intro p
  have hq : (create c gpu).scheduler.isQueued p = false := rfl
  have ha : (create c gpu).scheduler.hasActive p = false := rfl
  have hs : (create c gpu).pageState p = .idle := rfl
  rw [hq, ha, hs]
  decide

/-- **Every event keeps the agreement.** -/
theorem StatesAgree.step {g : Engine} (hs : g.SchedulerOk) (h : g.StatesAgree) (op : Op) :
    (op.step g).StatesAgree := by
  cases op with
  | generate page o => exact h.generateWith hs page o
  | generateRange first last size quality => exact h.generateRange hs first last size quality
  | generateBatch pages => exact h.generateBatch hs pages
  | tick now => exact h.tick hs now
  | pump now => exact h.pump hs now
  | finish i result =>
    simp only [Op.step]
    split
    · exact h.post _ result
    · exact h
  | cancelRequest page => exact h.cancelRequest page
  | setPriority page priority =>
    exact h.of_view (fun _ => rfl) (Scheduler.setPriority_isQueued g.scheduler page priority)
      (fun _ => rfl)
  | clearQueue => exact h.clearQueue
  | pause => exact h.of_scheduler (fun _ => rfl) rfl rfl
  | resume =>
    exact @StatesAgree.dispatch { g with scheduler := g.scheduler.resume }
      (hs.op .resume rfl) (h.of_scheduler (fun _ => rfl) rfl rfl)
  | stop => exact h.stop
  | start =>
    exact @StatesAgree.dispatch { g with running := true, scheduler := g.scheduler.resume }
      (hs.op .resume rfl) (h.of_scheduler (fun _ => rfl) rfl rfl)
  | setThumbnailSize size => exact h.setThumbnailSize size
  | setDocument src => exact statesAgree_replaceDocument g src
  | setMaxConcurrentJobs n => exact h.of_scheduler (fun _ => rfl) rfl rfl
  | setMaxRetries n => exact h.of_scheduler (fun _ => rfl) rfl rfl
  | setQuality _ | setRenderMode _ | setCacheStrategy _ | setGpuEnabled _ | setCompressionEnabled _
  | setCompressionQuality _ | setCacheCapacity _ | setMemoryPoolSize _ | setDevicePixelRatio _ =>
    exact h

/-- **Every run keeps the agreement**, from a state whose scheduler is sound. -/
theorem StatesAgree.run {g : Engine} (hs : g.SchedulerOk) (h : g.StatesAgree) (ops : List Op) :
    (g.run ops).StatesAgree :=
  (@run_induction (fun g => g.SchedulerOk ∧ g.StatesAgree) _ ⟨hs, h⟩
    (fun g op h => ⟨(op.drives g).schedulerOk h.1, h.2.step h.1 op⟩) ops).2

theorem statesAgree_run (c : GeneratorConfig) (gpu : Option Gpu) (ops : List Op) :
    ((create c gpu).run ops).StatesAgree :=
  (statesAgree_create c gpu).run (schedulerOk_create c gpu) ops

end Engine

/-- **The page table agrees with the scheduler in every reachable state.** Whatever the
generator's owner calls and in whatever order its workers end their jobs, for every page: a
queued page has a waiting request, a rendering page an active job, and a page with a waiting
request or an active job is queued or rendering. So an idle, cached, failed or cancelled page
has no work left. -/
theorem page_states_agree_with_scheduler (c : GeneratorConfig) (gpu : Option Gpu)
    (ops : List Engine.Op) (p : Nat) :
    let g := (Engine.create c gpu).run ops
    (g.pageState p = .queued → g.scheduler.isQueued p = true) ∧
      (g.pageState p = .rendering → g.scheduler.hasActive p = true) ∧
      (g.scheduler.isQueued p = true ∨ g.scheduler.hasActive p = true →
        g.pageState p = .queued ∨ g.pageState p = .rendering) := by
  intro g
  obtain ⟨hq, hr, hw⟩ := Engine.statesAgree_run c gpu ops p
  refine ⟨hq, hr, fun h => ?_⟩
  have hp := hw h
  generalize g.pageState p = st at hp ⊢
  cases st <;> simp [PageState.isPending] at hp ⊢

end Generator
end Thumbnailer
