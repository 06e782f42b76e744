import Thumbnailer.Proofs.Generator.Run
import Thumbnailer.Proofs.Schedule.Stale
import Thumbnailer.Proofs.Schedule.Pages

/-!
# Requests are told apart by their stamps

The scheduler stamps requests with the instant of a clock that only goes forward: the generator
advances it before each submission (`Engine.enqueue`), and a retry is stamped the same way. A
change of priority keeps a request's page and stamp (`Request.stamp`), so a request's stamp
tells it apart from every request submitted after it.

`Scheduler.Moves s s'` says what can happen to requests between two states: every request
waiting in `s'` waited in `s`, up to its priority, or was stamped in between (`Origin`); every
job held in `s'` was held in `s`, or was started since under a new id from such a request. Each
of the scheduler's calls but `submit` moves requests so, and so does each event of the
generator (`Engine.Op.moves`), whose submissions are stamped as they are made; a run of the
generator does, and so does every state in which the run resolves an outcome
(`Engine.run_moves`).

Hence a request taken off the queue does not come back: after `cancelRequest p`, no job is
started for a request of page `p` that was waiting, so every later resolution of a job running
one is the discard of a job started before (`cancelled_request_never_delivered`).
-/

namespace Thumbnailer
namespace Schedule

open Render

/-- A request's page and the instant it was stamped; a change of priority keeps both, and a
retry is stamped anew. -/
def Request.stamp (r : Request) : Nat × Nat := (r.page, r.submittedAt)

namespace Queue

/-- A push adds the request pushed, if anything. -/
theorem mem_push {qu : Queue} {r x : Request} (h : x ∈ (qu.push r).2.toList) :
    x ∈ qu.toList ∨ x = r := by
  unfold push at h
  split at h
  · exact .inl h
  · dsimp only [toList] at h ⊢
    rw [((insertSorted_perm ⟨r, qu.nextSeq⟩ qu.items).map (·.request)).mem_iff, List.map_cons,
      List.mem_cons] at h
    exact h.symm

/-- Pushing requests back adds some of them. -/
theorem mem_foldl_push {qu : Queue} {ds : List Request} {x : Request}
    (h : x ∈ (ds.foldl (fun q r => (q.push r).2) qu).toList) : x ∈ qu.toList ∨ x ∈ ds := by
  induction ds generalizing qu with
  | nil => exact .inl h
  | cons d ds ih =>
    rcases ih h with h | h
    · rcases mem_push h with h | rfl
      · exact .inl h
      · exact .inr List.mem_cons_self
    · exact .inr (List.mem_cons_of_mem _ h)

/-- Reprioritising keeps every request's stamp. -/
theorem stamp_of_mem_setPriority {qu : Queue} {page : Nat} {priority : Int} {x : Request}
    (h : x ∈ (qu.setPriority page priority).2.toList) : ∃ y ∈ qu.toList, y.stamp = x.stamp := by
  rw [(toList_setPriority_perm qu page priority).mem_iff] at h
  obtain ⟨y, hy, rfl⟩ := List.mem_map.1 h
  refine ⟨y, hy, ?_⟩
  split <;> rfl

end Queue

namespace Scheduler

@[simp] theorem settle_clock (s : Scheduler) : (settle s).clock = s.clock := by
  obtain ⟨p, r, h⟩ := settle_eq s
  rw [h]

/-! ### Where requests come from -/

/-- Where a request of `s'` comes from, seen from `s`: it waited in `s`, up to its priority, or
it was stamped after `s`'s clock and no later than `s'`'s. -/
def Origin (s s' : Scheduler) (x : Request) : Prop :=
  (∃ y ∈ s.queue.toList, y.stamp = x.stamp) ∨ (s.clock < x.submittedAt ∧ x.submittedAt ≤ s'.clock)

theorem Origin.of_mem {s s' : Scheduler} {x : Request} (h : x ∈ s.queue.toList) : Origin s s' x :=
  .inl ⟨x, h, rfl⟩

theorem Origin.mono {s s' s'' : Scheduler} {x : Request} (h : Origin s s' x)
    (hc : s'.clock ≤ s''.clock) : Origin s s'' x :=
  h.imp_right fun ⟨hlo, hhi⟩ => ⟨hlo, Nat.le_trans hhi hc⟩

/-- What can happen to requests and jobs between `s` and `s'`: the clock and the ids only grow;
every request waiting in `s'` comes from `s`; every job held in `s'` was held in `s`, or was
started since, under a new id, from a request that comes from `s`. -/
structure Moves (s s' : Scheduler) : Prop where
  clock : s.clock ≤ s'.clock
  nextId : s.nextId ≤ s'.nextId
  queue : ∀ x ∈ s'.queue.toList, Origin s s' x
  known : ∀ j ∈ s'.known, j ∈ s.known ∨ (s.nextId ≤ j.id ∧ Origin s s' j.request)

theorem Moves.refl (s : Scheduler) : Moves s s :=
  ⟨Nat.le_refl _, Nat.le_refl _, fun _ h => .of_mem h, fun _ h => .inl h⟩

/-- A request that comes from a later state comes from an earlier one. -/
theorem Moves.origin {s₁ s₂ s₃ : Scheduler} (h : Moves s₁ s₂) (hc : s₂.clock ≤ s₃.clock)
    {x : Request} (hx : Origin s₂ s₃ x) : Origin s₁ s₃ x := by
  rcases hx with ⟨y, hy, hxy⟩ | ⟨hlo, hhi⟩
  · rcases h.queue y hy with ⟨z, hz, hzy⟩ | ⟨hlo, hhi⟩
    · exact .inl ⟨z, hz, hzy.trans hxy⟩
    · -- `y` was stamped in between, and `x` has its stamp
      have hs : y.submittedAt = x.submittedAt := congrArg Prod.snd hxy
      exact .inr ⟨hs ▸ hlo, hs ▸ Nat.le_trans hhi hc⟩
  · exact .inr ⟨Nat.lt_of_le_of_lt h.clock hlo, hhi⟩

theorem Moves.trans {s₁ s₂ s₃ : Scheduler} (h₁ : Moves s₁ s₂) (h₂ : Moves s₂ s₃) : Moves s₁ s₃ where
  clock := Nat.le_trans h₁.clock h₂.clock
  nextId := Nat.le_trans h₁.nextId h₂.nextId
  queue x hx := h₁.origin h₂.clock (h₂.queue x hx)
  known j hj := by
    rcases h₂.known j hj with hj | ⟨hid, ho⟩
    · exact (h₁.known j hj).imp_right fun ⟨hid, ho⟩ => ⟨hid, ho.mono h₂.clock⟩
    · exact .inr ⟨Nat.le_trans h₁.nextId hid, h₁.origin h₂.clock ho⟩

/-- An event that creates no job and keeps or drops waiting requests. -/
theorem Moves.keep {s s' : Scheduler} (hc : s.clock ≤ s'.clock) (hjobs : Creates s s' [])
    (hq : ∀ x ∈ s'.queue.toList, x ∈ s.queue.toList) : Moves s s' where
  clock := hc
  nextId := hjobs.nextId_le
  queue x hx := .of_mem (hq x hx)
  known j hj := .inl ((hjobs.known j hj).resolve_right List.not_mem_nil)

/-- An event that leaves requests, jobs and the clock alone. -/
theorem Moves.same {s s' : Scheduler} (hc : s'.clock = s.clock) (hn : s'.nextId = s.nextId)
    (hq : s'.queue = s.queue) (ha : s'.active = s.active) (hk : s'.known = s.known) : Moves s s' :=
  Moves.keep (Nat.le_of_eq hc.symm) (Creates.same hn ha hk) fun _ h => hq ▸ h

/-- Advancing the clock and queueing a request stamped by it. -/
theorem moves_push {s : Scheduler} {r : Request} {q : Queue} (hr : r.submittedAt = s.clock + 1)
    (hq : s.queue.push r = (true, q)) (stats : SchedulerStats) :
    Moves s { s with clock := s.clock + 1, queue := q, stats } := by
  refine ⟨Nat.le_succ _, Nat.le_refl _, fun x hx => ?_, fun j hj => .inl hj⟩
  rcases List.mem_append.1 ((Queue.toList_of_push_true hq).mem_iff.1 hx) with hx | hx
  · rw [List.mem_singleton.1 hx]
    exact .inr ⟨by omega, Nat.le_of_eq hr⟩
  · exact .of_mem hx

/-! ### Each call of the scheduler but `submit` -/

theorem tick_moves (s : Scheduler) : Moves s s.tick.2 :=
  Moves.keep (Nat.le_succ _) (Creates.same rfl rfl rfl) fun _ h => h

/-- A submission stamped by the clock just advanced, as the generator makes them. -/
theorem submit_moves (s : Scheduler) (r : Request) (hr : r.submittedAt = s.tick.1) :
    Moves s (s.tick.2.submit r).2 := by
  unfold submit
  split
  · exact tick_moves s
  · split
    · exact tick_moves s
    · rename_i q hq
      exact moves_push hr hq _

/-- What the admission loop keeps, from the state `s₀` it starts from: requests waiting or set
aside waited in `s₀`; jobs held were held in `s₀` or were started from requests that waited
there, under new ids; the clock stays. -/
structure Takes (s₀ s : Scheduler) (deferred : List Request) : Prop where
  clock : s.clock = s₀.clock
  nextId : s₀.nextId ≤ s.nextId
  queue : ∀ x ∈ s.queue.toList ++ deferred, x ∈ s₀.queue.toList
  known : ∀ j ∈ s.known, j ∈ s₀.known ∨ (s₀.nextId ≤ j.id ∧ j.request ∈ s₀.queue.toList)

theorem takeQueued_takes {s₀ : Scheduler} (fuel : Nat) (s : Scheduler)
    (started deferred : List Request) (h : Takes s₀ s deferred) :
    Takes s₀ (takeQueued fuel s started deferred).1 (takeQueued fuel s started deferred).2.2 := by
  fun_induction takeQueued fuel s started deferred with
  | case1 => exact h
  | case2 => exact h
  | case3 _ s _ deferred _ r q hpop _ _ ih =>
    -- the request popped is set aside
    have hq := Queue.toList_pop hpop
    refine ih ⟨h.clock, h.nextId, fun x hx => h.queue x ?_, h.known⟩
    rw [hq]
    simp only [List.mem_append, List.mem_cons] at hx ⊢
    tauto
  | case4 _ s _ deferred _ r q hpop _ _ _ ih =>
    -- the request popped becomes a job under the next id
    have hq := Queue.toList_pop hpop
    have hr : r ∈ s₀.queue.toList := h.queue r (by simp [hq])
    refine ih ⟨h.clock, Nat.le_succ_of_le h.nextId, fun x hx => h.queue x ?_, fun j hj => ?_⟩
    · rw [hq]
      simp only [List.mem_append, List.mem_cons] at hx ⊢
      tauto
    · simp only [mem_known, List.mem_append, List.mem_singleton] at hj
      rcases hj with (hj | rfl) | (hj | rfl) | hj | hj
      · exact h.known j (mem_known.2 (.inl hj))
      · exact .inr ⟨h.nextId, hr⟩
      · exact h.known j (mem_known.2 (.inr (.inl hj)))
      · exact .inr ⟨h.nextId, hr⟩
      · exact h.known j (mem_known.2 (.inr (.inr (.inl hj))))
      · exact h.known j (mem_known.2 (.inr (.inr (.inr hj))))
  | case5 => exact h

theorem dispatch_moves (s : Scheduler) : Moves s s.dispatch.2 := by
  unfold dispatch
  split
  · exact Moves.refl s
  · rcases hT : takeQueued s.queue.size { s with workers := max s.workers s.limit } [] [] with
      ⟨s', started, deferred⟩
    have hA : Takes { s with workers := max s.workers s.limit } s' deferred := by
      have := takeQueued_takes s.queue.size { s with workers := max s.workers s.limit } [] []
        ⟨rfl, Nat.le_refl _, by simp, fun j hj => .inl hj⟩
      rwa [hT] at this
    simp only [hT]
    -- the requests set aside are pushed back, and the workers pick up tasks
    refine ⟨by simp [hA.clock], by simpa using hA.nextId, fun x hx => ?_, fun j hj => ?_⟩
    · simp only [settle_queue] at hx
      rcases Queue.mem_foldl_push hx with hx | hx
      · exact .of_mem (hA.queue x (List.mem_append_left _ hx))
      · exact .of_mem (hA.queue x (List.mem_append_right _ hx))
    · have hj' := (settle_creates _).known j hj
      simp only [List.not_mem_nil, or_false] at hj'
      exact (hA.known j hj').imp_right fun ⟨hid, hr⟩ => ⟨hid, .of_mem hr⟩

theorem post_moves {s : Scheduler} {j : Job} (hj : j ∈ s.running)
    (result : Except JobFailure Raster.Bitmap) : Moves s (s.post j result) :=
  Moves.keep (by simp [post]) (post_creates hj result) fun _ h => by simpa [post] using h

theorem handleFailure_moves (s : Scheduler) (r : Request) (e : JobFailure) :
    Moves s (s.handleFailure r e).2 := by
  unfold handleFailure
  dsimp only
  split
  · exact Moves.same rfl rfl rfl rfl rfl
  · simp only [tick]
    split
    · exact Moves.keep (Nat.le_succ _) (Creates.same rfl rfl rfl) fun _ h => h
    · rename_i q hq
      -- the retry is queued, stamped by the clock just advanced
      exact moves_push rfl hq _

theorem resolve_moves (s : Scheduler) (o : Outcome) : Moves s (s.resolve o).2 := by
  unfold resolve
  split
  · exact Moves.same rfl rfl rfl rfl rfl
  · have hdrop : Moves s { s with active := s.active.filter (·.id != o.job.id) } := by
      refine Moves.keep (Nat.le_refl _) (Creates.keep rfl (fun j hj => List.mem_of_mem_filter hj)
        fun j hj => ?_) fun _ h => h
      simp only [mem_known, List.mem_filter] at hj ⊢
      tauto
    split
    · exact hdrop.trans (Moves.same rfl rfl rfl rfl rfl)
    · exact hdrop.trans (handleFailure_moves _ _ _)

theorem waitCompletion_moves (s : Scheduler) : Moves s s.waitCompletion.2 := by
  rcases hp : s.posted with _ | ⟨o, rest⟩
  · rw [waitCompletion_nil hp]
    exact Moves.refl s
  · rw [waitCompletion_eq hp]
    -- the outcome resolved leaves the posted ones
    refine (resolve_moves s o).trans (Moves.keep (Nat.le_refl _)
      (Creates.keep rfl (fun _ h => h) fun j hj => ?_) fun _ h => h)
    simp only [mem_known, resolve_posted, hp, List.mem_cons] at hj ⊢
    rcases hj with hj | hj | hj | ⟨o', ho', rfl⟩
    · exact .inl hj
    · exact .inr (.inl hj)
    · exact .inr (.inr (.inl hj))
    · exact .inr (.inr (.inr ⟨o', .inr ho', rfl⟩))

/-- Waiting several times, and every state a wait resolves in. -/
theorem waits_moves (n : Nat) (s : Scheduler) :
    Moves s (waits n s).2 ∧ ∀ e ∈ (waits n s).1, Moves s e.1 := by
  induction n generalizing s with
  | zero => exact ⟨Moves.refl s, List.forall_mem_nil _⟩
  | succ n ih =>
    have hw := waitCompletion_moves s
    obtain ⟨hr, he⟩ := ih s.waitCompletion.2
    refine ⟨hw.trans hr, fun e h => ?_⟩
    rcases List.mem_append.1 h with h | h
    · rw [(mem_waitTrace h).1]
      exact Moves.refl s
    · exact hw.trans (he e h)

theorem drainCompletions_moves (s : Scheduler) :
    Moves s s.drainCompletions.2 ∧ ∀ e ∈ Op.drainCompletions.trace s, Moves s e.1 := by
  rw [drainCompletions_eq]
  exact waits_moves _ s

theorem cancel_moves (s : Scheduler) (page : Nat) : Moves s (s.cancel page).2 :=
  Moves.keep (by simp [cancel]) (cancel_creates s page) fun x hx => by
    simp only [cancel, Queue.toList_removeWhere, List.mem_filter] at hx
    exact hx.1

theorem removeQueuedWhere_moves (s : Scheduler) (p : Request → Bool) :
    Moves s (s.removeQueuedWhere p).2 :=
  Moves.keep (Nat.le_refl _) (Creates.same rfl rfl rfl) fun x hx => by
    simp only [removeQueuedWhere, Queue.toList_removeWhere, List.mem_filter] at hx
    exact hx.1

theorem setPriority_moves (s : Scheduler) (page : Nat) (priority : Int) :
    Moves s (s.setPriority page priority).2 :=
  ⟨Nat.le_refl _, Nat.le_refl _, fun _ hx => .inl (Queue.stamp_of_mem_setPriority hx),
    fun _ hj => .inl hj⟩

theorem stop_moves (s : Scheduler) : Moves s s.stop.2 :=
  Moves.keep (by simp [stop]) (stop_creates s) fun x hx => by
    simp [stop, Queue.clear, Queue.toList_removeWhere] at hx

theorem adaptConcurrency_moves (s : Scheduler) : Moves s s.adaptConcurrency.2 := by
  unfold adaptConcurrency
  split
  · exact Moves.refl s
  · dsimp only
    split
    · exact Moves.same rfl rfl rfl rfl rfl
    · split
      · exact Moves.same rfl rfl rfl rfl rfl
      · exact Moves.refl s

end Scheduler
end Schedule

namespace Generator

open Schedule Render Page
open Scheduler (Moves)

namespace Engine

/-! ### Each event of the generator -/

theorem admitQueued_moves (g : Engine) : Moves g.scheduler g.admitQueued.scheduler := by
  unfold admitQueued
  split
  · exact Scheduler.Moves.refl _
  · dsimp only
    split
    · exact Scheduler.dispatch_moves g.scheduler
    · -- marking the started pages and announcing the counts leave the scheduler alone
      simpa using Scheduler.dispatch_moves g.scheduler

theorem runEarly_moves (g : Engine) : Moves g.scheduler g.runEarly.scheduler :=
  runEarly_induction (P := fun g' => Moves g.scheduler g'.scheduler) (Scheduler.Moves.refl _)
    fun _ _ e hj _ h => h.trans (Scheduler.post_moves hj (.error e))

theorem dispatch_moves (g : Engine) : Moves g.scheduler g.dispatch.scheduler :=
  (admitQueued_moves g).trans (runEarly_moves _)

/-- The generator stamps a request with the clock it has just advanced, and submits it. -/
theorem enqueue_scheduler (g : Engine) (page : Nat) (v : Variant) (priority : Int) :
    (g.enqueue page v priority).2.scheduler =
      (g.scheduler.tick.2.submit { page, size := v.size, quality := v.quality, priority,
                                   submittedAt := g.scheduler.tick.1, backend := v.backend }).2 := by
  unfold enqueue
  dsimp only
  split <;> rename_i hs <;> simp [hs]

theorem enqueue_moves (g : Engine) (page : Nat) (v : Variant) (priority : Int) :
    Moves g.scheduler (g.enqueue page v priority).2.scheduler := by
  rw [enqueue_scheduler]
  exact Scheduler.submit_moves _ _ rfl

theorem enqueueAll_moves (g : Engine) (v : Variant) (pages : List (Nat × Int)) :
    Moves g.scheduler (g.enqueueAll v pages).2.scheduler := by
  unfold enqueueAll
  refine List.foldlRecOn (motive := fun acc : Nat × Engine => Moves g.scheduler acc.2.scheduler)
    _ _ (Scheduler.Moves.refl _) fun acc h x _ => ?_
  have he := h.trans (enqueue_moves acc.2 x.1 v x.2)
  unfold enqueueCounted
  split
  · rename_i g' hq
    rw [hq] at he
    exact he
  · rename_i g' hq
    rw [hq] at he
    exact he

theorem afterEnqueue_moves (g : Engine) (n : Nat) : Moves g.scheduler (g.afterEnqueue n).scheduler := by
  unfold afterEnqueue
  split
  · exact dispatch_moves (g.emit (.queueSize g.queueSize))
  · exact Scheduler.Moves.refl _

theorem generateWith_moves (g : Engine) (page : Nat) (o : Options) :
    Moves g.scheduler (g.generateWith page o).2.scheduler := by
  unfold generateWith
  dsimp only
  split
  · exact Scheduler.Moves.refl _
  · have he := enqueue_moves g page (g.variant o) o.priority
    split
    · rename_i g' hq
      rw [hq] at he
      exact he.trans (dispatch_moves (g'.emit (.queueSize g'.queueSize)))
    · rename_i g' hq
      rw [hq] at he
      exact he

theorem generateRange_moves (g : Engine) (first last : Nat) (size : Option Target)
    (quality : Option Float) : Moves g.scheduler (g.generateRange first last size quality).2.scheduler := by
  unfold generateRange
  split
  · exact Scheduler.Moves.refl _
  · dsimp only
    split
    · exact Scheduler.Moves.refl _
    · split
      · exact Scheduler.Moves.refl _
      · exact (enqueueAll_moves _ _ _).trans (afterEnqueue_moves _ _)

theorem generateBatch_moves (g : Engine) (pages : List Nat) :
    Moves g.scheduler (g.generateBatch pages).2.scheduler := by
  unfold generateBatch
  split
  · exact Scheduler.Moves.refl _
  · exact (enqueueAll_moves _ _ _).trans (afterEnqueue_moves _ _)

theorem batchTick_moves (g : Engine) (now : Instant) : Moves g.scheduler (g.batchTick now).scheduler := by
  unfold batchTick
  dsimp only
  split
  · exact Scheduler.adaptConcurrency_moves g.scheduler
  · exact Scheduler.adaptConcurrency_moves g.scheduler

theorem batchIfDue_moves (g : Engine) (now : Instant) : Moves g.scheduler (g.batchIfDue now).scheduler := by
  unfold batchIfDue
  split
  · exact batchTick_moves { g with lastBatch := now } now
  · exact Scheduler.Moves.refl _

/-- Ticking drains the posted outcomes, each resolved in a state that follows the last. -/
theorem tick_moves (g : Engine) (now : Instant) :
    Moves g.scheduler (g.tick now).2.scheduler ∧
      ∀ e ∈ Scheduler.Op.drainCompletions.trace g.scheduler, Moves g.scheduler e.1 := by
  obtain ⟨hd, he⟩ := Scheduler.drainCompletions_moves g.scheduler
  refine ⟨?_, he⟩
  -- handling the completions leaves the scheduler alone; the batch tick only tunes concurrency
  let h := { g with scheduler := g.scheduler.drainCompletions.2 }.handleCompletions
    g.scheduler.drainCompletions.1
  have hh : h.scheduler = g.scheduler.drainCompletions.2 := handleCompletions_scheduler _ _
  have hb : Moves g.scheduler (h.batchIfDue now).scheduler := hd.trans (hh ▸ batchIfDue_moves h now)
  exact hb.trans (dispatch_moves _)

/-- Pumping dispatches, handles the completion it waits for, if any, and ticks. -/
theorem pump_eq (g : Engine) (now : Instant) :
    (g.pump now).2 = (({ g.dispatch with scheduler := g.dispatch.scheduler.waitCompletion.2 }.handleCompletions
      g.dispatch.scheduler.waitCompletion.1.toList).tick now).2 := by
  unfold pump
  dsimp only
  rcases g.dispatch.scheduler.waitCompletion with ⟨_ | c, s⟩
  · simp [handleCompletions_eq]
  · rfl

theorem pump_moves (g : Engine) (now : Instant) :
    Moves g.scheduler (g.pump now).2.scheduler ∧
      ∀ e ∈ Scheduler.Op.waitCompletion.trace g.dispatch.scheduler ++
        Scheduler.Op.drainCompletions.trace g.dispatch.scheduler.waitCompletion.2,
        Moves g.scheduler e.1 := by
  have hd := dispatch_moves g
  have hw := hd.trans (Scheduler.waitCompletion_moves g.dispatch.scheduler)
  -- handling the completion waited for leaves the scheduler alone
  let h := { g.dispatch with scheduler := g.dispatch.scheduler.waitCompletion.2 }.handleCompletions
    g.dispatch.scheduler.waitCompletion.1.toList
  have hh : h.scheduler = g.dispatch.scheduler.waitCompletion.2 := handleCompletions_scheduler _ _
  obtain ⟨ht, hte⟩ := tick_moves h now
  refine ⟨?_, fun e he => ?_⟩
  · have ht' : Moves g.dispatch.scheduler.waitCompletion.2 (h.tick now).2.scheduler := hh ▸ ht
    rw [pump_eq]
    exact hw.trans ht'
  · rcases List.mem_append.1 he with he | he
    · rw [(Scheduler.mem_waitTrace he).1]
      exact hd
    · have he' : Moves g.dispatch.scheduler.waitCompletion.2 e.1 := hh ▸ hte e (hh ▸ he)
      exact hw.trans he'

theorem clearQueue_moves (g : Engine) : Moves g.scheduler g.clearQueue.scheduler := by
  simpa [clearQueue, Scheduler.clearQueue] using Scheduler.removeQueuedWhere_moves g.scheduler fun _ => true

theorem setThumbnailSize_moves (g : Engine) (size : Target) :
    Moves g.scheduler (g.setThumbnailSize size).scheduler := by
  unfold setThumbnailSize
  split
  · exact Scheduler.Moves.refl _
  · dsimp only
    split
    · exact Scheduler.Moves.refl _
    · simpa using Scheduler.removeQueuedWhere_moves g.scheduler (·.size == g.thumbnailSize)

/-- **Every event of the generator moves requests as the scheduler's own calls do**, and so
does every state in which it resolves an outcome. -/
theorem Op.moves (op : Op) (g : Engine) :
    Moves g.scheduler (op.step g).scheduler ∧ ∀ e ∈ op.trace g, Moves g.scheduler e.1 := by
  cases op with
  | tick now => exact tick_moves g now
  | pump now => exact pump_moves g now
  | generate page o => exact ⟨generateWith_moves g page o, List.forall_mem_nil _⟩
  | generateRange first last size quality =>
    exact ⟨generateRange_moves g first last size quality, List.forall_mem_nil _⟩
  | generateBatch pages => exact ⟨generateBatch_moves g pages, List.forall_mem_nil _⟩
  | finish i result =>
    refine ⟨?_, List.forall_mem_nil _⟩
    simp only [Op.step]
    split
    · rename_i j hj
      exact Scheduler.post_moves (List.mem_of_getElem? hj) result
    · exact Scheduler.Moves.refl _
  | cancelRequest page =>
    exact ⟨by simpa [Op.step] using Scheduler.cancel_moves g.scheduler page, List.forall_mem_nil _⟩
  | setPriority page priority => exact ⟨Scheduler.setPriority_moves g.scheduler page priority, List.forall_mem_nil _⟩
  | clearQueue => exact ⟨clearQueue_moves g, List.forall_mem_nil _⟩
  | pause => exact ⟨Scheduler.Moves.same rfl rfl rfl rfl rfl, List.forall_mem_nil _⟩
  | resume =>
    have hr : Moves g.scheduler g.scheduler.resume := .same rfl rfl rfl rfl rfl
    simp only [Op.step, Engine.resume]
    exact ⟨hr.trans (dispatch_moves { g with scheduler := g.scheduler.resume }), List.forall_mem_nil _⟩
  | start =>
    have hr : Moves g.scheduler g.scheduler.resume := .same rfl rfl rfl rfl rfl
    simp only [Op.step, Engine.start]
    exact ⟨hr.trans (dispatch_moves { g with running := true, scheduler := g.scheduler.resume }),
      List.forall_mem_nil _⟩
  | stop =>
    have hr : Moves g.scheduler g.scheduler.resume := .same rfl rfl rfl rfl rfl
    exact ⟨by simpa [Op.step] using hr.trans (Scheduler.stop_moves _), List.forall_mem_nil _⟩
  | setThumbnailSize size => exact ⟨setThumbnailSize_moves g size, List.forall_mem_nil _⟩
  | setDocument src => exact ⟨by simpa [Op.step] using Scheduler.stop_moves g.scheduler, List.forall_mem_nil _⟩
  | setMaxConcurrentJobs n | setMaxRetries n =>
    exact ⟨Scheduler.Moves.same rfl rfl rfl rfl rfl, List.forall_mem_nil _⟩
  | setQuality _ | setRenderMode _ | setCacheStrategy _ | setGpuEnabled _ | setCompressionEnabled _
  | setCompressionQuality _ | setCacheCapacity _ | setMemoryPoolSize _ | setDevicePixelRatio _ =>
    exact ⟨Scheduler.Moves.refl _, List.forall_mem_nil _⟩

/-- **What a run does to requests**: its last state, and every state in which it resolves an
outcome, follow its first. -/
theorem run_moves (g : Engine) (ops : List Op) :
    Moves g.scheduler (g.run ops).scheduler ∧ ∀ e ∈ g.trace ops, Moves g.scheduler e.1 := by
  induction ops generalizing g with
  | nil => exact ⟨Scheduler.Moves.refl _, List.forall_mem_nil _⟩
  | cons op ops ih =>
    obtain ⟨h₁, he₁⟩ := op.moves g
    obtain ⟨h₂, he₂⟩ := ih (op.step g)
    refine ⟨h₁.trans h₂, fun e he => ?_⟩
    rcases List.mem_append.1 he with he | he
    · exact he₁ e he
    · exact h₁.trans (he₂ e he)

/-! ### A request taken off the queue -/

/-- **A request cancelled while it waits is never run.** From a generator whose scheduler is
new, in every run: when a request of page `p` waits as `cancelRequest p` is called, every later
resolution of a job running that request is a discard, of a job started before the
cancellation. No job is started for the request afterwards: a job started later runs a request
that waited after the cancellation, where no request of page `p` was left, or that was stamped
since. -/
theorem cancelled_request_never_delivered {g₀ : Engine} {sc : SchedulerConfig}
    (h₀ : g₀.scheduler = Scheduler.create sc) (ops₁ : List Op) (page : Nat) (ops₂ : List Op) :
    let g := g₀.run ops₁
    ∀ r ∈ g.scheduler.queue.toList, r.page = page →
      ∀ e ∈ (g.cancelRequest page).trace ops₂, e.2.1.job.request = r →
        e.2.2.isDiscarded = true ∧ e.2.1.job.id < (g.cancelRequest page).scheduler.nextId := by
  intro g r hr hpage e he her
  -- the scheduler's run up to the cancellation, and after it
  obtain ⟨sops₁, hs₁, -⟩ := (run_drives g₀ ops₁).run
  obtain ⟨sops₂, -, ht⟩ := (run_drives (g.cancelRequest page) ops₂).run
  rw [h₀] at hs₁
  have hg : (g.cancelRequest page).scheduler = (Scheduler.create sc).run (sops₁ ++ [.cancel page]) := by
    simp [g, hs₁, Scheduler.run_append, Scheduler.Op.step]
  have he' : e ∈ ((Scheduler.create sc).run (sops₁ ++ [.cancel page])).trace sops₂ := by
    rw [← hg, ← ht]
    exact he
  have hok := (Scheduler.reach_run sc (sops₁ ++ [.cancel page])).2
  rw [← hg] at hok
  -- the request was stamped no later than the clock: a new scheduler has nothing waiting
  have hstamp : r.submittedAt ≤ g.scheduler.clock := by
    rcases (run_moves g₀ ops₁).1.queue r hr with ⟨y, hy, -⟩ | ⟨-, hhi⟩
    · rw [h₀] at hy
      exact absurd hy List.not_mem_nil
    · exact hhi
  have hlt : e.2.1.job.id < (g.cancelRequest page).scheduler.nextId := by
    refine Nat.lt_of_not_le fun hge => ?_
    have hk := (@Scheduler.trace_forall (fun _ => True) (fun _ _ _ => trivial) _ trivial sops₂ e
      he').2.mem_known
    rcases ((run_moves (g.cancelRequest page) ops₂).2 e he).known _ hk with hk | ⟨-, ho⟩
    · exact absurd (hok.fresh _ hk) (Nat.not_lt_of_le hge)
    · -- the job's request came from a queue without page `p`, or was stamped after `r`
      rw [her] at ho
      rcases ho with ⟨y, hy, hyr⟩ | ⟨hlo, -⟩
      · simp only [cancelRequest_scheduler, Scheduler.cancel, Queue.toList_removeWhere,
          List.mem_filter] at hy
        have hyp : y.page = r.page := congrArg Prod.fst hyr
        simp [hyp, hpage] at hy
      · simp only [cancelRequest_scheduler, Scheduler.cancel] at hlo
        omega
  refine ⟨?_, hlt⟩
  rw [hg] at hlt
  exact Scheduler.trace_discarded_after_cancel sc sops₁ page sops₂ e he' (her ▸ hpage) hlt

end Engine
end Generator
end Thumbnailer
