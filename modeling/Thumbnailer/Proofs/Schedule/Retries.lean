import Thumbnailer.Proofs.Schedule.ClockedRuns

/-!
# A retry is never refused

A failed attempt of a request is queued again when its failure is retryable and its retries are
not exhausted: as `Request.retried`, one retry more, its priority raised by the penalty (the sum
saturating at the bounds of a 32-bit priority) and stamped by the clock just advanced
(`handleFailure_retried`). The push is refused when the same work already waits, and the attempt
then fails for good at once (`handleFailure_refused`); otherwise it fails for good when the
failure is final or the retries are spent (`handleFailure_final`).

In a run the refusal never happens. A submission is refused while the same work is active, and a
dispatch starts a request only where no other request for the same work waits, so no waiting
request is the same work as an active job's; the job whose attempt failed was active, so its retry
is the same work as nothing that waits. Along with that, the requests the scheduler holds, waiting
or active, carry distinct stamps, none after the clock, in every state an owner that stamps by the
clock reaches (`HeldApart`, `reach_runStamped`): a request is told apart from every other by its
stamp. Jobs are started from requests that wait, so no job known carries a stamp after the clock
either (`Moves.known_past`).

Each event changes the requests held in one of a few ways, and `HeldApart` survives each:
nothing changes, some are dropped (`HeldApart.shrink`), one stamped after the clock is queued
(`HeldApart.push`), priorities change (`HeldApart.setPriority`), or a dispatch moves requests from
the queue to the active table (`HeldApart.dispatch`).
-/

namespace Thumbnailer
namespace Schedule

open Render

/-- The request a failed attempt of `r` is queued again as, stamped `t`: one retry more, its
priority raised by the penalty with saturation. -/
def Request.retried (r : Request) (t : Nat) : Request :=
  { r with retryCount := r.retryCount + 1,
           priority := Word.addI32Saturating r.priority retryPenalty,
           submittedAt := t }

/-- A retry is the same work as its request. -/
@[simp] theorem Request.sameWork_retried (x r : Request) (t : Nat) :
    x.sameWork (r.retried t) = x.sameWork r := rfl

/-- Requests of different pages are never the same work. -/
theorem Request.sameWork_of_page_ne {x r : Request} (h : x.page ≠ r.page) : x.sameWork r = false := by
  simp [Request.sameWork, h]

theorem Queue.removeWhere_sublist (qu : Queue) (p : Request → Bool) :
    (qu.removeWhere p).2.toList.Sublist qu.toList := by
  rw [Queue.toList_removeWhere]
  exact List.filter_sublist

/-- The admission pass keeps every request, started or left. -/
theorem admitScan_perm (busy : List Nat) (room : Nat) (rs : List Request) :
    ((admitScan busy room rs).1 ++ (admitScan busy room rs).2).Perm rs := by
  fun_induction admitScan busy room rs with
  | case1 => simp
  | case2 => simp
  | case3 _ _ r _ _ rest ih => exact List.perm_middle.trans (ih.cons r)
  | case4 _ _ r _ _ rest ih => exact ih.cons r

namespace Scheduler

/-! ### Accounting for a failed attempt -/

section HandleFailure

variable {s : Scheduler} {r : Request} {e : JobFailure}

/-- **A failure not retried is final**: the failure cannot be mended by a retry, or the retries
are spent. -/
theorem handleFailure_final (h : ¬(e.retryable = true ∧ r.retryCount < s.maxRetries)) :
    s.handleFailure r e =
      (.failed r e, { s with stats := { s.stats with failed := s.stats.failed + 1 } }) := by
  unfold handleFailure
  rw [if_pos (by revert h; cases e.retryable <;> simp)]

/-- **A retry the queue refuses fails at once**, for good: the same work already waits. The clock
has advanced and nothing is queued. -/
theorem handleFailure_refused (h : e.retryable = true ∧ r.retryCount < s.maxRetries)
    (hw : ∃ x ∈ s.queue.toList, x.sameWork r = true) :
    s.handleFailure r e =
      (.failed r e, { s with stats := { s.stats with failed := s.stats.failed + 1 },
                             clock := s.clock + 1 }) := by
  unfold handleFailure
  rw [if_neg (by simp [h.1, h.2])]
  simp only [tick]
  have hp := @Queue.push_taken _ (r.retried (s.clock + 1)) (by simpa using hw)
  dsimp only [Request.retried] at hp
  rw [hp]

/-- **A retry is queued** when no request for the same work waits: as `r.retried`, stamped by the
clock advanced, and counted as failed and as retried. -/
theorem handleFailure_retried (h : e.retryable = true ∧ r.retryCount < s.maxRetries)
    (hw : ∀ x ∈ s.queue.toList, x.sameWork r = false) :
    s.handleFailure r e =
      (.retrying (r.retried (s.clock + 1)) e,
        { s with queue := (s.queue.push (r.retried (s.clock + 1))).2, clock := s.clock + 1,
                 stats := { s.stats with failed := s.stats.failed + 1,
                                         retried := s.stats.retried + 1 } }) := by
  unfold handleFailure
  rw [if_neg (by simp [h.1, h.2])]
  simp only [tick]
  have hp := @Queue.push_fresh _ (r.retried (s.clock + 1)) (by simpa using hw)
  rw [hp]
  dsimp only [Request.retried] at hp
  rw [hp]
  rfl

end HandleFailure

/-! ### The requests held -/

/-- The requests the scheduler holds: those waiting, in queue order, then those of the active
jobs. -/
def held (s : Scheduler) : List Request := s.queue.toList ++ s.active.map (·.request)

/-- What holds of the requests held in every state an owner that stamps by the clock reaches. -/
structure HeldApart (s : Scheduler) : Prop where
  /-- No two carry the same stamp. -/
  apart : (s.held.map (·.submittedAt)).Nodup
  /-- None was stamped after the clock. -/
  past : ∀ x ∈ s.held, x.submittedAt ≤ s.clock
  /-- None waiting is the same work as an active job's. -/
  work : ∀ a ∈ s.active.map (·.request), ∀ x ∈ s.queue.toList, x.sameWork a = false

/-- The active job of a page, when pages are told apart, is the one on it. -/
theorem activeJob?_of_mem {s : Scheduler} (ha : (s.active.map (·.request.page)).Nodup) {j : Job}
    (hj : j ∈ s.active) : s.activeJob? j.request.page = some j := by
  obtain ⟨b, hb⟩ : ∃ b, s.activeJob? j.request.page = some b :=
    Option.isSome_iff_exists.1 (List.find?_isSome.2 ⟨j, hj, by simp⟩)
  rw [hb, List.inj_on_of_nodup_map ha (List.mem_of_find?_eq_some hb) hj
    (by simpa using List.find?_some hb)]

section HeldApart

variable {s s' : Scheduler}

/-- Dropping requests keeps them apart. -/
theorem HeldApart.shrink (h : s.HeldApart) (hq : s'.queue.toList.Sublist s.queue.toList)
    (ha : s'.active.Sublist s.active) (hc : s.clock ≤ s'.clock) : s'.HeldApart := by
  have hs : s'.held.Sublist s.held := hq.append (ha.map _)
  exact ⟨h.apart.sublist (hs.map _), fun x hx => Nat.le_trans (h.past x (hs.subset hx)) hc,
    fun a ha' x hx => h.work a ((ha.map _).subset ha') x (hq.subset hx)⟩

theorem HeldApart.same (h : s.HeldApart) (hq : s'.queue = s.queue) (ha : s'.active = s.active)
    (hc : s.clock ≤ s'.clock) : s'.HeldApart :=
  h.shrink (hq ▸ List.Sublist.refl _) (ha ▸ List.Sublist.refl _) hc

/-- **Queueing a request stamped after the clock keeps the requests apart**, when it is the same
work as no active job's. -/
theorem HeldApart.push (h : s.HeldApart) {x : Request}
    (hq : s'.queue.toList.Perm (x :: s.queue.toList)) (ha : s'.active = s.active)
    (hx : s.clock < x.submittedAt) (hc : x.submittedAt ≤ s'.clock)
    (hw : ∀ a ∈ s.active.map (·.request), x.sameWork a = false) : s'.HeldApart := by
  have hp : s'.held.Perm (x :: s.held) := by
    unfold held
    rw [ha]
    exact hq.append_right _
  refine ⟨?_, fun y hy => ?_, fun a ha' y hy => ?_⟩
  · rw [(hp.map _).nodup_iff, List.map_cons, List.nodup_cons]
    refine ⟨fun hm => ?_, h.apart⟩
    obtain ⟨y, hy, he⟩ := List.mem_map.1 hm
    have := h.past y hy
    omega
  · rcases List.mem_cons.1 (hp.subset hy) with rfl | hy
    · exact hc
    · exact Nat.le_trans (h.past y hy) (by omega)
  · rw [ha] at ha'
    rcases List.mem_cons.1 (hq.subset hy) with rfl | hy
    · exact hw a ha'
    · exact h.work a ha' y hy

/-- Reprioritising keeps every request's stamp and work. -/
theorem HeldApart.setPriority (h : s.HeldApart) (page : Nat) (priority : Int) :
    (s.setPriority page priority).2.HeldApart := by
  let f := fun r : Request => if r.page == page then { r with priority } else r
  have hf : ∀ r, (f r).submittedAt = r.submittedAt ∧ ∀ a, (f r).sameWork a = r.sameWork a :=
    fun r => by
      by_cases hr : r.page = page <;> simp [f, hr, Request.sameWork]
  have hq : (s.setPriority page priority).2.queue.toList.Perm (s.queue.toList.map f) :=
    Queue.toList_setPriority_perm _ _ _
  have hstamp : (·.submittedAt) ∘ f = (·.submittedAt) := funext fun r => (hf r).1
  have hs : ((s.setPriority page priority).2.held.map (·.submittedAt)).Perm
      (s.held.map (·.submittedAt)) := by
    unfold held
    rw [List.map_append, List.map_append]
    refine (hq.map _).append_right _ |>.trans ?_
    rw [List.map_map, hstamp]
    rfl
  refine ⟨hs.nodup_iff.2 h.apart, fun x hx => ?_, fun a ha x hx => ?_⟩
  · have hm : x.submittedAt ∈ s.held.map (·.submittedAt) :=
      hs.subset (List.mem_map_of_mem hx)
    obtain ⟨y, hy, he⟩ := List.mem_map.1 hm
    exact he ▸ h.past y hy
  · obtain ⟨y, hy, rfl⟩ := List.mem_map.1 (hq.subset hx)
    rw [(hf y).2]
    exact h.work a ha y hy

/-- **Dispatching moves requests from the queue to the active table**: the requests held are
the same, and a request started is distinct work from every request left waiting. -/
theorem HeldApart.dispatch (h : s.HeldApart) (hv : s.queue.Valid) : s.dispatch.2.HeldApart := by
  cases hp : s.paused with
  | true => simpa [Scheduler.dispatch, hp] using h
  | false =>
    have hf := followsScan_dispatch hv hp
    have hscan : (s.scan.1 ++ s.scan.2).Perm s.queue.toList := admitScan_perm _ _ _
    have hact : s.dispatch.2.active.map (·.request) = s.active.map (·.request) ++ s.scan.1 := by
      rw [hf.active, hf.starts]
    have hheld : s.dispatch.2.held.Perm s.held := by
      unfold held
      rw [hact]
      -- what waits now and what was started make up what waited
      refine (hf.waiting.append_right _).trans ?_
      refine List.perm_append_comm.trans ?_
      rw [List.append_assoc]
      exact (hscan.append_left _).trans List.perm_append_comm
    have hclock : s.clock ≤ s.dispatch.2.clock := (dispatch_moves s).clock
    -- what was started is distinct work from what is left
    have hd : (s.scan.1 ++ s.scan.2).Pairwise fun a b => a.sameWork b = false :=
      hv.distinct.perm hscan.symm
    refine ⟨(hheld.map _).nodup_iff.2 h.apart,
      fun x hx => Nat.le_trans (h.past x (hheld.subset hx)) hclock, fun a ha x hx => ?_⟩
    have hx' : x ∈ s.scan.2 := hf.waiting.subset hx
    rw [hact] at ha
    rcases List.mem_append.1 ha with ha | ha
    · exact h.work a ha x (hscan.subset (List.mem_append_right _ hx'))
    · rw [Request.sameWork_comm]
      exact (List.pairwise_append.1 hd).2.2 a ha x hx'

/-- **Resolving an outcome keeps the requests apart.** A live job's failure queued again is
stamped by the clock advanced, and is the same work as no other active job: those are on other
pages. -/
theorem HeldApart.resolve (h : s.HeldApart) (hi : s.Inv) (o : Outcome)
    (hu : ∀ a ∈ s.active, a.id = o.job.id → a = o.job) : (s.resolve o).2.HeldApart := by
  unfold Scheduler.resolve
  split
  · exact h.same rfl rfl le_rfl
  · rename_i hl
    have hact : o.job ∈ s.active := by
      obtain ⟨a, ha, hid⟩ := List.mem_map.1 ((isLive_iff s _).1 (by simpa using hl))
      exact hu a ha hid ▸ ha
    have h₁ : ({ s with active := s.active.filter (·.id != o.job.id) } : Scheduler).HeldApart :=
      h.shrink (List.Sublist.refl _) List.filter_sublist le_rfl
    split
    · exact h₁.same rfl rfl le_rfl
    · rename_i e _
      dsimp only
      let s₁ : Scheduler := { s with active := s.active.filter (·.id != o.job.id) }
      by_cases hr : e.retryable = true ∧ o.job.request.retryCount < s.maxRetries
      · by_cases hw : ∃ x ∈ s.queue.toList, x.sameWork o.job.request = true
        · rw [@handleFailure_refused s₁ _ _ hr hw]
          exact h₁.same rfl rfl (Nat.le_succ _)
        · have hw' : ∀ x ∈ s.queue.toList, x.sameWork o.job.request = false := by simpa using hw
          rw [@handleFailure_retried s₁ _ _ hr hw']
          refine h₁.push (Queue.toList_push_perm (by simpa using hw')) rfl (Nat.lt_succ_self _)
            le_rfl fun a ha => ?_
          -- the other active jobs are on other pages
          obtain ⟨j, hj, rfl⟩ := List.mem_map.1 ha
          obtain ⟨hj, hid⟩ := List.mem_filter.1 hj
          refine Request.sameWork_of_page_ne fun hpage => ?_
          have hjo : j = o.job := List.inj_on_of_nodup_map hi.active.pages hj hact hpage.symm
          simp [hjo] at hid
      · rw [@handleFailure_final s₁ _ _ hr]
        exact h₁.same rfl rfl le_rfl

/-- **A submission stamped by the clock just advanced keeps the requests apart**: it is queued
only when the same work is neither waiting nor active. -/
theorem HeldApart.submit (h : s.HeldApart) (hi : s.Inv) (r : Request) :
    (s.tick.2.submit { r with submittedAt := s.tick.1 }).2.HeldApart := by
  have ht : s.tick.2.HeldApart := h.same rfl rfl (Nat.le_succ _)
  unfold Scheduler.submit
  split
  · exact ht
  · rename_i hfree
    split
    · exact ht
    · rename_i q hq
      refine h.push (Queue.toList_of_push_true hq) rfl (Nat.lt_succ_self _) le_rfl fun a ha => ?_
      -- an active job on the page is the one the submission looked at
      obtain ⟨j, hj, rfl⟩ := List.mem_map.1 ha
      by_cases hpage : r.page = j.request.page
      · have hjob : s.tick.2.activeJob? r.page = some j := hpage ▸ activeJob?_of_mem hi.active.pages hj
        rw [Request.sameWork_comm]
        simpa [hjob] using hfree
      · exact Request.sameWork_of_page_ne hpage

end HeldApart

/-! ### Every state an owner that stamps by the clock reaches -/

/-- What holds in every state an owner that stamps by the clock reaches: the scheduler's
invariants, its jobs told apart by their ids, its queue well formed and stamped apart, the
requests it holds apart, and no job it knows of stamped after the clock. -/
structure Reach (s : Scheduler) : Prop where
  inv : s.Inv
  jobs : s.JobsOk
  queue : s.queue.StampedBy s.clock
  held : s.HeldApart
  known : ∀ k ∈ s.known, k.request.submittedAt ≤ s.clock

theorem reach_create (c : SchedulerConfig) : (create c).Reach where
  inv := inv_create c
  jobs := jobsOk_create c
  queue := Queue.stampedBy_empty 0
  held := ⟨by simp [held, create, Queue.toList], fun _ h => by simp [held, create, Queue.toList] at h,
    fun _ h => by simp [create] at h⟩
  known _ h := by simp [known, create] at h

/-- Jobs are started from requests that wait, so a job known after a move carries no stamp after
the clock when none did before. -/
theorem Moves.known_past {s s' : Scheduler} (hm : Moves s s') (hq : s.HeldApart)
    (hk : ∀ k ∈ s.known, k.request.submittedAt ≤ s.clock) :
    ∀ k ∈ s'.known, k.request.submittedAt ≤ s'.clock := by
  intro k hk'
  rcases hm.known k hk' with hold | ⟨_, ⟨y, hy, hyk⟩ | ⟨_, hhi⟩⟩
  · exact Nat.le_trans (hk k hold) hm.clock
  · -- started from a request that waited
    have hs : y.submittedAt = k.request.submittedAt := congrArg Prod.snd hyk
    exact hs ▸ Nat.le_trans (hq.past y (List.mem_append_left _ hy)) hm.clock
  · exact hhi

/-- Each event of an owner that stamps by the clock moves requests and jobs as `Moves` says. -/
theorem Op.stamped_moves (op : Op) (s : Scheduler) : Moves s (op.stamped s) := by
  cases op with
  | tick => exact tick_moves s
  | submit r => exact submit_moves s _ rfl
  | dispatch => exact dispatch_moves s
  | finish i result =>
    simp only [Op.stamped, Op.step]
    split
    · rename_i j hj
      exact post_moves (List.mem_of_getElem? hj) result
    · exact Moves.refl s
  | waitCompletion => exact waitCompletion_moves s
  | drainCompletions => exact (drainCompletions_moves s).1
  | cancel page => exact cancel_moves s page
  | setPriority page priority => exact setPriority_moves s page priority
  | clearQueue => exact removeQueuedWhere_moves s fun _ => true
  | removeQueuedWhere p => exact removeQueuedWhere_moves s p
  | stop => exact stop_moves s
  | adaptConcurrency => exact adaptConcurrency_moves s
  | pause | resume | setMaxConcurrentJobs _ | setMaxRetries _ | setAdaptive _ =>
    exact Moves.same rfl rfl rfl rfl rfl

/-- An event of an owner that stamps by the clock is a run of plain events: a submission is a tick
of the clock and the submission stamped by it. -/
theorem Op.stamped_eq_run (op : Op) (s : Scheduler) : ∃ ops, op.stamped s = s.run ops := by
  cases op with
  | submit r => exact ⟨[.tick, .submit { r with submittedAt := s.clock + 1 }], rfl⟩
  | _ => exact ⟨[_], rfl⟩

section Reach

variable {s : Scheduler}

theorem Reach.waitCompletion (h : s.Reach) : s.waitCompletion.2.Reach := by
  refine ⟨inv_step h.inv .waitCompletion, jobsOk_step h.jobs .waitCompletion,
    stampedBy_waitCompletion h.queue, ?_, (waitCompletion_moves s).known_past h.held h.known⟩
  rcases hp : s.posted with _ | ⟨o, rest⟩
  · rw [waitCompletion_nil hp]
    exact h.held
  · rw [waitCompletion_eq hp]
    -- the outcome's job is the active job with its id
    have hu : ∀ a ∈ s.active, a.id = o.job.id → a = o.job := fun a ha hid =>
      h.jobs.unique a (by simp [ha]) o.job (by simp [hp]) hid
    exact (h.held.resolve h.inv o hu).same rfl rfl le_rfl

theorem Reach.waits (h : s.Reach) (n : Nat) : (waits n s).2.Reach := by
  induction n generalizing s with
  | zero => exact h
  | succ n ih => exact ih h.waitCompletion

theorem Reach.drainCompletions (h : s.Reach) : s.drainCompletions.2.Reach := by
  rw [drainCompletions_eq]
  exact h.waits _

/-- Each event of an owner that stamps by the clock keeps the requests held apart. -/
theorem Reach.held_stamped (h : s.Reach) (op : Op) : (op.stamped s).HeldApart := by
  cases op with
  | tick => exact h.held.same rfl rfl (Nat.le_succ _)
  | submit r => exact h.held.submit h.inv r
  | dispatch => exact h.held.dispatch h.queue.valid
  | finish i result =>
    simp only [Op.stamped, Op.step]
    split
    · exact h.held.same (settle_queue _) (settle_active _) (by simp [post])
    · exact h.held
  | waitCompletion => exact h.waitCompletion.held
  | drainCompletions => exact h.drainCompletions.held
  | cancel page =>
    exact h.held.shrink (Queue.removeWhere_sublist s.queue (·.page == page)) List.filter_sublist le_rfl
  | setPriority page priority => exact h.held.setPriority page priority
  | clearQueue =>
    exact h.held.shrink (Queue.removeWhere_sublist s.queue fun _ => true) (List.Sublist.refl _) le_rfl
  | removeQueuedWhere p =>
    exact h.held.shrink (Queue.removeWhere_sublist s.queue p) (List.Sublist.refl _) le_rfl
  | stop =>
    exact h.held.shrink
      (by simp [Op.stamped, Op.step, Scheduler.stop, Queue.clear, Queue.toList_removeWhere])
      (by simp [Op.stamped, Op.step, Scheduler.stop]) (by simp [Op.stamped, Op.step, Scheduler.stop])
  | adaptConcurrency =>
    simp only [Op.stamped, Op.step, adaptConcurrency]
    split
    · exact h.held
    · split
      · exact h.held.same rfl rfl le_rfl
      · split
        · exact h.held.same rfl rfl le_rfl
        · exact h.held
  | pause | resume | setMaxConcurrentJobs _ | setMaxRetries _ | setAdaptive _ =>
    exact h.held.same rfl rfl le_rfl

/-- **Every event of an owner that stamps by the clock keeps what holds of a state it reaches.** -/
theorem Reach.stamped (h : s.Reach) (op : Op) : (op.stamped s).Reach := by
  obtain ⟨ops, hops⟩ := op.stamped_eq_run s
  refine ⟨?_, ?_, stampedBy_stamped h.queue op, h.held_stamped op,
    (op.stamped_moves s).known_past h.held h.known⟩
  · rw [hops]
    exact run_induction h.inv (fun _ op h => inv_step h op) ops
  · rw [hops]
    exact run_induction h.jobs (fun _ op h => jobsOk_step h op) ops

theorem Reach.runStamped (h : s.Reach) (ops : List Op) : (s.runStamped ops).Reach := by
  unfold Scheduler.runStamped
  exact List.foldlRecOn (motive := Reach) _ _ h fun t ht op _ => ht.stamped op

end Reach

/-- **In every state an owner that stamps by the clock reaches**, the requests held carry distinct
stamps, none after the clock, and none waiting is the same work as an active job's. -/
theorem reach_runStamped (c : SchedulerConfig) (ops : List Op) :
    ((create c).runStamped ops).Reach :=
  (reach_create c).runStamped ops

end Scheduler
end Schedule
end Thumbnailer
