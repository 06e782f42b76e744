import Thumbnailer.Proofs.Schedule.AdmissionScan
import Thumbnailer.Proofs.Generator.Stamps

/-!
# Requests stamped by the clock never tie

An owner of the scheduler stamps each request it submits with the next instant of the
scheduler's clock, as the generator does (`Op.stamped`), and a retry is stamped the same way.
In every state such an owner reaches (`runStamped`), the waiting requests were stamped no later
than the clock and no two at the same instant, in a well-formed queue (`Queue.StampedBy`):

* a push stamped after the clock keeps the stamps apart (`StampedBy.push`), as the stamp
  `clock + 1` is none of the stamps so far;
* a removal, a change of priority and a dispatch keep some of the stamps and no new one
  (`StampedBy.of_subperm`);
* every other call leaves the queue alone, and the clock only grows.

So no two waiting requests tie in priority and submission instant, and the proviso of
`dispatch_follows_scan` always holds: the main statement, `dispatch_keeps_waiting_order`, is the
admission scan with the requests left waiting in the order they had.
-/

namespace Thumbnailer
namespace Schedule

namespace Queue

/-- Every request waiting in `qu` was stamped no later than `clock`, no two at the same instant,
and the queue is well formed. -/
structure StampedBy (qu : Queue) (clock : Nat) : Prop where
  valid : qu.Valid
  past : ∀ x ∈ qu.toList, x.submittedAt ≤ clock
  apart : (qu.toList.map (·.submittedAt)).Nodup

theorem stampedBy_empty (clock : Nat) : ({} : Queue).StampedBy clock :=
  ⟨valid_empty, List.forall_mem_nil _, List.nodup_nil⟩

theorem StampedBy.mono {qu : Queue} {c c' : Nat} (h : qu.StampedBy c) (hc : c ≤ c') :
    qu.StampedBy c' :=
  ⟨h.valid, fun x hx => Nat.le_trans (h.past x hx) hc, h.apart⟩

/-- Requests stamped apart never tie in priority and submission instant. -/
theorem StampedBy.noTies {qu : Queue} {c : Nat} (h : qu.StampedBy c) : qu.NoTies := by
  unfold NoTies
  refine List.Nodup.of_map Prod.snd ?_
  rw [List.map_map]
  exact h.apart

/-- A well-formed queue that keeps some of the stamps of a queue stamped apart, and adds none. -/
theorem StampedBy.of_subperm {qu qu' : Queue} {c : Nat} (h : qu.StampedBy c) (hv : qu'.Valid)
    (hs : (qu'.toList.map (·.submittedAt)).Subperm (qu.toList.map (·.submittedAt))) :
    qu'.StampedBy c := by
  obtain ⟨l, hperm, hsub⟩ := hs
  refine ⟨hv, fun x hx => ?_, hperm.nodup_iff.1 (h.apart.sublist hsub)⟩
  obtain ⟨y, hy, hxy⟩ :=
    List.mem_map.1 (hsub.subset (hperm.symm.subset (List.mem_map_of_mem hx)))
  rw [← hxy]
  exact h.past y hy

/-- **A push stamped after the clock keeps the stamps apart**: no request waiting has its stamp. -/
theorem StampedBy.push {qu q : Queue} {c : Nat} {b : Bool} (h : qu.StampedBy c) {r : Request}
    (hr : c < r.submittedAt) (hq : qu.push r = (b, q)) : q.StampedBy r.submittedAt := by
  obtain rfl : q = (qu.push r).2 := by rw [hq]
  by_cases ht : ∃ x ∈ qu.toList, x.sameWork r = true
  · rw [push_taken ht]
    exact h.mono (Nat.le_of_lt hr)
  · have hf : ∀ x ∈ qu.toList, x.sameWork r = false := by simpa using ht
    have hperm := toList_push_perm hf
    have hnew : r.submittedAt ∉ qu.toList.map (·.submittedAt) := fun hm => by
      obtain ⟨y, hy, he⟩ := List.mem_map.1 hm
      have := h.past y hy
      omega
    refine ⟨h.valid.push r, fun x hx => ?_, ?_⟩
    · rcases List.mem_cons.1 (hperm.mem_iff.1 hx) with rfl | hx
      · exact Nat.le_refl _
      · exact Nat.le_trans (h.past x hx) (Nat.le_of_lt hr)
    · rw [(hperm.map _).nodup_iff, List.map_cons]
      exact List.nodup_cons.2 ⟨hnew, h.apart⟩

theorem StampedBy.removeWhere {qu : Queue} {c : Nat} (h : qu.StampedBy c) (p : Request → Bool) :
    (qu.removeWhere p).2.StampedBy c :=
  h.of_subperm (h.valid.removeWhere p) (by
    rw [toList_removeWhere]
    exact (List.filter_sublist.map _).subperm)

/-- A change of priority keeps every request's stamp. -/
theorem StampedBy.setPriority {qu : Queue} {c : Nat} (h : qu.StampedBy c) (page : Nat)
    (priority : Int) : (qu.setPriority page priority).2.StampedBy c := by
  have hperm := (toList_setPriority_perm qu page priority).map (·.submittedAt)
  rw [List.map_map] at hperm
  have hsame : qu.toList.map
      ((·.submittedAt) ∘ fun r => if r.page == page then { r with priority } else r) =
        qu.toList.map (·.submittedAt) := by
    apply List.map_congr_left
    intro x _
    by_cases hx : x.page = page <;> simp [hx]
  exact h.of_subperm (h.valid.setPriority page priority) (hsame ▸ hperm).subperm

end Queue

namespace Scheduler

open Render

/-! ### Each call -/

/-- A submission either pushes the request or leaves the queue alone. -/
theorem submit_queue (s : Scheduler) (r : Request) :
    (s.submit r).2.queue = s.queue ∨ (s.submit r).2.queue = (s.queue.push r).2 := by
  unfold submit
  split
  · exact .inl rfl
  · split
    · exact .inl rfl
    · rename_i q hq
      exact .inr (by rw [hq])

@[simp] theorem submit_clock (s : Scheduler) (r : Request) : (s.submit r).2.clock = s.clock := by
  unfold submit
  split
  · rfl
  · split <;> rfl

/-- **A submission stamped by the clock just advanced keeps the stamps apart.** -/
theorem stampedBy_submit {s : Scheduler} (h : s.queue.StampedBy s.clock) (r : Request) :
    (s.tick.2.submit { r with submittedAt := s.tick.1 }).2.queue.StampedBy
      (s.tick.2.submit { r with submittedAt := s.tick.1 }).2.clock := by
  rw [submit_clock]
  rcases submit_queue s.tick.2 { r with submittedAt := s.tick.1 } with hq | hq
  · rw [hq]
    exact h.mono (Nat.le_succ _)
  · rw [hq]
    exact h.push (Nat.lt_succ_self _) rfl

/-- A dispatch pushes back some of the requests it pops, and stamps nothing. -/
theorem stampedBy_dispatch {s : Scheduler} (h : s.queue.StampedBy s.clock) :
    s.dispatch.2.queue.StampedBy s.dispatch.2.clock := by
  cases hp : s.paused
  · have hf := followsScan_dispatch h.valid hp
    have hs : (s.dispatch.2.queue.toList.map (·.submittedAt)).Subperm
        (s.queue.toList.map (·.submittedAt)) :=
      ⟨_, (hf.waiting.map _).symm, (admitScan_snd_sublist _ _ _).map _⟩
    exact (h.of_subperm hf.valid hs).mono (dispatch_moves s).clock
  · rw [((dispatch_follows_scan s h.valid).1 hp)]
    exact h

theorem stampedBy_post {s : Scheduler} (h : s.queue.StampedBy s.clock) (j : Job)
    (result : Except JobFailure Raster.Bitmap) :
    (s.post j result).queue.StampedBy (s.post j result).clock := by
  simpa [post] using h

/-- A retry is stamped by the clock just advanced. -/
theorem stampedBy_handleFailure {s : Scheduler} (h : s.queue.StampedBy s.clock) (r : Request)
    (e : JobFailure) :
    (s.handleFailure r e).2.queue.StampedBy (s.handleFailure r e).2.clock := by
  unfold handleFailure
  dsimp only
  split
  · exact h
  · simp only [tick]
    split
    · exact h.mono (Nat.le_succ _)
    · rename_i q hq
      exact h.push (Nat.lt_succ_self _) hq

theorem stampedBy_resolve {s : Scheduler} (h : s.queue.StampedBy s.clock) (o : Outcome) :
    (s.resolve o).2.queue.StampedBy (s.resolve o).2.clock := by
  unfold resolve
  split
  · exact h
  · split
    · exact h
    · -- the job leaves the active table, which the stamps do not read
      exact stampedBy_handleFailure
        (s := { s with active := s.active.filter (·.id != o.job.id) }) h _ _

theorem stampedBy_waitCompletion {s : Scheduler} (h : s.queue.StampedBy s.clock) :
    s.waitCompletion.2.queue.StampedBy s.waitCompletion.2.clock := by
  unfold waitCompletion
  split
  · exact h
  · rename_i o rest _
    have ho := stampedBy_resolve (s := { s with posted := rest }) h o
    generalize ({ s with posted := rest }).resolve o = p at ho ⊢
    exact ho

theorem stampedBy_drainCompletions {s : Scheduler} (h : s.queue.StampedBy s.clock) :
    s.drainCompletions.2.queue.StampedBy s.drainCompletions.2.clock := by
  unfold drainCompletions
  -- every outcome is resolved against the state the previous ones left
  refine List.foldlRecOn (motive := fun acc : List Completion × Scheduler =>
    acc.2.queue.StampedBy acc.2.clock) _ _ h fun acc ht o _ => ?_
  exact stampedBy_resolve ht o

theorem stampedBy_cancel {s : Scheduler} (h : s.queue.StampedBy s.clock) (page : Nat) :
    (s.cancel page).2.queue.StampedBy (s.cancel page).2.clock :=
  h.removeWhere (·.page == page)

theorem stampedBy_setPriority {s : Scheduler} (h : s.queue.StampedBy s.clock) (page : Nat)
    (priority : Int) :
    (s.setPriority page priority).2.queue.StampedBy (s.setPriority page priority).2.clock :=
  h.setPriority page priority

theorem stampedBy_removeQueuedWhere {s : Scheduler} (h : s.queue.StampedBy s.clock)
    (p : Request → Bool) :
    (s.removeQueuedWhere p).2.queue.StampedBy (s.removeQueuedWhere p).2.clock :=
  h.removeWhere p

theorem stampedBy_stop {s : Scheduler} (h : s.queue.StampedBy s.clock) :
    s.stop.2.queue.StampedBy s.stop.2.clock := by
  simpa [stop, Queue.clear] using h.removeWhere fun _ => true

theorem stampedBy_adaptConcurrency {s : Scheduler} (h : s.queue.StampedBy s.clock) :
    s.adaptConcurrency.2.queue.StampedBy s.adaptConcurrency.2.clock := by
  unfold adaptConcurrency
  split
  · exact h
  · dsimp only
    split
    · exact h
    · split
      · exact h
      · exact h

/-! ### Runs of an owner that stamps by the clock -/

/-- An event as an owner that stamps requests by the scheduler's clock makes it: a submission
advances the clock and stamps the request with the new instant; every other event is as it
is. -/
def Op.stamped : Op → Scheduler → Scheduler
  | .submit r, s => (s.tick.2.submit { r with submittedAt := s.tick.1 }).2
  | op, s => (op.step s).2

/-- The state after a sequence of events made by such an owner. -/
def runStamped (s : Scheduler) (ops : List Op) : Scheduler := ops.foldl (fun s op => op.stamped s) s

/-- Every event of such an owner keeps the waiting requests stamped apart. -/
theorem stampedBy_stamped {s : Scheduler} (h : s.queue.StampedBy s.clock) (op : Op) :
    (op.stamped s).queue.StampedBy (op.stamped s).clock := by
  cases op with
  | tick => exact h.mono (Nat.le_succ _)
  | submit r => exact stampedBy_submit h r
  | dispatch => exact stampedBy_dispatch h
  | finish i result =>
    simp only [Op.stamped, Op.step]
    split
    · exact stampedBy_post h _ result
    · exact h
  | waitCompletion => exact stampedBy_waitCompletion h
  | drainCompletions => exact stampedBy_drainCompletions h
  | cancel page => exact stampedBy_cancel h page
  | setPriority page priority => exact stampedBy_setPriority h page priority
  | clearQueue => exact stampedBy_removeQueuedWhere h fun _ => true
  | removeQueuedWhere p => exact stampedBy_removeQueuedWhere h p
  | stop => exact stampedBy_stop h
  | pause | resume | setMaxConcurrentJobs _ | setMaxRetries _ | setAdaptive _ => exact h
  | adaptConcurrency => exact stampedBy_adaptConcurrency h

/-- **In every state such an owner reaches, the waiting requests are stamped apart.** -/
theorem stampedBy_runStamped (c : SchedulerConfig) (ops : List Op) :
    ((create c).runStamped ops).queue.StampedBy ((create c).runStamped ops).clock := by
  unfold runStamped
  exact List.foldlRecOn (motive := fun s : Scheduler => s.queue.StampedBy s.clock) _ _
    (Queue.stampedBy_empty 0) fun s h op _ => stampedBy_stamped h op

/-- **Dispatching is the admission scan, and keeps the waiting order.** In every state an owner
that stamps requests by the clock reaches, the queue is sorted by rank (priority, submission
instant, push order). Dispatching while paused does nothing. Otherwise it starts exactly the
requests that a scan of the queue in that order starts, taking each whose page has no active job,
counting those it started, until the table is full or the queue is done: in that order, as new
jobs on pages pairwise distinct and free before, growing the table only up to the limit. Every
other request waits still, unchanged, and in the order it had, so later pops return the
requests left in their old relative order. -/
theorem dispatch_keeps_waiting_order (c : SchedulerConfig) (ops : List Op) :
    let s := (create c).runStamped ops
    s.queue.items.Pairwise Queued.Precedes ∧ (s.paused = true → s.dispatch = ([], s)) ∧
      (s.paused = false →
        FollowsScan s s.dispatch.1 s.dispatch.2 ∧ s.dispatch.2.queue.toList = s.scan.2) := by
  intro s
  have h := stampedBy_runStamped c ops
  obtain ⟨hpaused, hrun⟩ := dispatch_follows_scan s h.valid
  exact ⟨h.valid.sorted, hpaused, fun hp => ⟨(hrun hp).1, (hrun hp).2 h.noTies⟩⟩

end Scheduler

end Schedule
end Thumbnailer
