import Thumbnailer.Proofs.Schedule.Run
import Thumbnailer.Proofs.Schedule.DistinctWork

/-!
# Every request is accounted for exactly once

Requests enter the scheduler by `submit` and by retries; each of them then waits in the queue,
is the active job of its page, or has left as completed, failed or cancelled. The counters
record every move, so in every state of every run

`submitted + retried = waiting + active + completed + failed + cancelled`

(`requests_conserved`). Three facts carry the equation through the events that move requests:

* the admission loop sets aside requests whose page is busy and pushes them back; the pushes are
  never refused, because the queue never holds the same work twice (`DistinctWork`) and the
  requests set aside were part of it (`takeQueued_admits`, `Queue.foldl_push_perm`);
* a live outcome removes exactly one active job, since job ids are distinct (`ActiveOk.ids`);
* cancelling a page removes at most one active job, since pages are distinct
  (`ActiveOk.pages`).
-/

namespace Thumbnailer
namespace Schedule

open Render

/-- Dropping the entries of one key from a list whose keys are distinct drops one entry when
the key occurs and none otherwise. -/
theorem length_filter_bne_add {α β : Type} [BEq β] [LawfulBEq β] (l : List α) (f : α → β)
    (b : β) (h : (l.map f).Nodup) :
    (l.filter (fun x => f x != b)).length + (if b ∈ l.map f then 1 else 0) = l.length := by
  have hp := (List.filter_append_perm (fun x => f x == b) l).length_eq
  rw [List.length_append] at hp
  rw [← h.count, List.count_eq_countP, List.countP_map, List.countP_eq_length_filter, ← hp]
  simp only [bne, Function.comp_def]
  omega

namespace Scheduler

theorem hasActive_iff (s : Scheduler) (page : Nat) :
    s.hasActive page = true ↔ page ∈ s.active.map (·.request.page) := by
  simp [hasActive, activeJob?]

theorem isLive_iff (s : Scheduler) (j : Job) : s.isLive j = true ↔ j.id ∈ s.active.map (·.id) := by
  simp [isLive]

/-- An active table with one job per id and per page, every id below the next one. -/
structure ActiveOk (active : List Job) (nextId : Nat) : Prop where
  ids : (active.map (·.id)).Nodup
  pages : (active.map (·.request.page)).Nodup
  fresh : ∀ j ∈ active, j.id < nextId

/-- Dropping jobs from a well-formed active table keeps it well formed. -/
theorem ActiveOk.sublist {active active' : List Job} {nextId : Nat} (h : ActiveOk active nextId)
    (hs : active'.Sublist active) : ActiveOk active' nextId :=
  ⟨h.ids.sublist (hs.map _), h.pages.sublist (hs.map _), fun j hj => h.fresh j (hs.subset hj)⟩

/-- Requests that entered: submitted, or queued again for a retry. -/
def inflow (s : Scheduler) : Nat := s.stats.submitted + s.stats.retried

/-- Where requests are: waiting, active, or gone as completed, failed or cancelled. -/
def outflow (s : Scheduler) : Nat :=
  s.queue.size + s.active.length + s.stats.completed + s.stats.failed + s.stats.cancelled

/-- Every request that entered is in exactly one place. -/
def Balanced (s : Scheduler) : Prop := s.inflow = s.outflow

/-- What holds in every state of every run. -/
structure Inv (s : Scheduler) : Prop where
  distinct : DistinctWork s.queue.toList
  active : ActiveOk s.active s.nextId
  balanced : s.Balanced

theorem inv_create (c : SchedulerConfig) : (create c).Inv where
  distinct := List.Pairwise.nil
  active := ⟨List.nodup_nil, List.nodup_nil, fun _ h => nomatch h⟩
  balanced := rfl

/-! ### Submitting -/

theorem inv_submit {s : Scheduler} (h : s.Inv) (r : Request) : (s.submit r).2.Inv := by
  unfold submit
  split
  · exact h
  · split
    · exact h
    · rename_i q hq
      have hsize := Queue.size_of_push_true hq
      refine ⟨Queue.distinctWork_of_push h.distinct hq, h.active, ?_⟩
      have hb := h.balanced
      simp only [Balanced, inflow, outflow] at hb ⊢
      omega

/-! ### Admitting -/

/-- What the admission loop keeps between the state `s₀` it started from and a later round,
with `deferred` set aside: the active table stays well formed, what waits and what is set aside
stay distinct work, every request of `s₀` waits, is set aside or is active, and no counter
moves. -/
structure Admits (s₀ s : Scheduler) (deferred : List Request) : Prop where
  active : ActiveOk s.active s.nextId
  distinct : DistinctWork (s.queue.toList ++ deferred)
  count : s.queue.size + s.active.length + deferred.length = s₀.queue.size + s₀.active.length
  stats : s.stats = s₀.stats

/-- A request whose page is busy is set aside. -/
theorem Admits.defer {s₀ s : Scheduler} {deferred : List Request} (h : Admits s₀ s deferred)
    {r : Request} {q : Queue} (hpop : s.queue.pop = (some r, q)) :
    Admits s₀ { s with queue := q } (deferred ++ [r]) := by
  have hq := Queue.toList_pop hpop
  have hlen := congrArg List.length hq
  simp only [Queue.length_toList, List.length_cons] at hlen
  refine ⟨h.active, ?_, ?_, h.stats⟩
  · -- `r` moves from the front of the queue to the end of the set-aside list
    have hperm : (q.toList ++ (deferred ++ [r])).Perm (s.queue.toList ++ deferred) := by
      rw [hq, ← List.append_assoc]
      exact List.perm_append_singleton _ _
    exact h.distinct.perm hperm.symm
  · have := h.count
    simp only [List.length_append, List.length_singleton] at this ⊢
    omega

/-- A request whose page is free becomes the active job of its page, under the next id. -/
theorem Admits.start {s₀ s : Scheduler} {deferred : List Request} (h : Admits s₀ s deferred)
    {r : Request} {q : Queue} (hpop : s.queue.pop = (some r, q))
    (hfree : ¬ s.hasActive r.page = true) :
    Admits s₀ { s with queue := q, nextId := s.nextId + 1, pending := s.pending ++ [⟨s.nextId, r⟩],
                       active := s.active ++ [⟨s.nextId, r⟩] } deferred := by
  have hq := Queue.toList_pop hpop
  have hlen := congrArg List.length hq
  simp only [Queue.length_toList, List.length_cons] at hlen
  have hpage : ∀ j ∈ s.active, j.request.page ≠ r.page := fun j hj he =>
    hfree ((hasActive_iff s _).2 (List.mem_map.2 ⟨j, hj, he⟩))
  have hid : ∀ j ∈ s.active, j.id ≠ s.nextId := fun j hj => Nat.ne_of_lt (h.active.fresh j hj)
  refine ⟨⟨?_, ?_, ?_⟩, ?_, ?_, h.stats⟩
  · simpa [List.nodup_append] using And.intro h.active.ids hid
  · simpa [List.nodup_append] using And.intro h.active.pages hpage
  · intro j hj
    rcases List.mem_append.1 hj with hj | hj
    · exact Nat.lt_succ_of_lt (h.active.fresh j hj)
    · simp only [List.mem_singleton] at hj
      subst hj
      exact Nat.lt_succ_self _
  · have hd := h.distinct
    rw [hq] at hd
    exact hd.sublist (List.Sublist.cons r (List.Sublist.refl _))
  · have := h.count
    simp only [List.length_append, List.length_singleton] at this ⊢
    omega

/-- **The admission loop keeps `Admits`**, however many rounds it runs. -/
theorem takeQueued_admits {s₀ : Scheduler} (fuel : Nat) (s : Scheduler)
    (started deferred : List Request) (h : Admits s₀ s deferred) :
    Admits s₀ (takeQueued fuel s started deferred).1 (takeQueued fuel s started deferred).2.2 := by
  fun_induction takeQueued fuel s started deferred with
  | case1 => exact h
  | case2 => exact h
  | case3 _ _ _ _ _ _ _ hpop _ _ ih => exact ih (h.defer hpop)
  | case4 _ _ _ _ _ _ _ hpop _ hfree _ ih => exact ih (h.start hpop hfree)
  | case5 => exact h

theorem inv_dispatch {s : Scheduler} (h : s.Inv) : s.dispatch.2.Inv := by
  unfold dispatch
  split
  · exact h
  · rcases hT : takeQueued s.queue.size { s with workers := max s.workers s.limit } [] [] with
      ⟨s', started, deferred⟩
    have hA : Admits { s with workers := max s.workers s.limit } s' deferred := by
      have := takeQueued_admits s.queue.size { s with workers := max s.workers s.limit } [] []
        ⟨h.active, by simpa using h.distinct, rfl, rfl⟩
      rwa [hT] at this
    simp only [hT]
    -- the set-aside requests all come back: the pushes are never refused
    have hperm := Queue.foldl_push_perm s'.queue deferred hA.distinct
    have hsize := hperm.length_eq
    simp only [Queue.length_toList, List.length_append] at hsize
    refine ⟨?_, ?_, ?_⟩
    · simpa using hA.distinct.perm hperm.symm
    · simpa using hA.active
    · have hb := h.balanced
      have hc := hA.count
      have hs := hA.stats
      simp only [Balanced, inflow, outflow, settle_stats, settle_queue, settle_active] at hb hc ⊢
      simp only [hsize, hs]
      omega

/-! ### Resolving outcomes -/

/-- A failed attempt whose job has left the active table: the attempt counts as failed, and a
retry re-enters as it is queued again. -/
theorem inv_handleFailure {s : Scheduler} (hd : DistinctWork s.queue.toList)
    (ha : ActiveOk s.active s.nextId)
    (hb : s.outflow + 1 = s.inflow) (r : Request) (e : JobFailure) :
    (s.handleFailure r e).2.Inv := by
  unfold handleFailure
  dsimp only
  split
  · exact ⟨hd, ha, by simp only [Balanced, inflow, outflow] at hb ⊢; omega⟩
  · simp only [tick]
    split
    · exact ⟨hd, ha, by simp only [Balanced, inflow, outflow] at hb ⊢; omega⟩
    · rename_i q hq
      have hsize := Queue.size_of_push_true hq
      refine ⟨Queue.distinctWork_of_push hd hq, ha, ?_⟩
      simp only [Balanced, inflow, outflow] at hb ⊢
      omega

theorem inv_resolve {s : Scheduler} (h : s.Inv) (o : Outcome) : (s.resolve o).2.Inv := by
  unfold resolve
  split
  · exact ⟨h.distinct, h.active, h.balanced⟩
  · rename_i hlive
    have hmem : o.job.id ∈ s.active.map (·.id) := by
      simpa [isLive_iff] using hlive
    -- the live job is the only active job with its id
    have hlen := length_filter_bne_add s.active (·.id) o.job.id h.active.ids
    rw [if_pos hmem] at hlen
    have ha : ActiveOk (s.active.filter (·.id != o.job.id)) s.nextId :=
      h.active.sublist List.filter_sublist
    have hb := h.balanced
    split
    · refine ⟨h.distinct, ha, ?_⟩
      simp only [Balanced, inflow, outflow] at hb ⊢
      omega
    · refine inv_handleFailure ?_ ?_ ?_ _ _
      · exact h.distinct
      · exact ha
      · simp only [Balanced, inflow, outflow] at hb ⊢
        omega

theorem inv_waitCompletion {s : Scheduler} (h : s.Inv) : s.waitCompletion.2.Inv := by
  unfold waitCompletion
  split
  · exact h
  · rename_i o rest _
    have ho := @inv_resolve { s with posted := rest } ⟨h.distinct, h.active, h.balanced⟩ o
    generalize ({ s with posted := rest }).resolve o = p at ho ⊢
    exact ho

theorem inv_drainCompletions {s : Scheduler} (h : s.Inv) : s.drainCompletions.2.Inv := by
  unfold drainCompletions
  -- every outcome is resolved against the state the previous ones left
  refine List.foldlRecOn (motive := fun acc : List Completion × Scheduler => acc.2.Inv) _ _
    ⟨h.distinct, h.active, h.balanced⟩ fun acc ht o _ => ?_
  exact inv_resolve ht o

theorem inv_post {s : Scheduler} (h : s.Inv) (j : Job) (result : Except JobFailure Raster.Bitmap) :
    (s.post j result).Inv := by
  unfold post
  exact ⟨by simpa using h.distinct, by simpa using h.active,
    by simpa [Balanced, inflow, outflow] using h.balanced⟩

/-! ### Removing work -/

theorem inv_cancel {s : Scheduler} (h : s.Inv) (page : Nat) : (s.cancel page).2.Inv := by
  have hsize := Queue.size_removeWhere s.queue (·.page == page)
  have hd := Queue.distinctWork_removeWhere h.distinct (·.page == page)
  unfold cancel
  rcases hR : s.queue.removeWhere (·.page == page) with ⟨removed, q⟩
  rw [hR] at hsize hd
  -- at most one active job has the page
  have hlen := length_filter_bne_add s.active (·.request.page) page h.active.pages
  refine ⟨hd, h.active.sublist List.filter_sublist, ?_⟩
  have hb := h.balanced
  simp only [Balanced, inflow, outflow] at hb hsize ⊢
  by_cases hp : page ∈ s.active.map (·.request.page)
  · have ha : s.hasActive page = true := (hasActive_iff s page).2 hp
    simp only [hp, if_true] at hlen
    simp only [ha, if_true]
    omega
  · have ha : s.hasActive page = false := by
      simpa using mt (hasActive_iff s page).1 hp
    simp only [hp, if_false] at hlen
    simp only [ha, Bool.false_eq_true, if_false]
    omega

theorem inv_removeQueuedWhere {s : Scheduler} (h : s.Inv) (p : Request → Bool) :
    (s.removeQueuedWhere p).2.Inv := by
  have hsize := Queue.size_removeWhere s.queue p
  refine ⟨Queue.distinctWork_removeWhere h.distinct p, h.active, ?_⟩
  have hb := h.balanced
  simp only [Balanced, inflow, outflow, removeQueuedWhere] at hb ⊢
  omega

theorem inv_setPriority {s : Scheduler} (h : s.Inv) (page : Nat) (priority : Int) :
    (s.setPriority page priority).2.Inv := by
  have hsize := Queue.size_setPriority s.queue page priority
  refine ⟨Queue.distinctWork_setPriority h.distinct page priority, h.active, ?_⟩
  have hb := h.balanced
  simp only [Balanced, inflow, outflow, setPriority] at hb ⊢
  omega

theorem inv_stop {s : Scheduler} (h : s.Inv) : s.stop.2.Inv := by
  have hsize := Queue.size_removeWhere s.queue fun _ => true
  refine ⟨?_, by simpa [stop] using ActiveOk.sublist h.active (List.nil_sublist _), ?_⟩
  · simpa [stop, Queue.clear] using Queue.distinctWork_removeWhere h.distinct fun _ => true
  · have hb := h.balanced
    simp only [Balanced, inflow, outflow, stop, Queue.clear, settle_stats, settle_queue,
      settle_active, List.length_mergeSort, List.length_nil] at hb hsize ⊢
    omega

/-! ### Every run -/

theorem inv_step {s : Scheduler} (h : s.Inv) (op : Op) : (op.step s).2.Inv := by
  cases op with
  | tick => exact ⟨h.distinct, h.active, h.balanced⟩
  | submit r => exact inv_submit h r
  | dispatch => exact inv_dispatch h
  | finish i result =>
    simp only [Op.step]
    split
    · exact inv_post h _ result
    · exact h
  | waitCompletion => exact inv_waitCompletion h
  | drainCompletions => exact inv_drainCompletions h
  | cancel page => exact inv_cancel h page
  | setPriority page priority => exact inv_setPriority h page priority
  | clearQueue => exact inv_removeQueuedWhere h fun _ => true
  | removeQueuedWhere p => exact inv_removeQueuedWhere h p
  | stop => exact inv_stop h
  | pause | resume | setMaxConcurrentJobs _ | setMaxRetries _ | setAdaptive _ =>
    exact ⟨h.distinct, h.active, h.balanced⟩
  | adaptConcurrency =>
    simp only [Op.step, adaptConcurrency]
    split
    · exact h
    · split
      · exact ⟨h.distinct, h.active, h.balanced⟩
      · split
        · exact ⟨h.distinct, h.active, h.balanced⟩
        · exact h

/-- **Request conservation.** After any run from a new scheduler, no two waiting requests are
the same work, and every request that entered (submitted, or queued again for a retry) is in
exactly one place: waiting, active, completed, failed or cancelled. -/
theorem requests_conserved (c : SchedulerConfig) (ops : List Op) :
    let s := (create c).run ops
    DistinctWork s.queue.toList ∧
      s.stats.submitted + s.stats.retried =
        s.queue.size + s.active.length + s.stats.completed + s.stats.failed + s.stats.cancelled := by
  have h := run_induction (inv_create c) (fun _ op h => inv_step h op) ops
  exact ⟨h.distinct, h.balanced⟩

end Scheduler

end Schedule
end Thumbnailer
