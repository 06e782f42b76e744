import Thumbnailer.Proofs.Schedule.Stale

/-!
# What the scheduler says of a page

Of a page the scheduler answers two questions: whether a request for it waits (`isQueued`)
and whether it has an active job (`hasActive`). This module says how each of its functions
changes the two answers:

* a queued submission makes its page waiting;
* dispatching moves the pages of the requests it starts from waiting to active, none of them
  active before, and changes nothing else (`dispatch_view`);
* resolving an outcome changes nothing when it is discarded, and otherwise ends the activity
  of the delivered page only, a retry leaving a request for it waiting (`resolve_delivered`);
* `cancel` drops one page, `stop` every page, `removeQueuedWhere` waiting requests only, and
  reprioritising changes no answer.

The queue is compared up to permutation: a page waits when some waiting request is for it.
-/

namespace Thumbnailer
namespace Schedule

open Render

/-- The page a completion delivers a result for; a discard delivers none. -/
def Completion.deliveredPage? : Completion → Option Nat
  | .finished r _ | .retrying r _ | .failed r _ => some r.page
  | .discarded _ => none

/-- Whether the completion is a failed attempt queued again. -/
def Completion.isRetrying : Completion → Bool
  | .retrying .. => true
  | _ => false

namespace Queue

theorem containsPage_iff (qu : Queue) (page : Nat) :
    qu.containsPage page = true ↔ page ∈ qu.toList.map (·.page) := by
  simp [containsPage, toList]

/-- A push that is taken adds the request to the waiting ones. -/
theorem toList_of_push_true {qu q : Queue} {r : Request} (h : qu.push r = (true, q)) :
    q.toList.Perm ([r] ++ qu.toList) := by
  by_cases ht : ∃ x ∈ qu.toList, x.sameWork r = true
  · rw [push_taken ht] at h
    cases h
  · have hf : ∀ x ∈ qu.toList, x.sameWork r = false := by simpa using ht
    have hq := toList_push_perm hf
    rwa [h] at hq

end Queue

namespace Scheduler

/-! ### The two answers -/

theorem isQueued_iff (s : Scheduler) (page : Nat) :
    s.isQueued page = true ↔ page ∈ s.queue.toList.map (·.page) :=
  Queue.containsPage_iff s.queue page

theorem hasActive_iff_request (s : Scheduler) (page : Nat) :
    s.hasActive page = true ↔ page ∈ (s.active.map (·.request)).map (·.page) := by
  rw [hasActive_iff, List.map_map]
  rfl

/-- Requests added to the queue make their pages waiting; no other page changes. -/
theorem isQueued_of_perm {s t : Scheduler} {rs : List Request}
    (h : t.queue.toList.Perm (rs ++ s.queue.toList)) (p : Nat) :
    t.isQueued p = true ↔ p ∈ rs.map (·.page) ∨ s.isQueued p = true := by
  rw [isQueued_iff, isQueued_iff, (h.map _).mem_iff, List.map_append, List.mem_append]

theorem isQueued_eq_of_perm {s t : Scheduler} {rs : List Request}
    (h : t.queue.toList.Perm (rs ++ s.queue.toList)) {p : Nat} (hp : p ∉ rs.map (·.page)) :
    t.isQueued p = s.isQueued p := by
  rw [Bool.eq_iff_iff, isQueued_of_perm h]
  simp [hp]

/-- Filtering the active jobs keeps the pages of the jobs kept. -/
theorem hasActive_of_filter {s t : Scheduler} {f : Job → Bool} (h : t.active = s.active.filter f)
    (p : Nat) : t.hasActive p = true ↔ ∃ j ∈ s.active, f j = true ∧ j.request.page = p := by
  rw [hasActive_iff, h]
  simp [and_assoc]

@[simp] theorem settle_isQueued (s : Scheduler) (p : Nat) : (settle s).isQueued p = s.isQueued p := by
  simp [isQueued]

@[simp] theorem settle_hasActive (s : Scheduler) (p : Nat) : (settle s).hasActive p = s.hasActive p := by
  simp [hasActive, activeJob?]

/-! ### Submitting -/

@[simp] theorem submit_active (s : Scheduler) (r : Request) : (s.submit r).2.active = s.active := by
  unfold submit
  split
  · rfl
  · split <;> rfl

theorem submit_queued {s s' : Scheduler} {r : Request} (h : s.submit r = (.queued, s')) :
    s'.queue.toList.Perm ([r] ++ s.queue.toList) := by
  unfold submit at h
  split at h
  · cases h
  · split at h
    · cases h
    · rename_i q hq
      cases h
      exact Queue.toList_of_push_true hq

/-- A submission that is not queued changes nothing. -/
theorem submit_not_queued {s s' : Scheduler} {r : Request} {a : Admission}
    (h : s.submit r = (a, s')) (ha : a ≠ .queued) : s' = s := by
  unfold submit at h
  split at h
  · exact (Prod.mk.inj h).2.symm
  · split at h
    · exact (Prod.mk.inj h).2.symm
    · exact absurd (Prod.mk.inj h).1.symm ha

/-! ### Dispatching -/

/-- What the admission loop has done since the state `s₀` it started from: the requests it
started follow the active jobs of `s₀`, on pages none of those had, and each request that
waited in `s₀` was started, set aside or waits still. -/
structure Starts (s₀ s : Scheduler) (started deferred : List Request) : Prop where
  active : s.active.map (·.request) = s₀.active.map (·.request) ++ started
  queue : s₀.queue.toList.Perm (started ++ deferred ++ s.queue.toList)
  fresh : ∀ r ∈ started, s₀.hasActive r.page = false

theorem Starts.init (s : Scheduler) : Starts s s [] [] :=
  ⟨by simp, by simp, by simp⟩

theorem Starts.hasActive {s₀ s : Scheduler} {started deferred : List Request}
    (h : Starts s₀ s started deferred) (p : Nat) :
    s.hasActive p = true ↔ s₀.hasActive p = true ∨ p ∈ started.map (·.page) := by
  rw [hasActive_iff_request, h.active, List.map_append, List.mem_append, ← hasActive_iff_request]

/-- A request whose page is busy is set aside. -/
theorem Starts.defer {s₀ s : Scheduler} {started deferred : List Request}
    (h : Starts s₀ s started deferred) {r : Request} {q : Queue} (hpop : s.queue.pop = (some r, q)) :
    Starts s₀ { s with queue := q } started (deferred ++ [r]) := by
  refine ⟨h.active, h.queue.trans ?_, h.fresh⟩
  rw [Queue.toList_pop hpop]
  simp

/-- A request whose page is free is started. -/
theorem Starts.start {s₀ s : Scheduler} {started deferred : List Request}
    (h : Starts s₀ s started deferred) {r : Request} {q : Queue} (hpop : s.queue.pop = (some r, q))
    (hfree : ¬ s.hasActive r.page = true) :
    Starts s₀ { s with queue := q, nextId := s.nextId + 1, pending := s.pending ++ [⟨s.nextId, r⟩],
                       active := s.active ++ [⟨s.nextId, r⟩] } (started ++ [r]) deferred := by
  refine ⟨by simp [h.active], h.queue.trans ?_, fun x hx => ?_⟩
  · -- `r` moves from the front of the queue to the end of the started ones
    rw [Queue.toList_pop hpop]
    simpa using (@List.perm_middle _ r deferred q.toList).append_left started
  · rcases List.mem_append.1 hx with hx | hx
    · exact h.fresh x hx
    · rw [List.mem_singleton.1 hx, Bool.eq_false_iff]
      exact fun ha => hfree ((h.hasActive _).2 (.inl ha))

theorem takeQueued_starts {s₀ : Scheduler} (fuel : Nat) (s : Scheduler)
    (started deferred : List Request) (h : Starts s₀ s started deferred) :
    Starts s₀ (takeQueued fuel s started deferred).1 (takeQueued fuel s started deferred).2.1
      (takeQueued fuel s started deferred).2.2 := by
  fun_induction takeQueued fuel s started deferred with
  | case1 => exact h
  | case2 => exact h
  | case3 _ _ _ _ _ _ _ hpop _ _ ih => exact ih (h.defer hpop)
  | case4 _ _ _ _ _ _ _ hpop _ hfree _ ih => exact ih (h.start hpop hfree)
  | case5 => exact h

/-- What dispatching does to pages: the pages of the requests it starts become active, none of
them active before; those requests leave the queue; nothing else changes. -/
structure DispatchView (s : Scheduler) (started : List Request) (s' : Scheduler) : Prop where
  active : ∀ p, s'.hasActive p = true ↔ s.hasActive p = true ∨ p ∈ started.map (·.page)
  queue : s.queue.toList.Perm (started ++ s'.queue.toList)
  fresh : ∀ r ∈ started, s.hasActive r.page = false

/-- **What dispatching does to pages.** The requests set aside because their page was busy all
go back to the queue, since they are distinct work (`Queue.foldl_push_perm`). -/
theorem dispatch_view {s : Scheduler} (h : s.Inv) : DispatchView s s.dispatch.1 s.dispatch.2 := by
  unfold dispatch
  split
  · exact ⟨fun p => by simp, by simp, by simp⟩
  · rcases hT : takeQueued s.queue.size { s with workers := max s.workers s.limit } [] [] with
      ⟨s', started, deferred⟩
    have hA : Admits { s with workers := max s.workers s.limit } s' deferred := by
      have := takeQueued_admits s.queue.size { s with workers := max s.workers s.limit } [] []
        ⟨h.active, by simpa using h.distinct, rfl, rfl⟩
      rwa [hT] at this
    have hS : Starts { s with workers := max s.workers s.limit } s' started deferred := by
      have := takeQueued_starts s.queue.size { s with workers := max s.workers s.limit } [] []
        (Starts.init _)
      rwa [hT] at this
    have hperm := Queue.foldl_push_perm s'.queue deferred hA.distinct
    simp only [hT]
    refine ⟨fun p => ?_, ?_, hS.fresh⟩
    · simpa [hasActive, activeJob?] using hS.hasActive p
    · refine hS.queue.trans ?_
      rw [settle_queue, List.append_assoc]
      exact (List.perm_append_comm.trans hperm.symm).append_left started

/-! ### Resolving an outcome -/

theorem deliveredPage?_eq_none {c : Completion} : c.deliveredPage? = none ↔ c.isDiscarded = true := by
  cases c <;> simp [Completion.deliveredPage?, Completion.isDiscarded]

/-- A failed attempt is delivered for its request's page; the queue gains requests of that
page only, one when the attempt is retried. -/
theorem handleFailure_queue (s : Scheduler) (r : Request) (e : JobFailure) :
    (s.handleFailure r e).1.deliveredPage? = some r.page ∧
      ∃ rs : List Request, (s.handleFailure r e).2.queue.toList.Perm (rs ++ s.queue.toList) ∧
        (∀ x ∈ rs, x.page = r.page) ∧ ((s.handleFailure r e).1.isRetrying = true → rs ≠ []) := by
  unfold handleFailure
  dsimp only
  split
  · exact ⟨rfl, [], by simp, by simp, by simp [Completion.isRetrying]⟩
  · simp only [tick]
    split
    · exact ⟨rfl, [], by simp, by simp, by simp [Completion.isRetrying]⟩
    · rename_i q hq
      exact ⟨rfl, [_], Queue.toList_of_push_true hq, by simp, by simp⟩

/-- A live outcome's job leaves the active table; the completion is delivered for its page,
and the queue gains requests of that page only, one when the attempt is retried. -/
theorem resolve_live {s : Scheduler} {o : Outcome} (h : s.isLive o.job = true) :
    (s.resolve o).2.active = s.active.filter (·.id != o.job.id) ∧
      (s.resolve o).1.deliveredPage? = some o.job.request.page ∧
      ∃ rs : List Request, (s.resolve o).2.queue.toList.Perm (rs ++ s.queue.toList) ∧
        (∀ x ∈ rs, x.page = o.job.request.page) ∧ ((s.resolve o).1.isRetrying = true → rs ≠ []) := by
  refine ⟨by simp [resolve_active, h], ?_⟩
  unfold resolve
  rw [if_neg (by simp [h])]
  dsimp only
  split
  · exact ⟨rfl, [], by simp, by simp, by simp [Completion.isRetrying]⟩
  · exact handleFailure_queue { s with active := s.active.filter (·.id != o.job.id) } o.job.request _

/-- A discarded outcome leaves the queue and the active jobs as they were. -/
theorem resolve_discarded {s : Scheduler} {o : Outcome} (h : (s.resolve o).1.deliveredPage? = none) :
    (s.resolve o).2.queue = s.queue ∧ (s.resolve o).2.active = s.active := by
  have hl : s.isLive o.job = false := by
    simpa [resolve_isDiscarded] using deliveredPage?_eq_none.1 h
  simp [resolve, hl]

/-- What delivering a result does to pages: `page`, which had an active job, has none; a
request for it that waited still waits; every other page keeps both answers. -/
structure EndsJob (s s' : Scheduler) (page : Nat) : Prop where
  was_active : s.hasActive page = true
  inactive : s'.hasActive page = false
  queued : s.isQueued page = true → s'.isQueued page = true
  other : ∀ p ≠ page, s'.isQueued p = s.isQueued p ∧ s'.hasActive p = s.hasActive p

/-- **What a delivered result does to pages**, when the active job with the outcome's id is
the outcome's job; a retry leaves a request for the page waiting. -/
theorem resolve_delivered {s : Scheduler} {o : Outcome} {page : Nat} (ha : ActiveOk s.active s.nextId)
    (hu : ∀ a ∈ s.active, a.id = o.job.id → a = o.job)
    (h : (s.resolve o).1.deliveredPage? = some page) :
    EndsJob s (s.resolve o).2 page ∧
      ((s.resolve o).1.isRetrying = true → (s.resolve o).2.isQueued page = true) := by
  have hl : s.isLive o.job = true := by
    rw [← Bool.not_eq_false, ← Bool.not_eq_true', ← resolve_isDiscarded, ← deliveredPage?_eq_none, h]
    simp
  obtain ⟨hact, hdp, rs, hq, hpage, hretry⟩ := resolve_live hl
  obtain rfl : o.job.request.page = page := Option.some.inj (hdp.symm.trans h)
  obtain ⟨a, haa, hid⟩ := List.mem_map.1 ((isLive_iff s o.job).1 hl)
  have hoa : o.job ∈ s.active := hu a haa hid ▸ haa
  have hrs : ∀ p ∈ rs.map (·.page), p = o.job.request.page := by simpa using hpage
  refine ⟨⟨(hasActive_iff s _).2 (List.mem_map.2 ⟨_, hoa, rfl⟩), ?_, fun hq' => (isQueued_of_perm hq _).2 (.inr hq'),
    fun p hp => ⟨isQueued_eq_of_perm hq (fun hm => hp (hrs p hm)), ?_⟩⟩, fun hr => ?_⟩
  · -- the page's one active job was the outcome's, and it left
    rw [Bool.eq_false_iff]
    intro hk
    obtain ⟨k, hk, hkid, hkp⟩ := (hasActive_of_filter hact _).1 hk
    obtain rfl := List.inj_on_of_nodup_map ha.pages hk hoa hkp
    simp at hkid
  · -- a job of another page is not the outcome's, so it stays
    rw [Bool.eq_iff_iff, hasActive_of_filter hact, hasActive_iff]
    constructor
    · rintro ⟨k, hk, -, rfl⟩
      exact List.mem_map.2 ⟨k, hk, rfl⟩
    · intro hp'
      obtain ⟨k, hk, rfl⟩ := List.mem_map.1 hp'
      refine ⟨k, hk, ?_, rfl⟩
      simp only [bne_iff_ne, ne_eq]
      intro hid'
      exact hp (by rw [hu k hk hid'])
  · obtain ⟨x, hx⟩ := List.exists_mem_of_ne_nil rs (hretry hr)
    exact (isQueued_of_perm hq _).2 (.inl (List.mem_map.2 ⟨x, hx, hpage x hx⟩))

/-! ### Dropping work -/

theorem cancel_isQueued (s : Scheduler) (page p : Nat) :
    (s.cancel page).2.isQueued p = (s.isQueued p && p != page) := by
  have hq : (s.cancel page).2.queue = (s.queue.removeWhere (·.page == page)).2 := rfl
  rw [Bool.eq_iff_iff, isQueued_iff, hq, Queue.toList_removeWhere]
  simp only [Bool.and_eq_true, isQueued_iff, bne_iff_ne, ne_eq, List.mem_map, List.mem_filter,
    Bool.not_eq_true', beq_eq_false_iff_ne]
  constructor
  · rintro ⟨r, ⟨hr, hne⟩, rfl⟩
    exact ⟨⟨r, hr, rfl⟩, hne⟩
  · rintro ⟨⟨r, hr, rfl⟩, hne⟩
    exact ⟨r, ⟨hr, hne⟩, rfl⟩

theorem cancel_hasActive (s : Scheduler) (page p : Nat) :
    (s.cancel page).2.hasActive p = (s.hasActive p && p != page) := by
  have ha : (s.cancel page).2.active = s.active.filter (·.request.page != page) := rfl
  rw [Bool.eq_iff_iff, hasActive_of_filter ha, Bool.and_eq_true, hasActive_iff]
  constructor
  · rintro ⟨j, hj, hne, rfl⟩
    exact ⟨List.mem_map.2 ⟨j, hj, rfl⟩, hne⟩
  · rintro ⟨hp, hne⟩
    obtain ⟨j, hj, rfl⟩ := List.mem_map.1 hp
    exact ⟨j, hj, hne, rfl⟩

/-- Cancelling removes nothing exactly when the page has no work. -/
theorem cancel_isEmpty (s : Scheduler) (page : Nat) :
    (s.cancel page).1.isEmpty = (!s.isQueued page && !s.hasActive page) := by
  have hc : (s.cancel page).1 =
      ⟨(s.queue.removeWhere (·.page == page)).1.length, s.hasActive page⟩ := rfl
  have hq : decide ((s.queue.toList.filter (·.page == page)).length = 0) = !s.isQueued page := by
    rw [Bool.eq_iff_iff, decide_eq_true_iff, List.length_eq_zero_iff, List.filter_eq_nil_iff,
      Bool.not_eq_true', Bool.eq_false_iff, ne_eq, isQueued_iff]
    simp
  rw [hc, Queue.removeWhere_fst]
  simp only [CancelOutcome.isEmpty, hq]

theorem removeQueuedWhere_isQueued (s : Scheduler) (f : Request → Bool) (p : Nat) :
    (s.removeQueuedWhere f).2.isQueued p = true ↔ ∃ r ∈ s.queue.toList, f r = false ∧ r.page = p := by
  have hq : (s.removeQueuedWhere f).2.queue = (s.queue.removeWhere f).2 := rfl
  rw [isQueued_iff, hq, Queue.toList_removeWhere]
  simp [and_assoc]

theorem removeQueuedWhere_fst (s : Scheduler) (f : Request → Bool) :
    (s.removeQueuedWhere f).1 = s.queue.toList.filter f :=
  Queue.removeWhere_fst s.queue f

@[simp] theorem removeQueuedWhere_active (s : Scheduler) (f : Request → Bool) :
    (s.removeQueuedWhere f).2.active = s.active :=
  rfl

/-- After `stop` nothing waits and nothing is active. -/
theorem stop_isQueued (s : Scheduler) (p : Nat) : s.stop.2.isQueued p = false := by
  rw [Bool.eq_false_iff, ne_eq, isQueued_iff]
  simp [stop, Queue.clear, Queue.toList_removeWhere]

theorem stop_hasActive (s : Scheduler) (p : Nat) : s.stop.2.hasActive p = false := by
  simp [stop, hasActive, activeJob?]

/-- `stop` returns every request that waited and the request of every active job. -/
theorem mem_stop_fst (s : Scheduler) (p : Nat) :
    p ∈ (s.stop.1.1 ++ s.stop.1.2).map (·.page) ↔ s.isQueued p = true ∨ s.hasActive p = true := by
  have hs : s.stop.1 = (s.queue.toList.filter (fun _ => true),
      (s.active.mergeSort fun a b => a.request.page ≤ b.request.page).map (·.request)) := by
    simp [stop, Queue.clear, Queue.removeWhere_fst]
  rw [hs, isQueued_iff, hasActive_iff]
  simp [List.mem_mergeSort]

/-- Reprioritising changes no page's answers. -/
theorem setPriority_isQueued (s : Scheduler) (page : Nat) (priority : Int) (p : Nat) :
    (s.setPriority page priority).2.isQueued p = s.isQueued p := by
  have hq : (s.setPriority page priority).2.queue = (s.queue.setPriority page priority).2 := rfl
  rw [Bool.eq_iff_iff, isQueued_iff, isQueued_iff, hq,
    ((Queue.toList_setPriority_perm s.queue page priority).map _).mem_iff, List.map_map]
  constructor
  · intro hp
    obtain ⟨r, hr, rfl⟩ := List.mem_map.1 hp
    refine List.mem_map.2 ⟨r, hr, ?_⟩
    by_cases h : r.page = page <;> simp [h]
  · intro hp
    obtain ⟨r, hr, rfl⟩ := List.mem_map.1 hp
    refine List.mem_map.2 ⟨r, hr, ?_⟩
    by_cases h : r.page = page <;> simp [h]

end Scheduler

end Schedule
end Thumbnailer
