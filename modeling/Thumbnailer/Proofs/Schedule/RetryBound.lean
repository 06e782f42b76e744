import Thumbnailer.Proofs.Schedule.Lineage
import Thumbnailer.Proofs.Generator.Accounting

/-!
# How often a failing request is tried

A run of an owner that stamps requests by the clock shows, event by event, the requests each
dispatch starts and the outcomes each wait resolves (`Op.shows`, `showsStamped`). Following the
stamp of a request submitted in the run picks out its lineage (`follow`), and the lineage follows
the retry policy (`Lineage`) for as long as the events spare its page (`Op.Spares`): none cancels
the page's work, none reprioritises it, and the retry limit stays as it was.

The run is followed by one invariant, `Tracks`: the retry limit is the lineage's, the lineage
went as the policy says, and the state holds it where it stands (`Status.Holds`): its current
request waits and no job carries its stamp yet, or it is the request of the one job with its
stamp, which is active. A dispatch may start the request (`Tracks.dispatch`); resolving its job
takes the policy's step, and the retry it may queue is stamped after every job known
(`Tracks.resolve_own`); every other event leaves it where it is (`Tracks.resolve`, `Tracks.keep`). The stamps tell the lineage's request and job apart from
every other (`Reach`), and a retry is never refused, since no waiting request is the same work as
an active job's (`HeldApart.work`).

The counters move by resolution only: they count the failed attempts and the retries among the
completions a run shows (`runStamped_failures`).

The main statement is `retry_bound`.
-/

namespace Thumbnailer
namespace Schedule

open Render

/-- A request that waits still waits after a push. -/
theorem Queue.mem_push_of_mem {qu : Queue} {r x : Request} (hx : x ∈ qu.toList) :
    x ∈ (qu.push r).2.toList := by
  unfold Queue.push
  split
  · exact hx
  · exact ((Queue.insertSorted_perm ⟨r, qu.nextSeq⟩ qu.items).map (·.request)).mem_iff.2
      (List.mem_cons_of_mem _ hx)

/-- Among requests with stamps of their own, a request is the only one with its stamp. -/
theorem filter_stamp_eq {l : List Request} (hnd : (l.map (·.submittedAt)).Nodup) {r : Request}
    (hr : r ∈ l) : l.filter (·.submittedAt = r.submittedAt) = [r] := by
  induction l with
  | nil => simp at hr
  | cons x l ih =>
    rw [List.map_cons, List.nodup_cons] at hnd
    rcases List.mem_cons.1 hr with rfl | hr
    · rw [List.filter_cons_of_pos (by simp), List.filter_eq_nil_iff.2 fun y hy he =>
        hnd.1 (List.mem_map.2 ⟨y, hy, by simpa using he⟩)]
    · have hx : x.submittedAt ≠ r.submittedAt := fun he =>
        hnd.1 (he ▸ List.mem_map_of_mem hr)
      rw [List.filter_cons_of_neg (by simpa using hx), ih hnd.2 hr]

/-- What a wait shows of a resolution: the outcome and its completion. -/
def Shown.ofResolution (e : Scheduler × Outcome × Completion) : Shown := .resolved e.2.1 e.2.2

@[simp] theorem filterMap_completion_ofResolution (l : List (Scheduler × Outcome × Completion)) :
    (l.map Shown.ofResolution).filterMap Shown.completion? = l.map (·.2.2) := by
  induction l with
  | nil => rfl
  | cons e l ih => simp [Shown.ofResolution, Shown.completion?, ih]

/-- An outcome for a job of the lineage's stamp is the lineage's; a retry's stamp is followed next. -/
theorem follow_resolved_of_eq {t : Nat} {h : List Shown} {o : Outcome} {c : Completion}
    (ht : o.job.request.submittedAt = t) :
    follow (some t, h) (.resolved o c) = (c.retried?.map (·.submittedAt), h ++ [.resolved o c]) := by
  simp [follow, ht]

/-- An outcome for a job of another stamp is not the lineage's. -/
theorem follow_resolved_of_ne {t : Nat} {h : List Shown} {o : Outcome} {c : Completion}
    (ht : o.job.request.submittedAt ≠ t) : follow (some t, h) (.resolved o c) = (some t, h) := by
  simp [follow, ht]

/-! ### Where a lineage stands -/

/-- What a lineage's standing says of the scheduler: a request waiting is queued, and no job known
carries its stamp; a request running is the request of an active job, the only job known with its
stamp. -/
def Status.Holds (s : Scheduler) : Status → Prop
  | .waiting r => r ∈ s.queue.toList ∧ ∀ k ∈ s.known, k.request.submittedAt ≠ r.submittedAt
  | .running r =>
    ∃ j ∈ s.active, j.request = r ∧ ∀ k ∈ s.known, k.request.submittedAt = r.submittedAt → k = j
  | .ended => True

/-- A run followed from `st` as the lineage of `r₀` under retry limit `m`: the limit is `m`, and
what has been shown follows the policy to a standing that the state holds, whose stamp is the one
followed. -/
def Tracks (m : Nat) (r₀ : Request) (s : Scheduler) (st : Option Nat × List Shown) : Prop :=
  s.maxRetries = m ∧ ∃ σ, Lineage m r₀ st.2 σ ∧ st.1 = σ.stamp? ∧ σ.Holds s

/-- A standing holds on in a state that knows no new job and keeps its request where it is. -/
theorem Status.Holds.frame {σ : Status} {s s' : Scheduler} (h : σ.Holds s)
    (hk : ∀ k ∈ s'.known, k ∈ s.known) (hq : ∀ r, σ = .waiting r → r ∈ s'.queue.toList)
    (ha : ∀ j ∈ s.active, σ = .running j.request → j ∈ s'.active) : σ.Holds s' := by
  cases σ with
  | waiting r => exact ⟨hq r rfl, fun k hk' => h.2 k (hk k hk')⟩
  | running r =>
    obtain ⟨j, hj, rfl, hu⟩ := h
    exact ⟨j, ha j hj rfl, rfl, fun k hk' => hu k (hk k hk')⟩
  | ended => trivial

namespace Scheduler

/-! ### What a run shows -/

/-- What an event shows of its requests: the requests a dispatch starts, and the outcomes a wait
resolves with their completions. -/
def Op.shows : Op → Scheduler → List Shown
  | .dispatch, s => s.dispatch.1.map .started
  | op, s => (op.trace s).map Shown.ofResolution

/-- What a run of an owner that stamps by the clock shows, event by event. -/
def showsStamped (s : Scheduler) : List Op → List Shown
  | [] => []
  | op :: ops => op.shows s ++ showsStamped (op.stamped s) ops

/-- An event that spares the work of a page: it cancels none of it, reprioritises none of it, and
keeps the retry limit. -/
def Op.Spares (page : Nat) : Op → Prop
  | .cancel p | .setPriority p _ => p ≠ page
  | .removeQueuedWhere f => ∀ x : Request, x.page = page → f x = false
  | .clearQueue | .stop | .setMaxRetries _ => False
  | _ => True

/-! ### Dispatching adds active jobs -/

/-- The admission loop keeps the active jobs, and every job it hands to the pool is active. -/
theorem takeQueued_adds (fuel : Nat) (s : Scheduler) (started deferred : List Request) :
    (∀ j ∈ s.active, j ∈ (takeQueued fuel s started deferred).1.active) ∧
      ∀ k ∈ (takeQueued fuel s started deferred).1.known,
        k ∈ s.known ∨ k ∈ (takeQueued fuel s started deferred).1.active := by
  fun_induction takeQueued fuel s started deferred with
  | case1 => exact ⟨fun _ h => h, fun _ h => .inl h⟩
  | case2 => exact ⟨fun _ h => h, fun _ h => .inl h⟩
  | case3 _ s _ _ _ _ q _ _ _ ih => exact ih
  | case4 _ s _ _ _ r q _ _ _ _ ih =>
    obtain ⟨ha, hk⟩ := ih
    have hnew : (⟨s.nextId, r⟩ : Job) ∈ (takeQueued _ _ _ _).1.active :=
      ha _ (List.mem_append_right _ (List.mem_singleton_self _))
    refine ⟨fun j hj => ha j (List.mem_append_left _ hj), fun k hk' => ?_⟩
    rcases hk k hk' with hk' | hk'
    · -- the job started this round is the only one added
      simp only [mem_known, List.mem_append, List.mem_singleton] at hk'
      rcases hk' with (h | rfl) | (h | rfl) | h | h
      · exact .inl (mem_known.2 (.inl h))
      · exact .inr hnew
      · exact .inl (mem_known.2 (.inr (.inl h)))
      · exact .inr hnew
      · exact .inl (mem_known.2 (.inr (.inr (.inl h))))
      · exact .inl (mem_known.2 (.inr (.inr (.inr h))))
    · exact .inr hk'
  | case5 => exact ⟨fun _ h => h, fun _ h => .inl h⟩

theorem takeQueued_maxRetries (fuel : Nat) (s : Scheduler) (started deferred : List Request) :
    (takeQueued fuel s started deferred).1.maxRetries = s.maxRetries := by
  fun_induction takeQueued fuel s started deferred with
  | case1 | case2 | case5 => rfl
  | case3 _ _ _ _ _ _ _ _ _ _ ih => exact ih
  | case4 _ _ _ _ _ _ _ _ _ _ _ ih => exact ih

/-- **Dispatching only adds active jobs**, and every job it creates is active. -/
theorem dispatch_adds (s : Scheduler) :
    (∀ j ∈ s.active, j ∈ s.dispatch.2.active) ∧
      ∀ k ∈ s.dispatch.2.known, k ∈ s.known ∨ k ∈ s.dispatch.2.active := by
  unfold Scheduler.dispatch
  split
  · exact ⟨fun _ h => h, fun _ h => .inl h⟩
  · obtain ⟨ha, hk⟩ := takeQueued_adds s.queue.size { s with workers := max s.workers s.limit } [] []
    rcases hT : takeQueued s.queue.size { s with workers := max s.workers s.limit } [] [] with
      ⟨t, started, deferred⟩
    rw [hT] at ha hk
    simp only [hT, settle_active]
    refine ⟨ha, fun k hk' => ?_⟩
    have hk'' := (settle_creates _).known k hk'
    simp only [List.not_mem_nil, or_false] at hk''
    exact hk k hk''

/-- **A dispatch moves requests from the queue to new active jobs**: what it starts and what
waits after it make up what waited, and what it starts are the requests of the jobs it adds. -/
theorem dispatch_requests {s : Scheduler} (hv : s.queue.Valid) :
    (s.dispatch.1 ++ s.dispatch.2.queue.toList).Perm s.queue.toList ∧
      s.dispatch.2.active.map (·.request) = s.active.map (·.request) ++ s.dispatch.1 := by
  cases hp : s.paused with
  | true => simp [Scheduler.dispatch, hp]
  | false =>
    have hf := followsScan_dispatch hv hp
    refine ⟨?_, hf.active⟩
    rw [hf.starts]
    exact (hf.waiting.append_left _).trans (admitScan_perm _ _ _)

theorem dispatch_maxRetries (s : Scheduler) : s.dispatch.2.maxRetries = s.maxRetries := by
  unfold Scheduler.dispatch
  split
  · rfl
  · have h := takeQueued_maxRetries s.queue.size { s with workers := max s.workers s.limit } [] []
    rcases hT : takeQueued s.queue.size { s with workers := max s.workers s.limit } [] [] with
      ⟨t, started, deferred⟩
    rw [hT] at h
    obtain ⟨p, q, hs⟩ := settle_eq
      { t with queue := deferred.foldl (fun q r => (q.push r).2) t.queue,
               stats := { t.stats with dispatched := t.stats.dispatched + started.length } }
    simp only [hT, hs]
    exact h

/-! ### Requests and jobs told apart by their stamps -/

section HeldApart

variable {s : Scheduler}

theorem HeldApart.queue_nodup (h : s.HeldApart) : (s.queue.toList.map (·.submittedAt)).Nodup := by
  have hnd := h.apart
  rw [held, List.map_append] at hnd
  exact hnd.sublist (List.sublist_append_left _ _)

/-- A request waiting and an active job's carry different stamps. -/
theorem HeldApart.stamp_ne (h : s.HeldApart) {x : Request} (hx : x ∈ s.queue.toList) {j : Job}
    (hj : j ∈ s.active) : x.submittedAt ≠ j.request.submittedAt := by
  have hnd := h.apart
  rw [held, List.map_append, List.nodup_append] at hnd
  exact hnd.2.2 _ (List.mem_map_of_mem hx) _ (List.mem_map_of_mem (List.mem_map_of_mem hj))

/-- Active jobs with requests of one stamp are one job. -/
theorem HeldApart.active_eq (h : s.HeldApart) {j k : Job} (hj : j ∈ s.active) (hk : k ∈ s.active)
    (he : j.request.submittedAt = k.request.submittedAt) : j = k := by
  have hnd := h.apart
  rw [held, List.map_append, List.map_map] at hnd
  exact List.inj_on_of_nodup_map (hnd.sublist (List.sublist_append_right _ _)) hj hk he

end HeldApart

/-! ### Resolving the outcome of a live job -/

section Resolve

variable {s : Scheduler} {o : Outcome}

theorem resolve_ok (hl : s.isLive o.job = true) {b : Raster.Bitmap} (ho : o.result = .ok b) :
    s.resolve o = (.finished o.job.request b,
      { s with active := s.active.filter (·.id != o.job.id),
               stats := { s.stats with completed := s.stats.completed + 1 } }) := by
  unfold Scheduler.resolve
  rw [if_neg (by simp [hl])]
  split
  · rename_i b' hb
    rw [ho] at hb
    cases hb
    rfl
  · rename_i e he
    rw [ho] at he
    cases he

theorem resolve_error (hl : s.isLive o.job = true) {e : JobFailure} (ho : o.result = .error e) :
    s.resolve o = { s with active := s.active.filter (·.id != o.job.id) }.handleFailure o.job.request e := by
  unfold Scheduler.resolve
  rw [if_neg (by simp [hl])]
  split
  · rename_i b hb
    rw [ho] at hb
    cases hb
  · rename_i e' he
    rw [ho] at he
    cases he
    rfl

/-- Resolving an outcome keeps every request that waits. -/
theorem resolve_queue (o : Outcome) {x : Request} (hx : x ∈ s.queue.toList) :
    x ∈ (s.resolve o).2.queue.toList := by
  cases hl : s.isLive o.job with
  | true =>
    obtain ⟨-, -, rs, hp, -⟩ := resolve_live hl
    exact hp.mem_iff.2 (List.mem_append_right _ hx)
  | false =>
    have hq : (s.resolve o).2.queue = s.queue := by simp [Scheduler.resolve, hl]
    rw [hq]
    exact hx

theorem resolve_maxRetries (o : Outcome) : (s.resolve o).2.maxRetries = s.maxRetries := by
  obtain ⟨q, st, c, h⟩ := resolve_eq s o
  rw [h]

theorem resolve_finished (hl : s.isLive o.job = true) {b : Raster.Bitmap} (ho : o.result = .ok b) :
    (s.resolve o).1 = .finished o.job.request b := by
  rw [resolve_ok hl ho]

/-- **A live job's attempt that failed and may be retried is queued again**, stamped by the clock
advanced, when no request for the same work waits. -/
theorem resolve_retrying (hl : s.isLive o.job = true) {e : JobFailure} (ho : o.result = .error e)
    (hr : e.retryable = true ∧ o.job.request.retryCount < s.maxRetries)
    (hw : ∀ x ∈ s.queue.toList, x.sameWork o.job.request = false) :
    (s.resolve o).1 = .retrying (o.job.request.retried (s.clock + 1)) e ∧
      o.job.request.retried (s.clock + 1) ∈ (s.resolve o).2.queue.toList := by
  rw [resolve_error hl ho,
    @handleFailure_retried { s with active := s.active.filter (·.id != o.job.id) } _ _ hr hw]
  exact ⟨rfl, (Queue.toList_push_perm (by simpa using hw)).mem_iff.2 List.mem_cons_self⟩

theorem resolve_failed (hl : s.isLive o.job = true) {e : JobFailure} (ho : o.result = .error e)
    (hr : ¬(e.retryable = true ∧ o.job.request.retryCount < s.maxRetries)) :
    (s.resolve o).1 = .failed o.job.request e := by
  rw [resolve_error hl ho, @handleFailure_final { s with active := s.active.filter (·.id != o.job.id) } _ _ hr]

end Resolve

/-- A submission changes the queue and the counters only. -/
theorem submit_eq (s : Scheduler) (r : Request) :
    ∃ queue stats, (s.submit r).2 = { s with queue, stats } := by
  unfold Scheduler.submit
  split
  · exact ⟨s.queue, s.stats, rfl⟩
  · split
    · exact ⟨s.queue, s.stats, rfl⟩
    · exact ⟨_, _, rfl⟩

/-- A submission keeps every request that waits. -/
theorem submit_queue_mem (s : Scheduler) (r : Request) {x : Request} (hx : x ∈ s.queue.toList) :
    x ∈ (s.submit r).2.queue.toList := by
  rcases submit_queue s r with h | h <;> rw [h]
  · exact hx
  · exact Queue.mem_push_of_mem hx

end Scheduler

/-! ### Following a lineage along a run -/

open Scheduler

section Tracks

variable {m : Nat} {r₀ : Request} {s s' : Scheduler} {st : Option Nat × List Shown}

/-- **An event that keeps the work of the lineage's page** leaves the lineage where it is. -/
theorem Tracks.keep (h : Tracks m r₀ s st) (hm : s'.maxRetries = s.maxRetries)
    (hk : ∀ k ∈ s'.known, k ∈ s.known)
    (hq : ∀ x ∈ s.queue.toList, x.page = r₀.page → x ∈ s'.queue.toList)
    (ha : ∀ j ∈ s.active, j.request.page = r₀.page → j ∈ s'.active) : Tracks m r₀ s' st := by
  obtain ⟨hmr, σ, hl, hst, hh⟩ := h
  refine ⟨hm.trans hmr, σ, hl, hst, hh.frame hk (fun r hσ => ?_) fun j hj hσ => ?_⟩
  · subst hσ
    exact hq r hh.1 (hl.page.1 r rfl)
  · exact ha j hj (hl.page.2 _ hσ)

/-- An event that keeps the queue, the active jobs and the jobs known. -/
theorem Tracks.same (h : Tracks m r₀ s st) (hm : s'.maxRetries = s.maxRetries)
    (hq : s'.queue = s.queue) (ha : s'.active = s.active) (hk : s'.known = s.known) :
    Tracks m r₀ s' st :=
  h.keep hm (fun _ h => hk ▸ h) (fun _ h _ => hq ▸ h) fun _ h _ => ha ▸ h

/-- **A dispatch may start the lineage's request**, and starts no other request with its stamp. -/
theorem Tracks.dispatch (h : Tracks m r₀ s st) (hr : s.Reach) :
    Tracks m r₀ s.dispatch.2 ((s.dispatch.1.map .started).foldl follow st) := by
  obtain ⟨hmr, σ, hl, hst, hh⟩ := h
  have hm : s.dispatch.2.maxRetries = m := (dispatch_maxRetries s).trans hmr
  obtain ⟨hperm, hact⟩ := dispatch_requests hr.queue.valid
  have hd' : s.dispatch.2.HeldApart := hr.held_stamped .dispatch
  obtain ⟨hkeep, hadd⟩ := dispatch_adds s
  rcases st with ⟨t, sh⟩
  cases σ with
  | ended =>
    cases hst
    rw [foldl_follow_none]
    exact ⟨hm, .ended, hl, rfl, trivial⟩
  | waiting r =>
    cases hst
    obtain ⟨hrq, hfresh⟩ := hh
    rw [foldl_follow_started]
    by_cases hs : r ∈ s.dispatch.1
    · -- the request is started, as the one job with its stamp
      have hnd : (s.dispatch.1.map (·.submittedAt)).Nodup :=
        ((hperm.map _).nodup_iff.2 hr.held.queue_nodup).sublist
          ((List.sublist_append_left _ _).map _)
      rw [filter_stamp_eq hnd hs]
      obtain ⟨j, hj, hjr⟩ : ∃ j ∈ s.dispatch.2.active, j.request = r := by
        have : r ∈ s.dispatch.2.active.map (·.request) := by
          rw [hact]
          exact List.mem_append_right _ hs
        simpa using this
      refine ⟨hm, .running r, hl.start, rfl, j, hj, hjr, fun k hk he => ?_⟩
      rcases hadd k hk with hk | hk
      · exact absurd he (hfresh k hk)
      · exact hd'.active_eq hk hj (he.trans (congrArg _ hjr).symm)
    · -- the request waits still, and no job has its stamp
      have hnil : s.dispatch.1.filter (·.submittedAt = r.submittedAt) = [] :=
        List.filter_eq_nil_iff.2 fun x hx he => hs (by
          have hx' := hperm.subset (List.mem_append_left _ hx)
          have := List.inj_on_of_nodup_map hr.held.queue_nodup hx' hrq (by simpa using he)
          exact this ▸ hx)
      have hrq' : r ∈ s.dispatch.2.queue.toList := by
        rcases List.mem_append.1 (hperm.mem_iff.2 hrq) with h | h
        · exact absurd h hs
        · exact h
      rw [hnil, List.map_nil, List.append_nil]
      refine ⟨hm, .waiting r, hl, rfl, hrq', fun k hk he => ?_⟩
      rcases hadd k hk with hk | hk
      · exact hfresh k hk he
      · exact hd'.stamp_ne hrq' hk he.symm
  | running r =>
    cases hst
    obtain ⟨j, hj, rfl, hu⟩ := hh
    -- nothing started carries the stamp of an active job
    have hnil : s.dispatch.1.filter (·.submittedAt = j.request.submittedAt) = [] :=
      List.filter_eq_nil_iff.2 fun x hx he =>
        hr.held.stamp_ne (hperm.subset (List.mem_append_left _ hx)) hj (by simpa using he)
    rw [foldl_follow_started, hnil, List.map_nil, List.append_nil]
    refine ⟨hm, .running j.request, hl, rfl, j, hkeep j hj, rfl, fun k hk he => ?_⟩
    rcases hadd k hk with hk | hk
    · exact hu k hk he
    · exact hd'.active_eq hk (hkeep j hj) he

/-- **The lineage's own job resolved takes the policy's step**: a success ends the lineage, a
failure that may be retried queues its retry, stamped after every job known, and any other failure
ends it. The job is active, so no request for the same work waits and the retry is queued. -/
theorem Tracks.resolve_own {h : List Shown} {j : Job} (hl : Lineage m r₀ h (.running j.request))
    (hj : j ∈ s.active) (hmr : s.maxRetries = m) (hr : s.Reach) {o : Outcome} (hoj : o.job = j)
    (hq : s'.queue = (s.resolve o).2.queue) (hm : s'.maxRetries = s.maxRetries)
    (hk : ∀ k ∈ s'.known, k ∈ s.known) :
    Tracks m r₀ s' (follow (some j.request.submittedAt, h) (.resolved o (s.resolve o).1)) := by
  have hjr : o.job.request = j.request := by rw [hoj]
  have hlive : s.isLive o.job = true := (isLive_iff s _).2 (List.mem_map_of_mem (hoj ▸ hj))
  have hm' : s'.maxRetries = m := hm.trans hmr
  rw [follow_resolved_of_eq (by rw [hjr])]
  rcases hres : o.result with e | b
  · by_cases hre : e.retryable = true ∧ j.request.retryCount < m
    · have hw : ∀ x ∈ s.queue.toList, x.sameWork o.job.request = false := fun x hx =>
        hjr ▸ hr.held.work _ (List.mem_map_of_mem hj) x hx
      obtain ⟨hc, hin⟩ := resolve_retrying hlive hres (by rw [hjr, hmr]; exact hre) hw
      have hin' : j.request.retried (s.clock + 1) ∈ s'.queue.toList := by
        rw [hq, ← hjr]
        exact hin
      rw [hc, hjr]
      refine ⟨hm', .waiting (j.request.retried (s.clock + 1)), hl.retry _ hjr hres hre, rfl, hin',
        fun k hk' he => ?_⟩
      -- every job known was stamped by the clock, before the retry
      have := hr.known k (hk k hk')
      simp only [Request.retried] at he
      omega
    · rw [resolve_failed hlive hres (by rw [hjr, hmr]; exact hre), hjr]
      exact ⟨hm', .ended, hl.fail hjr hres hre, rfl, trivial⟩
  · rw [resolve_finished hlive hres, hjr]
    exact ⟨hm', .ended, hl.finish hjr hres, rfl, trivial⟩

/-- **Resolving an outcome keeps the lineage followed**, into any state that agrees with the
resolution on the queue, the active jobs and the retry limit and knows no new job: the lineage's
own job takes the policy's step, and another job leaves it where it is, its job still active. -/
theorem Tracks.resolve (h : Tracks m r₀ s st) (hr : s.Reach) {o : Outcome} (hok : o.job ∈ s.known)
    (hq : s'.queue = (s.resolve o).2.queue) (ha : s'.active = (s.resolve o).2.active)
    (hm : s'.maxRetries = s.maxRetries) (hk : ∀ k ∈ s'.known, k ∈ s.known) :
    Tracks m r₀ s' (follow st (.resolved o (s.resolve o).1)) := by
  obtain ⟨hmr, σ, hl, hst, hh⟩ := h
  rcases st with ⟨t, sh⟩
  cases σ with
  | ended =>
    cases hst
    exact ⟨hm.trans hmr, .ended, hl, rfl, trivial⟩
  | waiting r =>
    cases hst
    rw [follow_resolved_of_ne (hh.2 o.job hok)]
    refine ⟨hm.trans hmr, .waiting r, hl, rfl,
      hh.frame hk (fun _ he => ?_) fun _ _ he => by cases he⟩
    cases he
    rw [hq]
    exact resolve_queue o hh.1
  | running r =>
    cases hst
    obtain ⟨j, hj, rfl, hu⟩ := hh
    by_cases ht : o.job.request.submittedAt = j.request.submittedAt
    · exact Tracks.resolve_own hl hj hmr hr (hu o.job hok ht) hq hm hk
    · -- another job: the lineage's job stays active
      rw [follow_resolved_of_ne ht]
      refine ⟨hm.trans hmr, .running j.request, hl, rfl,
        Status.Holds.frame (s := s) ⟨j, hj, rfl, hu⟩ hk (fun _ he => by cases he)
          fun j' hj' he => ?_⟩
      have hj'j : j' = j := hr.held.active_eq hj' hj (by rw [Status.running.inj he])
      subst hj'j
      rw [ha, resolve_active]
      split
      · have hne : j'.id ≠ o.job.id := fun hid =>
          ht (by rw [hr.jobs.unique j' (mem_known.2 (.inl hj')) o.job hok hid])
        simpa [hne] using hj'
      · exact hj'

/-- A wait resolves the oldest outcome posted, if any, and keeps the lineage followed. -/
theorem Tracks.wait (h : Tracks m r₀ s st) (hr : s.Reach) :
    Tracks m r₀ s.waitCompletion.2 (((waitTrace s).map Shown.ofResolution).foldl follow st) := by
  rcases hpo : s.posted with _ | ⟨o, rest⟩
  · have hw : waitTrace s = [] := by simp [waitTrace, hpo]
    rw [hw, waitCompletion_nil hpo]
    exact h
  · have hw : waitTrace s = [(s, o, (s.resolve o).1)] := by
      simp [waitTrace, hpo, resolve_setPosted]
    -- the outcome was posted, so its job is known; the wait takes it from the posted ones
    have hok : o.job ∈ s.known := mem_known.2 (.inr (.inr (.inr ⟨o, by simp [hpo], rfl⟩)))
    have hk : ∀ k ∈ s.waitCompletion.2.known, k ∈ s.known := fun k hk' => by
      simpa using (waitCompletion_creates s).known k hk'
    rw [waitCompletion_eq hpo] at hk ⊢
    rw [hw]
    exact h.resolve hr hok rfl rfl (resolve_maxRetries o) hk

theorem Tracks.waits (h : Tracks m r₀ s st) (hr : s.Reach) (n : Nat) :
    Tracks m r₀ (waits n s).2 (((waits n s).1.map Shown.ofResolution).foldl follow st) := by
  induction n generalizing s st with
  | zero => exact h
  | succ n ih =>
    have h' := ih (h.wait hr) hr.waitCompletion
    simp only [waits, List.map_append, List.foldl_append]
    exact h'

/-- **Every event that spares the lineage's page keeps it followed.** -/
theorem Tracks.stamped (h : Tracks m r₀ s st) (hr : s.Reach) (op : Op)
    (hsp : op.Spares r₀.page) : Tracks m r₀ (op.stamped s) ((op.shows s).foldl follow st) := by
  cases op with
  | dispatch => exact h.dispatch hr
  | waitCompletion => exact h.wait hr
  | drainCompletions =>
    have h' := h.waits hr s.posted.length
    simpa only [Op.stamped, Op.step, Op.shows, Op.trace, drainCompletions_eq] using h'
  | submit r =>
    obtain ⟨q, st', he⟩ := submit_eq s.tick.2 { r with submittedAt := s.tick.1 }
    have hq := fun x (hx : x ∈ s.queue.toList) =>
      submit_queue_mem s.tick.2 { r with submittedAt := s.tick.1 } hx
    change Tracks m r₀ (s.tick.2.submit { r with submittedAt := s.tick.1 }).2 st
    rw [he] at hq ⊢
    exact h.keep rfl (fun _ h => h) (fun x hx _ => hq x hx) fun _ h _ => h
  | finish i result =>
    change Tracks m r₀ (Op.step (.finish i result) s).2 st
    simp only [Op.step]
    split
    · rename_i j hj
      obtain ⟨p, q, hs⟩ := settle_eq
        { s with running := s.running.filter (·.id != j.id), posted := s.posted ++ [⟨j, result⟩] }
      have hk := (post_creates (List.mem_of_getElem? hj) result).known
      simp only [List.not_mem_nil, or_false] at hk
      refine h.keep ?_ hk (fun x hx _ => ?_) fun j' hj' _ => ?_
      · simp only [post, hs]
      · simpa [post] using hx
      · simpa [post] using hj'
    · exact h
  | cancel page =>
    change Tracks m r₀ (s.cancel page).2 st
    have hk := (cancel_creates s page).known
    simp only [List.not_mem_nil, or_false] at hk
    refine h.keep rfl hk (fun x hx hp => ?_) fun j hj hp => ?_
    · have hne : x.page ≠ page := hp ▸ Ne.symm hsp
      simpa [Scheduler.cancel, Queue.toList_removeWhere, hne] using hx
    · have hne : j.request.page ≠ page := hp ▸ Ne.symm hsp
      simpa [Scheduler.cancel, hne] using hj
  | setPriority page priority =>
    change Tracks m r₀ (s.setPriority page priority).2 st
    refine h.keep rfl (fun _ h => h) (fun x hx hp => ?_) fun _ h _ => h
    have hne : x.page ≠ page := hp ▸ Ne.symm hsp
    refine (Queue.toList_setPriority_perm s.queue page priority).mem_iff.2
      (List.mem_map.2 ⟨x, hx, ?_⟩)
    simp [hne]
  | removeQueuedWhere f =>
    change Tracks m r₀ (s.removeQueuedWhere f).2 st
    refine h.keep rfl (fun _ h => h) (fun x hx hp => ?_) fun _ h _ => h
    simpa [Scheduler.removeQueuedWhere, Queue.toList_removeWhere, hsp x hp] using hx
  | adaptConcurrency =>
    change Tracks m r₀ s.adaptConcurrency.2 st
    unfold adaptConcurrency
    dsimp only
    split
    · exact h
    · split
      · exact h.same rfl rfl rfl rfl
      · split
        · exact h.same rfl rfl rfl rfl
        · exact h
  | clearQueue | stop | setMaxRetries _ => exact hsp.elim
  | tick | pause | resume | setMaxConcurrentJobs _ | setAdaptive _ => exact h.same rfl rfl rfl rfl

/-- **An accepted submission starts a lineage**, waiting, under the retry limit of the moment:
the request, stamped by the clock advanced, is queued after every job known was stamped. -/
theorem Tracks.submit (hr : s.Reach) (r : Request)
    (hq : (s.tick.2.submit { r with submittedAt := s.tick.1 }).1 = .queued) :
    Tracks s.maxRetries { r with submittedAt := s.clock + 1 } ((Op.submit r).stamped s)
      (some (s.clock + 1), []) := by
  obtain ⟨q, st', he⟩ := submit_eq s.tick.2 { r with submittedAt := s.tick.1 }
  have hs : s.tick.2.submit { r with submittedAt := s.tick.1 } =
      (.queued, (s.tick.2.submit { r with submittedAt := s.tick.1 }).2) := Prod.ext hq rfl
  have hin := (submit_queued hs).mem_iff.2 (List.mem_append_left _ (List.mem_singleton_self _))
  refine ⟨?_, .waiting _, .waiting _, rfl, hin, fun k hk hstamp => ?_⟩
  · change (s.tick.2.submit _).2.maxRetries = _
    rw [he]
    rfl
  · change k ∈ (s.tick.2.submit _).2.known at hk
    rw [he] at hk
    have := hr.known k hk
    simp only at hstamp
    omega

/-- A standing held in an idle state is the end. -/
theorem Status.Holds.eq_ended {σ : Status} (h : σ.Holds s) (hi : s.isIdle = true) :
    σ = .ended := by
  simp only [isIdle, Bool.and_eq_true, decide_eq_true_eq, List.isEmpty_iff] at hi
  cases σ with
  | waiting r =>
    have hl := List.length_pos_of_mem h.1
    rw [Queue.length_toList] at hl
    omega
  | running r =>
    obtain ⟨j, hj, -⟩ := h
    simp [hi.2] at hj
  | ended => rfl

/-- **A run whose every event spares the lineage's page keeps it followed.** -/
theorem Tracks.runStamped (h : Tracks m r₀ s st) (hr : s.Reach) (ops : List Op)
    (hsp : ∀ op ∈ ops, op.Spares r₀.page) :
    Tracks m r₀ (s.runStamped ops) ((s.showsStamped ops).foldl follow st) := by
  induction ops generalizing s st with
  | nil => exact h
  | cons op ops ih =>
    have h' := ih (h.stamped hr op (hsp op List.mem_cons_self)) (hr.stamped op)
      fun op' hop => hsp op' (List.mem_cons_of_mem _ hop)
    simp only [showsStamped, List.foldl_append]
    exact h'

end Tracks

/-! ### The counters of failures -/

/-- The failed attempts, retried or not, and the retries among completions. -/
def failureTally (cs : List Completion) : Nat × Nat :=
  (cs.countP (·.isFailure), cs.countP (·.isRetrying))

@[simp] theorem failureTally_nil : failureTally [] = 0 := rfl

theorem failureTally_append (a b : List Completion) :
    failureTally (a ++ b) = failureTally a + failureTally b := by
  simp [failureTally, List.countP_append]

/-- Retries and then a failure for good: each is a failed attempt, and the retries are retries. -/
theorem failureTally_retries {cs : List Completion} (hall : ∀ c ∈ cs, c.isRetrying = true)
    (rq : Request) (e : JobFailure) :
    failureTally (cs ++ [.failed rq e]) = (cs.length + 1, cs.length) := by
  have hf : ∀ c ∈ cs, c.isFailure = true := fun c hc => by
    have := hall c hc
    cases c <;> simp_all [Completion.isRetrying, Completion.isFailure]
  simp only [failureTally, List.countP_append, List.countP_eq_length.2 hf,
    List.countP_eq_length.2 hall]
  rfl

namespace Scheduler

/-- The failed attempts and the retries a scheduler has counted. -/
def failures (s : Scheduler) : Nat × Nat := (s.stats.failed, s.stats.retried)

theorem handleFailure_failures (s : Scheduler) (r : Request) (e : JobFailure) :
    (s.handleFailure r e).2.failures = s.failures + failureTally [(s.handleFailure r e).1] := by
  unfold handleFailure
  dsimp only
  split
  · rfl
  · simp only [tick]
    split <;> rfl

/-- **Resolving an outcome counts its completion**, if it is a failed attempt or a retry. -/
theorem resolve_failures (s : Scheduler) (o : Outcome) :
    (s.resolve o).2.failures = s.failures + failureTally [(s.resolve o).1] := by
  unfold Scheduler.resolve
  split
  · rfl
  · split
    · rfl
    · exact handleFailure_failures _ _ _

theorem waitCompletion_failures (s : Scheduler) :
    s.waitCompletion.2.failures = s.failures + failureTally ((waitTrace s).map (·.2.2)) := by
  rcases hp : s.posted with _ | ⟨o, rest⟩
  · simp [waitCompletion_nil hp, waitTrace, hp]
  · have hw : waitTrace s = [(s, o, (s.resolve o).1)] := by
      simp [waitTrace, hp, resolve_setPosted]
    rw [waitCompletion_eq hp, hw]
    exact resolve_failures s o

theorem waits_failures (n : Nat) (s : Scheduler) :
    (waits n s).2.failures = s.failures + failureTally ((waits n s).1.map (·.2.2)) := by
  induction n generalizing s with
  | zero => simp [waits]
  | succ n ih =>
    simp only [waits, List.map_append, failureTally_append, ih, waitCompletion_failures, add_assoc]

theorem dispatch_failures (s : Scheduler) : s.dispatch.2.failures = s.failures := by
  unfold Scheduler.dispatch
  split
  · rfl
  · rcases hT : takeQueued s.queue.size { s with workers := max s.workers s.limit } [] [] with
      ⟨t, started, deferred⟩
    have hs : t.stats = s.stats := by
      simpa [hT] using takeQueued_stats s.queue.size { s with workers := max s.workers s.limit } [] []
    simp only [hT, failures, settle_stats, hs]

/-- **Only resolving outcomes moves the counters of failures**, by the failed attempts and the
retries among the completions an event shows. -/
theorem Op.stamped_failures (op : Op) (s : Scheduler) :
    (op.stamped s).failures =
      s.failures + failureTally ((op.shows s).filterMap Shown.completion?) := by
  cases op with
  | dispatch =>
    have hnil : (s.dispatch.1.map Shown.started).filterMap Shown.completion? = [] := by
      simp [List.filterMap_map, Function.comp_def, Shown.completion?]
    simp only [Op.stamped, Op.step, Op.shows, hnil, failureTally_nil, add_zero]
    exact dispatch_failures s
  | waitCompletion =>
    simp only [Op.stamped, Op.step, Op.shows, Op.trace, filterMap_completion_ofResolution]
    exact waitCompletion_failures s
  | drainCompletions =>
    simp only [Op.stamped, Op.step, Op.shows, Op.trace, filterMap_completion_ofResolution,
      drainCompletions_eq]
    exact waits_failures _ s
  | submit r =>
    change (s.tick.2.submit { r with submittedAt := s.tick.1 }).2.failures = s.failures + 0
    unfold Scheduler.submit
    split
    · rfl
    · split <;> rfl
  | finish i result =>
    change (Op.step (.finish i result) s).2.failures = s.failures + 0
    simp only [Op.step]
    split
    · simp [failures, post]
    · rfl
  | stop =>
    change s.stop.2.failures = s.failures + 0
    simp [failures, Scheduler.stop]
  | adaptConcurrency =>
    change s.adaptConcurrency.2.failures = s.failures + 0
    unfold Scheduler.adaptConcurrency
    dsimp only
    split
    · rfl
    · split
      · rfl
      · split <;> rfl
  | tick | cancel _ | setPriority _ _ | clearQueue | removeQueuedWhere _ | pause | resume
  | setMaxConcurrentJobs _ | setMaxRetries _ | setAdaptive _ => rfl

/-- **The counters of failures over a run** grow by the failed attempts and the retries among the
completions the run shows. -/
theorem runStamped_failures (s : Scheduler) (ops : List Op) :
    (s.runStamped ops).failures =
      s.failures + failureTally ((s.showsStamped ops).filterMap Shown.completion?) := by
  induction ops generalizing s with
  | nil => simp [Scheduler.runStamped, showsStamped]
  | cons op ops ih =>
    change ((op.stamped s).runStamped ops).failures = _
    rw [ih, Op.stamped_failures, showsStamped, List.filterMap_append, failureTally_append,
      add_assoc]

/-! ### The retry bound -/

/-- **The retry bound.** In a run of an owner that stamps requests by the clock, from a new
scheduler, a request with no retry behind it and a 32-bit priority is submitted and queued, and
every later event spares its page. Follow its lineage along what the rest of the run shows, under
the retry limit `m` of the moment it was submitted:

* the lineage is a part of what the run shows, and the counters of failed attempts and of
  retries grow by those the run shows;
* a failure that may not be retried is resolved as a failure for good, and is the last thing the
  lineage shows;
* when the run ends idle and every attempt fails and may be retried, the request was dispatched
  `m + 1` times, and its completions are `m` retries, with retry counts `1, …, m` and the priority
  raised by the penalty each time, saturating at the largest 32-bit word, and then one failure for
  good: `m + 1` failed attempts and `m` retries.

A retry refused because the same work already waits never happens here. -/
theorem retry_bound (c : SchedulerConfig) (before after : List Op) (r : Request)
    (hr : r.retryCount = 0) (hp : i32Min ≤ r.priority)
    (hq : (((create c).runStamped before).tick.2.submit
      { r with submittedAt := ((create c).runStamped before).tick.1 }).1 = .queued)
    (hspare : ∀ op ∈ after, op.Spares r.page) :
    let s₀ := (create c).runStamped before
    let s₁ := (Op.submit r).stamped s₀
    let m := s₀.maxRetries
    let shown := s₁.showsStamped after
    let lineage := (shown.foldl follow (some (s₀.clock + 1), [])).2
    let s₂ := s₁.runStamped after
    lineage.Sublist shown ∧
      s₂.failures = s₁.failures + failureTally (shown.filterMap Shown.completion?) ∧
      (∀ o c e, .resolved o c ∈ lineage → o.result = .error e → e.retryable = false →
        c = .failed o.job.request e ∧ lineage.getLast? = some (.resolved o c)) ∧
      (s₂.isIdle = true → (∀ x ∈ lineage, x.retryableFailure = true) →
        lineage.countP Shown.isStarted = m + 1 ∧
        ∃ cs rq e, lineage.filterMap Shown.completion? = cs ++ [.failed rq e] ∧
          cs.length = m ∧ (∀ c ∈ cs, c.isRetrying = true) ∧
          cs.filterMap Completion.retryInfo? =
            (List.range m).map (fun i : Nat =>
              (i + 1, min i32Max (r.priority + retryPenalty * ((i : Int) + 1)))) ∧
          failureTally (lineage.filterMap Shown.completion?) = (m + 1, m)) := by
  intro s₀ s₁ m shown lineage s₂
  have hr₀ : s₀.Reach := reach_runStamped c before
  -- the submission starts the lineage, waiting, and every later event spares its page
  obtain ⟨-, σ, hl, -, hh⟩ :=
    (Tracks.submit hr₀ r hq).runStamped (hr₀.stamped (.submit r)) after hspare
  obtain ⟨l', hl', hlin⟩ := foldl_follow_sublist shown (some (s₀.clock + 1), [])
  refine ⟨?_, runStamped_failures s₁ after, fun o c e hx ho he => ?_, fun hidle hf => ?_⟩
  · have hl'' : lineage = l' := by simpa using hlin
    rw [hl'']
    exact hl'
  · obtain ⟨hc, hlast, -⟩ := hl.final_failure hx ho he
    exact ⟨hc, hlast⟩
  · -- an idle run has ended the lineage, and the policy gives its shape
    cases hh.eq_ended hidle
    obtain ⟨hn, cs, rq, e, hcs, hlen, hall, hinfo⟩ := hl.failing hf (by simp [hr])
    simp only [hr, Nat.sub_zero] at hn hlen hinfo
    refine ⟨hn, cs, rq, e, hcs, hlen, hall, ?_, ?_⟩
    · rw [hinfo]
      exact (retryPlan_eq m 0 hp).trans (by simp)
    · rw [hcs, failureTally_retries hall, hlen]

/-- A request submitted to a new scheduler allowed one retry, whose two attempts fail: it is
dispatched twice and retried once, with its priority raised by the penalty. -/
theorem retry_bound_of_two_attempts :
    let c : SchedulerConfig := { maxRetries := 1 }
    let r : Request := { page := 0, size := ⟨1, 1⟩, quality := 1, priority := 0, submittedAt := 0 }
    let after : List Op := [.dispatch, .finish 0 (.error (.workerPanicked "")), .waitCompletion,
      .dispatch, .finish 0 (.error (.workerPanicked "")), .waitCompletion]
    let s₁ := (Op.submit r).stamped (create c)
    let lineage := ((s₁.showsStamped after).foldl follow (some 1, [])).2
    (s₁.runStamped after).isIdle = true ∧ (∀ x ∈ lineage, x.retryableFailure = true) ∧
      lineage.countP Shown.isStarted = 2 := by
  intro c r after s₁ lineage
  have hidle : (s₁.runStamped after).isIdle = true := by decide
  have hf : ∀ x ∈ lineage, x.retryableFailure = true := by decide
  exact ⟨hidle, hf, ((retry_bound c [] after r rfl (by decide) (by decide)
    (by simp [after, Op.Spares])).2.2.2 hidle hf).1⟩

end Scheduler

end Schedule
end Thumbnailer
