import Thumbnailer.Proofs.Schedule.Pages
import Thumbnailer.Proofs.Schedule.QueueOrder

/-!
# Dispatching is one scan of the queue

`dispatch` pops requests while the active table has room, sets aside those whose page is busy,
and pushes those back at the end. Read as one pass over the waiting requests in queue order, it
is plainer (`admitScan`): while room is left, a request is started when its page has no active
job, counting the jobs started earlier in the pass, and every other request stays.

* The admission loop is that pass (`takeQueued_scans`, `dispatch_loop`): it starts the requests
  the pass starts, and what it set aside, followed by what it never popped, is what the pass
  leaves.
* The pass starts no more requests than there is room for (`length_admitScan_fst_le`), on pages
  pairwise distinct and free before it (`admitScan_pages`).
* The requests set aside come back under new sequence numbers, which can only reorder requests
  of equal priority and submission instant. When no two waiting requests tie so, the queue is
  sorted by those two alone (`pairwise_before`), before and after, and two lists holding the same
  requests sorted by a strict order are equal: every request left waits where it waited. Requests
  are stamped by a clock that moves between submissions, so such ties do not arise; with one, a
  request set aside would fall behind a request of equal rank that it preceded.

The main statement is `dispatch_follows_scan`; the proviso on ties is met in every state an
owner that stamps requests by the clock reaches (`ClockedRuns`).
-/

namespace Thumbnailer
namespace Schedule

/-- The admission pass over requests in queue order: while `room` is left, a request whose page
is not `busy` is started and its page becomes busy; a request of a busy page stays. Answers the
requests started and the requests that stay, both in queue order. -/
def admitScan (busy : List Nat) : Nat → List Request → List Request × List Request
  | 0, rs => ([], rs)
  | _ + 1, [] => ([], [])
  | room + 1, r :: rs =>
    if r.page ∈ busy then
      let rest := admitScan busy (room + 1) rs
      (rest.1, r :: rest.2)
    else
      let rest := admitScan (busy ++ [r.page]) room rs
      (r :: rest.1, rest.2)

@[simp] theorem admitScan_zero (busy : List Nat) (rs : List Request) :
    admitScan busy 0 rs = ([], rs) := by
  cases rs <;> rfl

@[simp] theorem admitScan_nil (busy : List Nat) (room : Nat) : admitScan busy room [] = ([], []) := by
  cases room <;> rfl

theorem admitScan_busy {busy : List Nat} {room : Nat} {r : Request} {rs : List Request}
    (h : r.page ∈ busy) :
    admitScan busy (room + 1) (r :: rs) =
      ((admitScan busy (room + 1) rs).1, r :: (admitScan busy (room + 1) rs).2) := by
  simp [admitScan, h]

theorem admitScan_free {busy : List Nat} {room : Nat} {r : Request} {rs : List Request}
    (h : r.page ∉ busy) :
    admitScan busy (room + 1) (r :: rs) =
      (r :: (admitScan (busy ++ [r.page]) room rs).1, (admitScan (busy ++ [r.page]) room rs).2) := by
  simp [admitScan, h]

/-- The pass starts no more requests than there is room for. -/
theorem length_admitScan_fst_le (busy : List Nat) (room : Nat) (rs : List Request) :
    (admitScan busy room rs).1.length ≤ room := by
  fun_induction admitScan busy room rs with
  | case1 => simp
  | case2 => simp
  | case3 _ _ _ _ _ _ ih => exact ih
  | case4 _ _ _ _ _ rest ih =>
    simp only [rest, List.length_cons]
    omega

/-- The pass starts requests on pages that were not busy, one request per page. -/
theorem admitScan_pages (busy : List Nat) (room : Nat) (rs : List Request) :
    ((admitScan busy room rs).1.map (·.page)).Nodup ∧
      ∀ r ∈ (admitScan busy room rs).1, r.page ∉ busy := by
  fun_induction admitScan busy room rs with
  | case1 => simp
  | case2 => simp
  | case3 _ _ _ _ _ _ ih => exact ih
  | case4 busy room r rs hfree _ ih =>
    -- the pages started after `r` avoid `r.page`, which joined the busy ones
    obtain ⟨hnodup, hout⟩ := ih
    have hr : r.page ∉ (admitScan (busy ++ [r.page]) room rs).1.map (·.page) := fun hm => by
      obtain ⟨x, hx, hp⟩ := List.mem_map.1 hm
      exact hout x hx (by simp [hp])
    refine ⟨List.nodup_cons.2 ⟨hr, hnodup⟩, fun x hx => ?_⟩
    rcases List.mem_cons.1 hx with rfl | hx
    · exact hfree
    · exact fun hb => hout x hx (List.mem_append_left _ hb)

/-- The requests the pass leaves keep their order. -/
theorem admitScan_snd_sublist (busy : List Nat) (room : Nat) (rs : List Request) :
    (admitScan busy room rs).2.Sublist rs := by
  fun_induction admitScan busy room rs with
  | case1 => exact List.Sublist.refl _
  | case2 => exact List.Sublist.refl _
  | case3 _ _ r _ _ _ ih => exact ih.cons_cons r
  | case4 _ _ r _ _ _ ih => exact ih.cons r

/-! ### Ranks without ties -/

/-- A request's priority and submission instant: the rank it has before any sequence number. -/
def Request.urgency (r : Request) : Int × Nat := (r.priority, r.submittedAt)

/-- `a` is more urgent than `b`: a lower priority, or the same and an earlier submission. -/
def Request.Before (a b : Request) : Prop :=
  a.priority < b.priority ∨ (a.priority = b.priority ∧ a.submittedAt < b.submittedAt)

theorem Request.Before.asymm {a b : Request} (h : a.Before b) : ¬ b.Before a := by
  unfold Request.Before at *
  omega

/-- No two waiting requests have the same priority and submission instant. -/
def Queue.NoTies (qu : Queue) : Prop := (qu.toList.map Request.urgency).Nodup

/-- Between entries of different urgency, the sequence numbers decide nothing. -/
theorem Queued.before_of_precedes {x y : Queued} (h : x.Precedes y)
    (hne : x.request.urgency ≠ y.request.urgency) : x.request.Before y.request := by
  unfold Queued.Precedes at h
  unfold Request.Before
  rcases h with h | ⟨hp, h | ⟨hs, -⟩⟩
  · exact .inl h
  · exact .inr ⟨hp, h⟩
  · exact absurd (by simp [Request.urgency, hp, hs]) hne

/-- **Entries sorted by rank with no tie are sorted by urgency alone.** -/
theorem pairwise_before {l : List Queued} (hs : l.Pairwise Queued.Precedes)
    (hn : ((l.map (·.request)).map Request.urgency).Nodup) :
    (l.map (·.request)).Pairwise Request.Before := by
  rw [List.map_map] at hn
  rw [List.pairwise_map]
  exact (hs.and (List.pairwise_map.1 hn)).imp fun h => Queued.before_of_precedes h.1 h.2

/-- Two lists holding the same requests, each sorted by urgency, are one list. -/
theorem eq_of_perm_of_before {l₁ l₂ : List Request} (hp : l₁.Perm l₂)
    (h₁ : l₁.Pairwise Request.Before) (h₂ : l₂.Pairwise Request.Before) : l₁ = l₂ :=
  hp.eq_of_pairwise (fun _ _ _ _ hab hba => absurd hba hab.asymm) h₁ h₂

namespace Queue

theorem toList_of_pop_none {qu q : Queue} (h : qu.pop = (none, q)) : qu.toList = [] := by
  unfold pop at h
  split at h
  · rename_i hx
    simp [toList, hx]
  · simp at h

theorem Valid.foldl_push {qu : Queue} (hv : qu.Valid) (ds : List Request) :
    (ds.foldl (fun q r => (q.push r).2) qu).Valid := by
  induction ds generalizing qu with
  | nil => exact hv
  | cons d ds ih => exact ih (hv.push d)

end Queue

namespace Scheduler

/-- The pass `dispatch` makes over `s`: over the waiting requests in queue order, from the pages
of the active jobs, with the room the concurrency limit leaves. -/
def scan (s : Scheduler) : List Request × List Request :=
  admitScan (s.active.map (·.request.page)) (s.limit - s.active.length) s.queue.toList

/-! ### The admission loop -/

theorem scan_of_nil {s : Scheduler} (h : s.queue.toList = []) : s.scan = ([], s.queue.toList) := by
  simp [scan, h]

theorem scan_of_full {s : Scheduler} (h : ¬ s.active.length < s.limit) :
    s.scan = ([], s.queue.toList) := by
  have hroom : s.limit - s.active.length = 0 := by omega
  simp [scan, hroom]

/-- What the admission loop has done since `s₀`, read against the pass: the pass over `s₀` is
what has been started and set aside, followed by the pass over what waits now. -/
structure Scans (s₀ s : Scheduler) (started deferred : List Request) : Prop where
  started : s₀.scan.1 = started ++ s.scan.1
  left : s₀.scan.2 = deferred ++ s.scan.2

theorem Scans.init (s : Scheduler) : Scans s s [] [] :=
  ⟨rfl, rfl⟩

/-- A request whose page is busy is left by the pass, and set aside by the loop. -/
theorem Scans.defer {s₀ s : Scheduler} {started deferred : List Request}
    (h : Scans s₀ s started deferred) {r : Request} {q : Queue} (hroom : s.active.length < s.limit)
    (hpop : s.queue.pop = (some r, q)) (hbusy : s.hasActive r.page = true) :
    Scans s₀ { s with queue := q } started (deferred ++ [r]) := by
  obtain ⟨k, hk⟩ : ∃ k, s.limit - s.active.length = k + 1 :=
    ⟨s.limit - s.active.length - 1, by omega⟩
  have hs : s.scan =
      (({ s with queue := q } : Scheduler).scan.1, r :: ({ s with queue := q } : Scheduler).scan.2) := by
    simp only [scan, Queue.toList_pop hpop, hk, admitScan_busy ((hasActive_iff s _).1 hbusy)]
  constructor
  · rw [h.started, hs]
  · rw [h.left, hs, List.append_assoc, List.singleton_append]

/-- A request whose page is free is started by the pass, and by the loop as the next job. -/
theorem Scans.start {s₀ s : Scheduler} {started deferred : List Request}
    (h : Scans s₀ s started deferred) {r : Request} {q : Queue} (hroom : s.active.length < s.limit)
    (hpop : s.queue.pop = (some r, q)) (hfree : ¬ s.hasActive r.page = true) :
    Scans s₀ { s with queue := q, nextId := s.nextId + 1, pending := s.pending ++ [⟨s.nextId, r⟩],
                      active := s.active ++ [⟨s.nextId, r⟩] } (started ++ [r]) deferred := by
  obtain ⟨k, hk⟩ : ∃ k, s.limit - s.active.length = k + 1 :=
    ⟨s.limit - s.active.length - 1, by omega⟩
  have hk' : s.limit - (s.active.length + 1) = k := by omega
  have hb : r.page ∉ s.active.map (·.request.page) := fun hm => hfree ((hasActive_iff s _).2 hm)
  constructor
  · rw [h.started]
    simp [scan, Queue.toList_pop hpop, hk, hk', admitScan_free hb]
  · rw [h.left]
    simp [scan, Queue.toList_pop hpop, hk, hk', admitScan_free hb]

theorem Queue.size_pop {qu q : Queue} {r : Request} (h : qu.pop = (some r, q)) :
    qu.size = q.size + 1 := by
  have := congrArg List.length (Queue.toList_pop h)
  simpa only [Queue.length_toList, List.length_cons] using this

/-- **The admission loop is the pass.** Given a round for each waiting request, the loop ends
where the pass over what still waits starts nothing and leaves everything. -/
theorem takeQueued_scans {s₀ : Scheduler} (fuel : Nat) (s : Scheduler)
    (started deferred : List Request) (h : Scans s₀ s started deferred)
    (hfuel : s.queue.size ≤ fuel) :
    Scans s₀ (takeQueued fuel s started deferred).1 (takeQueued fuel s started deferred).2.1
        (takeQueued fuel s started deferred).2.2 ∧
      (takeQueued fuel s started deferred).1.scan =
        ([], (takeQueued fuel s started deferred).1.queue.toList) := by
  fun_induction takeQueued fuel s started deferred with
  | case1 s _ _ =>
    -- no round left, so nothing waits
    refine ⟨h, scan_of_nil (List.eq_nil_of_length_eq_zero ?_)⟩
    rw [Queue.length_toList]
    exact Nat.le_zero.1 hfuel
  | case2 _ _ _ _ _ _ hpop => exact ⟨h, scan_of_nil (Queue.toList_of_pop_none hpop)⟩
  | case3 _ _ _ _ hroom _ q hpop _ hbusy ih =>
    exact ih (h.defer hroom hpop hbusy) (show q.size ≤ _ by have := Queue.size_pop hpop; omega)
  | case4 _ _ _ _ hroom _ q hpop _ hfree _ ih =>
    exact ih (h.start hroom hpop hfree) (show q.size ≤ _ by have := Queue.size_pop hpop; omega)
  | case5 _ _ _ _ hfull => exact ⟨h, scan_of_full hfull⟩

/-- The loop only pops, so the queue it leaves is as well formed as the one it found. -/
theorem takeQueued_valid (fuel : Nat) (s : Scheduler) (started deferred : List Request)
    (hv : s.queue.Valid) : (takeQueued fuel s started deferred).1.queue.Valid := by
  fun_induction takeQueued fuel s started deferred with
  | case1 => exact hv
  | case2 => exact hv
  | case3 _ _ _ _ _ _ _ hpop _ _ ih => exact ih (by simpa [hpop] using hv.pop)
  | case4 _ _ _ _ _ _ _ hpop _ _ _ ih => exact ih (by simpa [hpop] using hv.pop)
  | case5 => exact hv

/-! ### Dispatching -/

/-- Dispatching runs the admission loop with the pool grown to the limit, pushes back what the
loop set aside, and lets free workers pick up the new jobs. -/
theorem dispatch_of_running {s : Scheduler} (hp : s.paused = false) :
    ∃ t started deferred,
      takeQueued s.queue.size { s with workers := max s.workers s.limit } [] [] =
        (t, started, deferred) ∧
      s.dispatch.1 = started ∧ s.dispatch.2.active = t.active ∧
      s.dispatch.2.queue = deferred.foldl (fun q r => (q.push r).2) t.queue := by
  unfold dispatch
  rw [if_neg (by simp [hp])]
  dsimp only
  rcases takeQueued s.queue.size { s with workers := max s.workers s.limit } [] [] with
    ⟨t, started, deferred⟩
  exact ⟨t, started, deferred, rfl, rfl, settle_active _, settle_queue _⟩

/-- **The loop `dispatch` runs is the pass.** It starts what the pass starts, as new active
jobs after the old ones, and pushes back, onto the well-formed queue it leaves, the requests it
popped that the pass leaves. -/
theorem dispatch_loop {s : Scheduler} (hv : s.queue.Valid) (hp : s.paused = false) :
    ∃ (t : Queue) (deferred : List Request),
      s.dispatch.1 = s.scan.1 ∧ s.scan.2 = deferred ++ t.toList ∧ t.Valid ∧
      s.dispatch.2.active.map (·.request) = s.active.map (·.request) ++ s.dispatch.1 ∧
      s.dispatch.2.queue = deferred.foldl (fun q r => (q.push r).2) t := by
  obtain ⟨t, started, deferred, hT, h1, h2, h3⟩ := dispatch_of_running hp
  have hsc := takeQueued_scans s.queue.size { s with workers := max s.workers s.limit } [] []
    (Scans.init _) le_rfl
  have hS := takeQueued_starts s.queue.size { s with workers := max s.workers s.limit } [] []
    (Starts.init _)
  have hvt := takeQueued_valid s.queue.size { s with workers := max s.workers s.limit } [] [] hv
  rw [hT] at hsc hS hvt
  obtain ⟨⟨hstarted, hleft⟩, hend⟩ := hsc
  rw [hend] at hstarted hleft
  simp only [List.append_nil] at hstarted hleft
  -- growing the pool changes nothing the pass reads
  change s.scan.1 = started at hstarted
  change s.scan.2 = deferred ++ t.queue.toList at hleft
  refine ⟨t.queue, deferred, h1.trans hstarted.symm, hleft, hvt, ?_, h3⟩
  rw [h2, h1]
  exact hS.active

/-- What a dispatch from `s` that hands out `started` and leaves `s'` does, read against the
admission pass over `s`. -/
structure FollowsScan (s : Scheduler) (started : List Request) (s' : Scheduler) : Prop where
  /-- The requests started are those the pass starts, in its order. -/
  starts : started = s.scan.1
  /-- They become active jobs, after the jobs active before. -/
  active : s'.active.map (·.request) = s.active.map (·.request) ++ started
  /-- One request per page is started, on a page that had no active job. -/
  pages : (started.map (·.page)).Nodup
  fresh : ∀ r ∈ started, r.page ∉ s.active.map (·.request.page)
  /-- The active table grows only up to the limit. -/
  bounded : s'.active.length ≤ max s.limit s.active.length
  /-- Every request the pass leaves still waits, unchanged. -/
  waiting : s'.queue.toList.Perm s.scan.2
  valid : s'.queue.Valid

theorem followsScan_dispatch {s : Scheduler} (hv : s.queue.Valid) (hp : s.paused = false) :
    FollowsScan s s.dispatch.1 s.dispatch.2 := by
  obtain ⟨t, deferred, h1, hleft, hvt, hact, hq⟩ := dispatch_loop hv hp
  have hsub : (deferred ++ t.toList).Sublist s.queue.toList := hleft ▸ admitScan_snd_sublist _ _ _
  -- what was set aside is distinct work from what still waits, so every push back is accepted
  have hd : DistinctWork (t.toList ++ deferred) :=
    (hv.distinct.sublist hsub).perm List.perm_append_comm
  have hroom : s.dispatch.1.length ≤ s.limit - s.active.length :=
    h1 ▸ length_admitScan_fst_le _ _ _
  have hlen := congrArg List.length hact
  simp only [List.length_map, List.length_append] at hlen
  refine ⟨h1, hact, h1 ▸ (admitScan_pages _ _ _).1, h1 ▸ (admitScan_pages _ _ _).2, by omega, ?_,
    hq ▸ hvt.foldl_push deferred⟩
  rw [hq, hleft]
  exact (Queue.foldl_push_perm _ _ hd).trans List.perm_append_comm

/-- **Without ties, the requests left wait in the order they had.** Both the queue left and the
requests the pass leaves are then sorted by urgency alone, and they hold the same requests. -/
theorem FollowsScan.toList_eq {s s' : Scheduler} {started : List Request}
    (h : FollowsScan s started s') (hv : s.queue.Valid) (hnt : s.queue.NoTies) :
    s'.queue.toList = s.scan.2 := by
  have hn : (s.scan.2.map Request.urgency).Nodup :=
    hnt.sublist ((admitScan_snd_sublist _ _ _).map _)
  refine eq_of_perm_of_before h.waiting ?_ ?_
  · exact pairwise_before h.valid.sorted ((h.waiting.map _).nodup_iff.2 hn)
  · exact (pairwise_before hv.sorted hnt).sublist (admitScan_snd_sublist _ _ _)

/-- **Dispatching agrees with the admission pass.** Paused, it does nothing. Otherwise it does
what the pass over the queue, taken in rank order, does (`FollowsScan`); and when no two waiting
requests tie in priority and submission instant, the requests left wait in the order they had,
so later pops return them in that order. -/
theorem dispatch_follows_scan (s : Scheduler) (hv : s.queue.Valid) :
    (s.paused = true → s.dispatch = ([], s)) ∧
      (s.paused = false → FollowsScan s s.dispatch.1 s.dispatch.2 ∧
        (s.queue.NoTies → s.dispatch.2.queue.toList = s.scan.2)) :=
  ⟨fun hp => by simp [dispatch, hp],
    fun hp => ⟨followsScan_dispatch hv hp,
      fun hnt => (followsScan_dispatch hv hp).toList_eq hv hnt⟩⟩

/- Room for two more jobs beside the one on page 0: the request for page 0 waits for its page,
the first for page 1 starts, the second for page 1 waits for the job just started, the one for
page 2 starts and fills the table, and the one for page 3 is never looked at. The three left
wait in the order they had. -/
example :
    let req := fun (page side t : Nat) =>
      ({ page, size := ⟨side, side⟩, quality := 1, priority := 0, submittedAt := t } : Request)
    let s : Scheduler := { create {} with
      limit := 3
      active := [⟨1, req 0 32 0⟩]
      queue := Queue.run {} [.push (req 0 64 1), .push (req 1 64 2), .push (req 1 32 3),
        .push (req 2 64 4), .push (req 3 64 5)] }
    s.dispatch.1.map (·.page) = [1, 2] ∧ s.dispatch.2.queue.toList.map (·.page) = [0, 1, 3] := by
  intro req s
  have hv : s.queue.Valid := Queue.valid_run _
  have hnt : s.queue.NoTies := by
    unfold Queue.NoTies
    decide
  obtain ⟨h, hord⟩ := (dispatch_follows_scan s hv).2 rfl
  constructor
  · rw [h.starts]
    decide
  · rw [hord hnt]
    decide

end Scheduler

end Schedule
end Thumbnailer
