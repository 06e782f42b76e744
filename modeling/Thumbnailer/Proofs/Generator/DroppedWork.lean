import Thumbnailer.Proofs.Generator.Announcements

/-!
# Dropping work settles each page once

Three calls drop work the scheduler holds: `clearQueue` drops every waiting request, `stop` every
waiting request and every active job, and a new default size the requests waiting at the old
size, whatever options made them. Each then releases the pages that lost a request, each page
once (`releaseQueued`): a page with a request still waiting is left alone, one with a job still
active goes back to rendering, and any other is cancelled and announced.

Releasing a page does that only when the page table lets it move, and it does: in a state a
generator reaches, a page that had work is queued or rendering (`StatesAgree`), and from either
state the machine allows both moves (`releasePage_pending`). The pages are released in turn, no
page twice (`nodup_eraseDups`), so each ends as `SettlesDropped` says and the events sent are one
cancellation for each page left with no work (`foldl_releasePage`, `releaseQueued_settles`).

The main statement is `dropping_work_settles_pages`; a new size that is empty or the old one
changes nothing.
-/

namespace Thumbnailer
namespace Generator

open Schedule Render Page Config

/-- Removing duplicates leaves no element twice (the library has only `List.mem_eraseDups`). -/
theorem nodup_eraseDups {α : Type} [BEq α] [LawfulBEq α] : ∀ (l : List α), l.eraseDups.Nodup
  | [] => by simp
  | a :: l => by
    rw [List.eraseDups_cons, List.nodup_cons]
    refine ⟨fun h => ?_, nodup_eraseDups (l.filter fun b => !b == a)⟩
    simpa using List.mem_eraseDups.1 h
termination_by l => l.length
decreasing_by exact Nat.lt_succ_of_le (List.length_filter_le _ _)

namespace Event

/-- Whether the event announces the cancellation of `page`. -/
def cancels (page : Nat) : Event → Bool
  | .cancelled p => p == page
  | _ => false

end Event

namespace Engine

/-! ### What settling the pages means -/

/-- **How dropping work settles the pages.** From `g` to `g'`, where the pages `lost` lost a
request: a page that lost nothing, or still has a request waiting, keeps its state; one left with
an active job only is rendering; one left with no work is cancelled. The events sent meanwhile
announce the cancellation of each page left with no work, once, and of no other page. -/
structure SettlesDropped (g : Engine) (lost : List Nat) (g' : Engine) : Prop where
  kept : ∀ p, p ∉ lost ∨ g'.scheduler.isQueued p = true → g'.pageState p = g.pageState p
  rendering : ∀ p ∈ lost, g'.scheduler.isQueued p = false →
    g'.scheduler.hasActive p = true → g'.pageState p = .rendering
  cancelled : ∀ p ∈ lost, g'.scheduler.isQueued p = false →
    g'.scheduler.hasActive p = false → g'.pageState p = .cancelled
  announced : ∃ evs : List Event, g'.bus = evs.foldl Bus.emit g.bus ∧ ∀ p,
    (evs.filter (·.cancels p)).length =
      if p ∈ lost ∧ g'.scheduler.isQueued p = false ∧ g'.scheduler.hasActive p = false
      then 1 else 0

/-- Settling reads only the page states and the bus of the state it starts from, and only whether
a page lost work. -/
theorem SettlesDropped.congr {g₀ g g' : Engine} {lost lost' : List Nat}
    (h : SettlesDropped g₀ lost g') (hst : ∀ p, g₀.pageState p = g.pageState p)
    (hb : g₀.bus = g.bus) (hlost : ∀ p, p ∈ lost ↔ p ∈ lost') :
    SettlesDropped g lost' g' where
  kept p hp := by
    rw [← hst]
    exact h.kept p (by rwa [hlost])
  rendering p hp := h.rendering p ((hlost p).2 hp)
  cancelled p hp := h.cancelled p ((hlost p).2 hp)
  announced := by
    obtain ⟨evs, hbus, hcount⟩ := h.announced
    refine ⟨evs, hb ▸ hbus, fun p => ?_⟩
    simp only [hcount, hlost]

/-- An event that cancels nothing, sent after settling, leaves the settlement as it was. -/
theorem SettlesDropped.emit {g g' : Engine} {lost : List Nat} (h : SettlesDropped g lost g')
    (e : Event) (he : ∀ p, e.cancels p = false) : SettlesDropped g lost (g'.emit e) where
  kept := h.kept
  rendering := h.rendering
  cancelled := h.cancelled
  announced := by
    obtain ⟨evs, hbus, hcount⟩ := h.announced
    refine ⟨evs ++ [e], by rw [List.foldl_append, ← hbus]; rfl, fun p => ?_⟩
    rw [List.filter_append, List.length_append, hcount, List.filter_singleton, he p]
    rfl

/-! ### Releasing pages -/

/-- A pending page released with no request left is rendering while its job is active, and
cancelled otherwise. -/
theorem releaseState_pending {st : PageState} (h : st.isPending = true) :
    releaseState st false true = .rendering ∧ releaseState st false false = .cancelled := by
  revert h
  cases st <;> decide

/-- **Releasing a pending page**: left alone while a request for it waits, rendering while a job
is active, cancelled and announced otherwise. -/
theorem releasePage_pending {g : Engine} {page : Nat}
    (h : (g.pageState page).isPending = true) :
    g.releasePage page =
      if g.scheduler.isQueued page then g
      else if g.scheduler.hasActive page then g.moveTo page .rendering
      else (g.moveTo page .cancelled).emit (.cancelled page) := by
  unfold releasePage
  split
  · rfl
  · split
    · rfl
    · rw [transition_eq, transition_cancelled h]

/-- **Releasing distinct pending pages one by one.** The scheduler stays; each page released
takes its release state; the events sent are the cancellations of the pages with no work left,
in order. -/
theorem foldl_releasePage {g : Engine} {pages : List Nat} (hnd : pages.Nodup)
    (hpend : ∀ p ∈ pages, (g.pageState p).isPending = true) :
    (pages.foldl releasePage g).scheduler = g.scheduler ∧
      (∀ q, (pages.foldl releasePage g).pageState q =
        if q ∈ pages then
          releaseState (g.pageState q) (g.scheduler.isQueued q) (g.scheduler.hasActive q)
        else g.pageState q) ∧
      (pages.foldl releasePage g).bus =
        ((pages.filter fun p => !g.scheduler.isQueued p && !g.scheduler.hasActive p).map
          Event.cancelled).foldl Bus.emit g.bus := by
  induction pages generalizing g with
  | nil => exact ⟨rfl, fun q => by simp, rfl⟩
  | cons p ps ih =>
    rw [List.nodup_cons] at hnd
    have hrel := releasePage_pending (hpend p List.mem_cons_self)
    have hst := pageState_releasePage g p
    -- the pages left are still pending after releasing `p`
    have hpend' : ∀ q ∈ ps, ((g.releasePage p).pageState q).isPending = true := fun q hq => by
      rw [hst, if_neg (fun (he : q = p) => hnd.1 (he ▸ hq))]
      exact hpend q (List.mem_cons_of_mem _ hq)
    obtain ⟨hs, hstate, hbus⟩ := ih hnd.2 hpend'
    rw [releasePage_scheduler] at hstate hbus
    refine ⟨by rw [List.foldl_cons, hs, releasePage_scheduler], fun q => ?_, ?_⟩
    · rw [List.foldl_cons, hstate, hst]
      by_cases hq : q = p
      · subst hq
        simp [hnd.1]
      · by_cases hqs : q ∈ ps <;> simp [hq, hqs]
    · rw [List.foldl_cons, hbus, hrel]
      by_cases hq : g.scheduler.isQueued p = true
      · simp [hq]
      · by_cases ha : g.scheduler.hasActive p = true
        · simp [hq, ha]
          rfl
        · simp only [Bool.not_eq_true] at hq ha
          simp [hq, ha]
          rfl

/-- The cancellations of distinct pages announce each of them once. -/
theorem length_filter_cancels {pages : List Nat} (hnd : pages.Nodup) (p : Nat) :
    ((pages.map Event.cancelled).filter (·.cancels p)).length = if p ∈ pages then 1 else 0 := by
  rw [List.filter_map, List.length_map]
  refine Eq.trans ?_ (List.Nodup.count hnd : pages.count p = _)
  rw [List.count_eq_length_filter]
  rfl

/-- **Releasing the pages of the requests removed settles them**, when each of those pages is
queued or rendering: the pages are taken once each, in page order. -/
theorem releaseQueued_settles {g : Engine} {removed : List Schedule.Request}
    (hpend : ∀ r ∈ removed, (g.pageState r.page).isPending = true) :
    SettlesDropped g (removed.map (·.page)) (g.releaseQueued removed) := by
  unfold releaseQueued
  have hmem : ∀ p, p ∈ ((removed.map (·.page)).mergeSort (· ≤ ·)).eraseDups ↔
      p ∈ removed.map (·.page) := fun p => by rw [List.mem_eraseDups, List.mem_mergeSort]
  have hnd := nodup_eraseDups ((removed.map (·.page)).mergeSort (· ≤ ·))
  generalize ((removed.map (·.page)).mergeSort (· ≤ ·)).eraseDups = pages at hmem hnd
  have hpend' : ∀ p ∈ pages, (g.pageState p).isPending = true := fun p hp => by
    obtain ⟨r, hr, rfl⟩ := List.mem_map.1 ((hmem p).1 hp)
    exact hpend r hr
  obtain ⟨hs, hstate, hbus⟩ := foldl_releasePage hnd hpend'
  refine ⟨fun p hp => ?_, fun p hp hq ha => ?_, fun p hp hq ha => ?_, ?_⟩
  · rw [hs] at hp
    rw [hstate]
    rcases hp with hp | hq
    · rw [if_neg (fun h => hp ((hmem p).1 h))]
    · split
      · simp [releaseState, hq]
      · rfl
  · rw [hs] at hq ha
    rw [hstate, if_pos ((hmem p).2 hp), hq, ha]
    exact (releaseState_pending (hpend' p ((hmem p).2 hp))).1
  · rw [hs] at hq ha
    rw [hstate, if_pos ((hmem p).2 hp), hq, ha]
    exact (releaseState_pending (hpend' p ((hmem p).2 hp))).2
  · refine ⟨_, hbus, fun p => ?_⟩
    simp only [length_filter_cancels (hnd.filter _), List.mem_filter, hs, hmem]
    simp

/-! ### The three calls -/

/-- Dropping the waiting requests that `f` picks and releasing their pages settles those pages,
when the page table agrees with the scheduler: each of them had a request waiting, so it is
queued or rendering. -/
theorem removeQueued_settles {g : Engine} (h : g.StatesAgree) (f : Schedule.Request → Bool) :
    SettlesDropped g ((g.scheduler.queue.toList.filter f).map (·.page))
      ({ g with scheduler := (g.scheduler.removeQueuedWhere f).2 }.releaseQueued
        (g.scheduler.removeQueuedWhere f).1) := by
  rw [Scheduler.removeQueuedWhere_fst]
  refine (@releaseQueued_settles { g with scheduler := (g.scheduler.removeQueuedWhere f).2 } _
    fun r hr => (h r.page).2.2 (.inl ?_)).congr (fun _ => rfl) rfl fun _ => Iff.rfl
  exact (Scheduler.isQueued_iff _ _).2 (List.mem_map_of_mem (List.mem_of_mem_filter hr))

/-- Clearing the queue drops every waiting request, keeps the active jobs and settles the pages
that waited. -/
theorem clearQueue_settles {g : Engine} (h : g.StatesAgree) :
    g.clearQueue.scheduler.queue.toList = [] ∧
      g.clearQueue.scheduler.active = g.scheduler.active ∧
      SettlesDropped g (g.scheduler.queue.toList.map (·.page)) g.clearQueue := by
  have hs : g.clearQueue.scheduler = (g.scheduler.removeQueuedWhere fun _ => true).2 := by
    simp [clearQueue, Scheduler.clearQueue]
  refine ⟨by simp [hs, Scheduler.removeQueuedWhere, Queue.toList_removeWhere],
    by rw [hs]; rfl, ?_⟩
  have hset := (removeQueued_settles h fun _ => true).emit (.queueSize 0) fun _ => rfl
  exact hset.congr (fun _ => rfl) rfl fun p => by rw [List.filter_true]

/-- Stopping drops every waiting request and every active job and settles the pages that had
work. -/
theorem stop_settles {g : Engine} (h : g.StatesAgree) :
    g.stop.scheduler.queue.toList = [] ∧ g.stop.scheduler.active = [] ∧
      SettlesDropped g
        (g.scheduler.queue.toList.map (·.page) ++ g.scheduler.active.map (·.request.page))
        g.stop := by
  refine ⟨by simp [Scheduler.stop, Queue.clear, Queue.toList_removeWhere],
    by simp [Scheduler.stop], ?_⟩
  let g₁ : Engine := { g with running := false, scheduler := g.scheduler.resume }
  -- every request `stop` hands back was waiting or had its job active
  have hpend : ∀ r ∈ g₁.scheduler.stop.1.1 ++ g₁.scheduler.stop.1.2,
      (g₁.pageState r.page).isPending = true :=
    fun r hr => (h r.page).2.2 ((Scheduler.mem_stop_fst _ _).1 (List.mem_map_of_mem hr))
  have hset := ((@releaseQueued_settles { g₁ with scheduler := g₁.scheduler.stop.2 } _
    hpend).emit (.queueSize 0) fun _ => rfl).emit (.activeJobs 0) fun _ => rfl
  refine hset.congr (fun _ => rfl) rfl fun p => ?_
  rw [Scheduler.mem_stop_fst, List.mem_append, ← Scheduler.isQueued_iff]
  exact or_congr Iff.rfl (Scheduler.hasActive_iff _ _)

/-- A new default size drops the waiting requests made at the old one and settles their
pages. -/
theorem setThumbnailSize_settles {g : Engine} (h : g.StatesAgree) {size : Target}
    (hne : size.isEmpty = false) (hnew : size ≠ g.thumbnailSize) :
    (g.setThumbnailSize size).thumbnailSize = size ∧
      (g.setThumbnailSize size).scheduler.queue.toList =
        g.scheduler.queue.toList.filter (·.size ≠ g.thumbnailSize) ∧
      (g.setThumbnailSize size).scheduler.active = g.scheduler.active ∧
      SettlesDropped g ((g.scheduler.queue.toList.filter (·.size = g.thumbnailSize)).map (·.page))
        (g.setThumbnailSize size) := by
  let g₁ : Engine := { g with thumbnailSize := size }
  let removed := g₁.scheduler.removeQueuedWhere (·.size == g.thumbnailSize)
  let g₂ := { g₁ with scheduler := removed.2 }.releaseQueued removed.1
  have heq : g.setThumbnailSize size = g₂.emit (.queueSize g₂.queueSize) := by
    unfold setThumbnailSize
    rw [if_neg (by simp [hne]), if_neg (Ne.symm hnew)]
  have hset := (@removeQueued_settles g₁ h (·.size == g.thumbnailSize)).emit
    (.queueSize g₂.queueSize) fun _ => rfl
  rw [heq]
  have hs : (g₂.emit (.queueSize g₂.queueSize)).scheduler = removed.2 := by
    rw [emit_scheduler, releaseQueued_scheduler]
  refine ⟨?_, ?_, by rw [hs]; rfl, hset.congr (fun _ => rfl) rfl fun _ => Iff.rfl⟩
  · exact releaseQueued_keeps Engine.thumbnailSize (fun _ _ => rfl) (fun _ _ _ => rfl) _ _
  · have hq : removed.2.queue =
        (g.scheduler.queue.removeWhere (·.size == g.thumbnailSize)).2 := rfl
    rw [hs, hq, Queue.toList_removeWhere]
    exact List.filter_congr fun r _ => by rw [Bool.eq_iff_iff]; simp

/-- A new size that is empty, or the old one, changes nothing. -/
theorem setThumbnailSize_same {g : Engine} {size : Target}
    (h : size.isEmpty = true ∨ size = g.thumbnailSize) : g.setThumbnailSize size = g := by
  unfold setThumbnailSize
  rcases h with h | rfl
  · rw [if_pos h]
  · split <;> simp

/-- **Dropping work settles every page that lost a request, once**, in every state a generator
reaches. Clearing the queue drops every waiting request and leaves the active jobs; stopping drops
every waiting request and every active job; a new default size drops exactly the waiting
requests made at the old one, whatever else they ask for, and sets the new one. After each, as
`SettlesDropped` says, a page that still has a request waiting keeps its state, one with only a
job active is rendering, and one with no work left is cancelled, with exactly one cancellation
announced for it. A new size that is empty or the old one changes nothing. -/
theorem dropping_work_settles_pages (c : GeneratorConfig) (gpu : Option Gpu) (ops : List Op) :
    let g := (create c gpu).run ops
    (g.clearQueue.scheduler.queue.toList = [] ∧
        g.clearQueue.scheduler.active = g.scheduler.active ∧
        SettlesDropped g (g.scheduler.queue.toList.map (·.page)) g.clearQueue) ∧
      (g.stop.scheduler.queue.toList = [] ∧ g.stop.scheduler.active = [] ∧
        SettlesDropped g
          (g.scheduler.queue.toList.map (·.page) ++ g.scheduler.active.map (·.request.page))
          g.stop) ∧
      (∀ size, size.isEmpty = false → size ≠ g.thumbnailSize →
        (g.setThumbnailSize size).thumbnailSize = size ∧
        (g.setThumbnailSize size).scheduler.queue.toList =
          g.scheduler.queue.toList.filter (·.size ≠ g.thumbnailSize) ∧
        (g.setThumbnailSize size).scheduler.active = g.scheduler.active ∧
        SettlesDropped g
          ((g.scheduler.queue.toList.filter (·.size = g.thumbnailSize)).map (·.page))
          (g.setThumbnailSize size)) ∧
      (∀ size, size.isEmpty = true ∨ size = g.thumbnailSize →
        g.setThumbnailSize size = g) := by
  intro g
  have h : g.StatesAgree := statesAgree_run c gpu ops
  exact ⟨clearQueue_settles h, stop_settles h,
    fun _ hne hnew => setThumbnailSize_settles h hne hnew, fun _ => setThumbnailSize_same⟩

end Engine
end Generator
end Thumbnailer
