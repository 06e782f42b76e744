import Thumbnailer.Proofs.Schedule.RetryBound
import Thumbnailer.Proofs.Generator.Stamps
import Thumbnailer.Page.Synthetic
import Thumbnailer.Generator.Workers

/-!
# What the generator lets through to its scheduler

A request for one page is checked before anything is submitted (`Engine.validate`): it is
refused without a document, then for a page outside the document, then for a box with a side of
zero, the box being the request's own or else the default one (`generateWith_result`). A refused
request changes nothing but the events, where it is announced once (`generateWith_error`). One
let through leaves work for the page in the scheduler, waiting or running, that is the request
itself or the same work as it (`generateWith_ok_held`): a submission refused as a duplicate
found that work already there.

`Scheduler.Adds P s s'` says that every request `s'` holds was held in `s` or satisfies `P`.
A submission adds the request submitted, and a dispatch moves requests from the queue to the
active jobs, so each entry point of the generator adds only what it submits. A single page and a
range check the box they submit, so they add only requests for a page of the document at a box
with no side of zero. A batch keeps the pages inside the document and submits them at the
default box, which it does not check (`generateBatch_adds`, `generateBatch_holds`): with an empty
default box it queues empty work. Such a job never reaches its page lookup: its worker fails it
as soon as it picks it up, exactly as letting it through would (`runJob_of_earlyFailure`).
-/

namespace Thumbnailer
namespace Schedule

/-- Requests that are the same work are for the same page at the same box. -/
theorem Request.page_size_of_sameWork {x r : Request} (h : x.sameWork r = true) :
    x.page = r.page ∧ x.size = r.size := by
  simp only [Request.sameWork, Bool.and_eq_true, beq_iff_eq] at h
  exact ⟨h.1.1, h.1.2⟩

namespace Scheduler

/-! ### What a call adds to the requests held -/

/-- Every request `s'` holds, waiting or active, was held in `s` or satisfies `P`. -/
def Adds (P : Request → Prop) (s s' : Scheduler) : Prop := ∀ x ∈ s'.held, x ∈ s.held ∨ P x

section Adds

variable {P Q : Request → Prop} {s s₁ s₂ s₃ : Scheduler}

theorem Adds.refl (P : Request → Prop) (s : Scheduler) : Adds P s s := fun _ h => .inl h

theorem Adds.trans (h₁ : Adds P s₁ s₂) (h₂ : Adds P s₂ s₃) : Adds P s₁ s₃ := by
  intro x hx
  rcases h₂ x hx with hx | hx
  · exact h₁ x hx
  · exact .inr hx

theorem Adds.mono (h : Adds P s₁ s₂) (hPQ : ∀ x, P x → Q x) : Adds Q s₁ s₂ :=
  fun x hx => (h x hx).imp_right (hPQ x)

/-- Moving requests around adds none. -/
theorem Adds.of_perm (h : s₂.held.Perm s₁.held) : Adds P s₁ s₂ :=
  fun _ hx => .inl (h.subset hx)

end Adds

@[simp] theorem tick_held (s : Scheduler) : s.tick.2.held = s.held := rfl

/-! ### Submitting and dispatching -/

/-- A submission queued adds its request to the requests held. -/
theorem held_of_submit_queued {s s' : Scheduler} {r : Request} (h : s.submit r = (.queued, s')) :
    s'.held.Perm (r :: s.held) := by
  have ha : s'.active = s.active := by simpa [h] using submit_active s r
  unfold held
  rw [ha]
  exact (submit_queued h).append_right _

/-- **A submission adds the request submitted**, if anything. -/
theorem submit_adds (s : Scheduler) (r : Request) : Adds (· = r) s (s.submit r).2 := by
  intro x hx
  rcases hs : s.submit r with ⟨a, s'⟩
  rw [hs] at hx
  by_cases ha : a = .queued
  · subst ha
    exact (List.mem_cons.1 ((held_of_submit_queued hs).subset hx)).symm
  · rw [submit_not_queued hs ha] at hx
    exact .inl hx

/-- A submission keeps every request held. -/
theorem held_subset_submit (s : Scheduler) (r : Request) : s.held ⊆ (s.submit r).2.held := by
  intro x hx
  rcases hs : s.submit r with ⟨a, s'⟩
  by_cases ha : a = .queued
  · subst ha
    exact (held_of_submit_queued hs).symm.subset (List.mem_cons_of_mem _ hx)
  · rwa [submit_not_queued hs ha]

/-- **After a submission the scheduler holds the request or the same work.** Refused while the
page's active job is the same work, or while the same work waits, it finds that work held. -/
theorem submit_holds (s : Scheduler) (r : Request) :
    ∃ x ∈ (s.submit r).2.held, x = r ∨ x.sameWork r = true := by
  unfold submit
  split
  · rename_i hact
    -- the page's active job is the same work
    obtain ⟨hs, hw⟩ := (Option.any_eq_true_iff_get _ _).1 hact
    have hj : (s.activeJob? r.page).get hs ∈ s.active :=
      List.mem_of_find?_eq_some (Option.some_get hs).symm
    exact ⟨_, List.mem_append_right _ (List.mem_map_of_mem hj), .inr hw⟩
  · split
    · rename_i q hq
      -- a refused push finds the same work waiting
      have hw : ∃ x ∈ s.queue.toList, x.sameWork r = true := by
        by_contra hne
        have hf : ∀ x ∈ s.queue.toList, x.sameWork r = false := by simpa using hne
        rw [Queue.push_fresh hf] at hq
        cases hq
      obtain ⟨x, hx, hw⟩ := hw
      exact ⟨x, List.mem_append_left _ hx, .inr hw⟩
    · rename_i q hq
      have hr : r ∈ q.toList := by
        simpa using (Queue.toList_of_push_true hq).symm.subset (List.mem_cons_self ..)
      exact ⟨r, List.mem_append_left _ hr, .inl rfl⟩

theorem submit_valid {s : Scheduler} (hv : s.queue.Valid) (r : Request) :
    (s.submit r).2.queue.Valid := by
  rcases submit_queue s r with h | h <;> rw [h]
  · exact hv
  · exact hv.push r

/-- **A dispatch moves requests** from the queue to the active jobs, and drops none. -/
theorem dispatch_held {s : Scheduler} (hv : s.queue.Valid) : s.dispatch.2.held.Perm s.held := by
  obtain ⟨hq, ha⟩ := dispatch_requests hv
  let waiting := s.dispatch.2.queue.toList
  let active := s.active.map (·.request)
  unfold held
  rw [ha]
  -- the requests started join the active ones; with those still waiting they are those waiting
  calc (waiting ++ (active ++ s.dispatch.1)).Perm (waiting ++ (s.dispatch.1 ++ active)) :=
        List.perm_append_comm.append_left _
    _ = (waiting ++ s.dispatch.1) ++ active := (List.append_assoc ..).symm
    List.Perm _ ((s.dispatch.1 ++ waiting) ++ active) := List.perm_append_comm.append_right _
    List.Perm _ (s.queue.toList ++ active) := hq.append_right _

end Scheduler
end Schedule

namespace Generator

open Schedule Render Page
open Scheduler (Adds)

namespace Engine

/-! ### The generator's calls of its scheduler -/

theorem admitQueued_held (g : Engine) (hv : g.scheduler.queue.Valid) :
    g.admitQueued.scheduler.held.Perm g.scheduler.held := by
  unfold admitQueued
  split
  · exact List.Perm.refl _
  · dsimp only
    split
    · exact Scheduler.dispatch_held hv
    · -- marking the started pages and announcing the counts leave the scheduler alone
      simpa using Scheduler.dispatch_held hv

/-- A dispatch of the generator moves its scheduler's requests, and drops none: the jobs that
fail at once stay active until their failures are handled. -/
theorem dispatch_held (g : Engine) (hv : g.scheduler.queue.Valid) :
    g.dispatch.scheduler.held.Perm g.scheduler.held := by
  have h := admitQueued_held g hv
  unfold dispatch Scheduler.held at *
  rwa [runEarly_queue, runEarly_active]

section Enqueue

variable (g : Engine) (page : Nat) (v : Variant) (priority : Int)

/-- The request the generator submits for a page: stamped by the clock it advances first. -/
theorem enqueue_adds :
    Adds (fun x => x.page = page ∧ x.size = v.size) g.scheduler
      (g.enqueue page v priority).2.scheduler := by
  rw [enqueue_scheduler]
  exact (Scheduler.submit_adds _ _).mono fun x hx => by subst hx; exact ⟨rfl, rfl⟩

theorem held_subset_enqueue : g.scheduler.held ⊆ (g.enqueue page v priority).2.scheduler.held := by
  rw [enqueue_scheduler]
  exact Scheduler.held_subset_submit g.scheduler.tick.2 _

/-- **After a submission the generator's scheduler holds the request or the same work.** -/
theorem enqueue_holds :
    ∃ x ∈ (g.enqueue page v priority).2.scheduler.held,
      x = { page, size := v.size, quality := v.quality, priority,
            submittedAt := g.scheduler.clock + 1, backend := v.backend } ∨
      x.sameWork { page, size := v.size, quality := v.quality, priority,
                   submittedAt := g.scheduler.clock + 1, backend := v.backend } = true := by
  rw [enqueue_scheduler]
  exact Scheduler.submit_holds _ _

theorem enqueue_valid (hv : g.scheduler.queue.Valid) :
    (g.enqueue page v priority).2.scheduler.queue.Valid := by
  rw [enqueue_scheduler]
  exact Scheduler.submit_valid (s := g.scheduler.tick.2) hv _

end Enqueue

theorem enqueueCounted_snd (v : Variant) (acc : Nat × Engine) (page : Nat × Int) :
    (enqueueCounted v acc page).2 = (acc.2.enqueue page.1 v page.2).2 := by
  unfold enqueueCounted
  split <;> rename_i g' hq <;> rw [hq]

section EnqueueAll

variable (v : Variant) (pages : List (Nat × Int))

/-- A batch of submissions adds requests for its pages at its box. -/
theorem enqueueAll_adds (g : Engine) :
    Adds (fun x => x.page ∈ pages.map (·.1) ∧ x.size = v.size) g.scheduler
      (g.enqueueAll v pages).2.scheduler := by
  unfold enqueueAll
  refine List.foldlRecOn (motive := fun acc : Nat × Engine => Adds _ g.scheduler acc.2.scheduler)
    _ _ (Adds.refl _ _) fun acc h x hx => ?_
  rw [enqueueCounted_snd]
  exact h.trans ((enqueue_adds acc.2 x.1 v x.2).mono fun y ⟨hp, hs⟩ =>
    ⟨hp ▸ List.mem_map_of_mem hx, hs⟩)

theorem enqueueAll_valid (g : Engine) (hv : g.scheduler.queue.Valid) :
    (g.enqueueAll v pages).2.scheduler.queue.Valid := by
  unfold enqueueAll
  refine List.foldlRecOn (motive := fun acc : Nat × Engine => acc.2.scheduler.queue.Valid)
    _ _ hv fun acc h x _ => ?_
  rw [enqueueCounted_snd]
  exact enqueue_valid acc.2 x.1 v x.2 h

theorem held_subset_foldl_enqueueCounted (acc : Nat × Engine) :
    acc.2.scheduler.held ⊆ (pages.foldl (enqueueCounted v) acc).2.scheduler.held := by
  refine List.foldlRecOn (motive := fun acc' : Nat × Engine =>
    acc.2.scheduler.held ⊆ acc'.2.scheduler.held) _ _ (List.Subset.refl _) fun acc' h x _ => ?_
  rw [enqueueCounted_snd]
  exact List.Subset.trans h (held_subset_enqueue acc'.2 x.1 v x.2)

/-- **After a batch of submissions, each page of it has work at the batch's box**: a later
submission drops nothing an earlier one left. -/
theorem foldl_enqueueCounted_holds (acc : Nat × Engine) :
    ∀ p ∈ pages.map (·.1), ∃ x ∈ (pages.foldl (enqueueCounted v) acc).2.scheduler.held,
      x.page = p ∧ x.size = v.size := by
  induction pages generalizing acc with
  | nil => simp
  | cons y ys ih =>
    intro p hp
    rw [List.foldl_cons]
    rcases List.mem_cons.1 hp with rfl | hp
    · -- the page submitted first has its work held from then on
      obtain ⟨x, hx, hxr⟩ := enqueue_holds acc.2 y.1 v y.2
      have hxp : x.page = y.1 ∧ x.size = v.size := by
        rcases hxr with rfl | hw
        · exact ⟨rfl, rfl⟩
        · exact Schedule.Request.page_size_of_sameWork hw
      rw [← enqueueCounted_snd] at hx
      exact ⟨x, held_subset_foldl_enqueueCounted v ys _ hx, hxp⟩
    · exact ih _ p hp

end EnqueueAll

theorem afterEnqueue_held (g : Engine) (hv : g.scheduler.queue.Valid) (n : Nat) :
    (g.afterEnqueue n).scheduler.held.Perm g.scheduler.held := by
  unfold afterEnqueue
  split
  · exact dispatch_held _ hv
  · exact List.Perm.refl _

/-- A batch of submissions and the dispatch after it add requests for its pages at its box. -/
theorem enqueueAll_afterEnqueue_adds (g : Engine) (hv : g.scheduler.queue.Valid) (v : Variant)
    (pages : List (Nat × Int)) (n : Nat) :
    Adds (fun x => x.page ∈ pages.map (·.1) ∧ x.size = v.size) g.scheduler
      ((g.enqueueAll v pages).2.afterEnqueue n).scheduler :=
  (enqueueAll_adds v pages g).trans
    (Adds.of_perm (afterEnqueue_held _ (enqueueAll_valid v pages g hv) n))

/-! ### A request for one page -/

/-- **What a request let through satisfies**: a page of the document, at a box with no side of
zero. Without a document there is no page. -/
theorem validate_eq_none_iff (g : Engine) (page : Nat) (size : Target) :
    g.validate page size = none ↔ page < g.pageCount ∧ size.isEmpty = false := by
  unfold validate pageCount
  rcases g.document with _ | d
  · simp
  · by_cases hp : page < d.numPages
    · cases size.isEmpty <;> simp [Nat.not_le.2 hp, hp]
    · simp [hp, Nat.le_of_not_lt hp]

/-- The result of a request for one page is the verdict of its check. -/
theorem generateWith_fst (g : Engine) (page : Nat) (o : Options) :
    (g.generateWith page o).1 = (g.validate page (g.variant o).size).elim (.ok ()) .error := by
  unfold generateWith
  dsimp only
  split
  · rename_i e he
    rw [he]
    rfl
  · rename_i he
    rw [he]
    split <;> rfl

/-- **The checks, in order**: a document, then a page of it, then a box with no side of zero,
the request's own box or else the default one. -/
theorem generateWith_result (g : Engine) (page : Nat) (o : Options) :
    (g.generateWith page o).1 =
      if g.document.isNone then .error .noDocument
      else if g.pageCount ≤ page then .error (.invalidPage page g.pageCount)
      else if (o.size.getD g.thumbnailSize).isEmpty then
        .error (.zeroTargetSize (o.size.getD g.thumbnailSize).width
          (o.size.getD g.thumbnailSize).height)
      else .ok () := by
  rw [generateWith_fst]
  unfold validate pageCount variant
  rcases g.document with _ | d
  · rfl
  · simp only [Option.isNone_some, Option.map_some, Option.getD_some, Bool.false_eq_true, if_false,
      ge_iff_le]
    split_ifs <;> rfl

/-- **A refused request changes nothing but the events**, where it is announced once. -/
theorem generateWith_error (g : Engine) (page : Nat) (o : Options) {e : Rejection}
    (h : (g.generateWith page o).1 = .error e) :
    (g.generateWith page o).2 = g.emit (.error page e.message) := by
  rw [generateWith_fst] at h
  rcases hval : g.validate page (g.variant o).size with _ | e'
  · rw [hval] at h
    cases h
  · rw [hval] at h
    cases h
    unfold generateWith
    dsimp only
    rw [hval]

/-- A request let through is submitted, and dispatched when it was queued. -/
theorem generateWith_held (g : Engine) (hv : g.scheduler.queue.Valid) (page : Nat) (o : Options)
    (hval : g.validate page (g.variant o).size = none) :
    (g.generateWith page o).2.scheduler.held.Perm
      (g.enqueue page (g.variant o) o.priority).2.scheduler.held := by
  have hv' := enqueue_valid g page (g.variant o) o.priority hv
  unfold generateWith
  dsimp only
  rw [hval]
  dsimp only
  split
  · rename_i g' hq
    rw [hq] at hv' ⊢
    exact dispatch_held _ hv'
  · rename_i g' hq
    rw [hq]

/-- **A request let through leaves its work in the scheduler**, waiting or running: the request
itself, or the same work found there already. -/
theorem generateWith_ok_held (g : Engine) (hv : g.scheduler.queue.Valid) (page : Nat) (o : Options)
    (h : (g.generateWith page o).1 = .ok ()) :
    ∃ x ∈ (g.generateWith page o).2.scheduler.held,
      x = { page, size := (g.variant o).size, quality := (g.variant o).quality,
            priority := o.priority, submittedAt := g.scheduler.clock + 1,
            backend := (g.variant o).backend } ∨
      x.sameWork { page, size := (g.variant o).size, quality := (g.variant o).quality,
                   priority := o.priority, submittedAt := g.scheduler.clock + 1,
                   backend := (g.variant o).backend } = true := by
  have hval : g.validate page (g.variant o).size = none := by
    rw [generateWith_fst] at h
    rcases he : g.validate page (g.variant o).size with _ | e
    · rfl
    · rw [he] at h
      cases h
  obtain ⟨x, hx, hxr⟩ := enqueue_holds g page (g.variant o) o.priority
  exact ⟨x, (generateWith_held g hv page o hval).symm.subset hx, hxr⟩

/-- **A request for one page adds only work inside the document at a box with no side of
zero.** -/
theorem generateWith_adds (g : Engine) (hv : g.scheduler.queue.Valid) (page : Nat) (o : Options) :
    Adds (fun x => x.page < g.pageCount ∧ x.size.isEmpty = false) g.scheduler
      (g.generateWith page o).2.scheduler := by
  rcases hval : g.validate page (g.variant o).size with _ | e
  · -- let through: the request submitted passed the check
    obtain ⟨hp, hs⟩ := (validate_eq_none_iff _ _ _).1 hval
    refine ((enqueue_adds g page (g.variant o) o.priority).mono ?_).trans
      (Adds.of_perm (generateWith_held g hv page o hval))
    rintro x ⟨rfl, hx⟩
    exact ⟨hp, hx ▸ hs⟩
  · -- refused: only an event is sent
    rw [generateWith_error g page o (e := e) (by rw [generateWith_fst, hval]; rfl)]
    exact Adds.refl _ _

/-! ### Ranges and batches -/

/-- **A range adds only work inside the document at a box with no side of zero**: its pages are
cut to the document, and its box is checked. -/
theorem generateRange_adds (g : Engine) (hv : g.scheduler.queue.Valid) (first last : Nat)
    (size : Option Target) (quality : Option Float) :
    Adds (fun x => x.page < g.pageCount ∧ x.size.isEmpty = false) g.scheduler
      (g.generateRange first last size quality).2.scheduler := by
  unfold generateRange
  split
  · exact Adds.refl _ _
  · rename_i d hd
    dsimp only
    split
    · exact Adds.refl _ _
    · rename_i hs
      split
      · exact Adds.refl _ _
      · rename_i hn
        have hcount : g.pageCount = d.numPages := by simp [pageCount, hd]
        refine (enqueueAll_afterEnqueue_adds g hv _ _ _).mono ?_
        rintro x ⟨hx, hxs⟩
        simp only [List.map_map, List.mem_map, List.mem_range, Function.comp_apply] at hx
        obtain ⟨i, hi, hxi⟩ := hx
        refine ⟨?_, by rw [hxs]; simpa using hs⟩
        rw [hcount, ← hxi]
        omega

/-- Numbering a list and dropping the numbers gives the list back. -/
theorem map_fst_map_zipIdx {l : List Nat} {f : Nat × Nat → Nat × Int} (hf : ∀ a, (f a).1 = a.1) :
    (l.zipIdx.map f).map (·.1) = l := by
  rw [List.map_map]
  exact (List.map_congr_left fun a _ => hf a).trans (List.zipIdx_map_fst 0 l)

/-- A batch adds only work for pages inside the document, at the default box. -/
theorem generateBatch_adds (g : Engine) (hv : g.scheduler.queue.Valid) (pages : List Nat) :
    Adds (fun x => x.page < g.pageCount ∧ x.size = g.thumbnailSize) g.scheduler
      (g.generateBatch pages).2.scheduler := by
  unfold generateBatch
  split
  · exact Adds.refl _ _
  · rename_i d hd
    have hcount : g.pageCount = d.numPages := by simp [pageCount, hd]
    refine (enqueueAll_afterEnqueue_adds g hv _ _ _).mono ?_
    rintro x ⟨hx, hxs⟩
    refine ⟨?_, hxs⟩
    -- the pages numbered are the batch's pages inside the document, sorted and without repeats
    rw [map_fst_map_zipIdx fun _ => rfl] at hx
    rw [hcount]
    split at hx <;> simp at hx <;> exact hx.2

/-- **A batch leaves work for each of its pages inside the document, at the default box**,
waiting or running. -/
theorem generateBatch_holds (g : Engine) (hv : g.scheduler.queue.Valid) (pages : List Nat)
    {p : Nat} (hp : p ∈ pages) (hn : p < g.pageCount) :
    ∃ x ∈ (g.generateBatch pages).2.scheduler.held, x.page = p ∧ x.size = g.thumbnailSize := by
  unfold generateBatch
  split
  · rename_i hd
    simp [pageCount, hd] at hn
  · rename_i d hd
    have hcount : g.pageCount = d.numPages := by simp [pageCount, hd]
    refine (foldl_enqueueCounted_holds _ _ (0, g) p ?_).imp fun x h =>
      ⟨(afterEnqueue_held _ (enqueueAll_valid _ _ g hv) _).symm.subset h.1, h.2⟩
    -- the page is among those numbered
    rw [map_fst_map_zipIdx fun _ => rfl]
    split <;> simp [hp, ← hcount, hn]

/-! ### Work that fails before its page lookup -/

/-- **A job that fails before its page lookup fails the same way however the lookup would have
gone**, and running it changes nothing: what its worker does at once is what letting it through
would do. -/
theorem runJob_of_earlyFailure {g : Engine} {r : Schedule.Request} {e : JobFailure}
    (h : g.earlyFailure r = some e) (l : Lookup) (now : Instant) :
    g.runJob r l now = .ok (.error e, g) := by
  unfold earlyFailure at h
  unfold runJob
  cases hd : g.document with
  | none =>
    simp only [hd, Option.isNone_none, if_true, Option.some.injEq] at h
    subst h
    rfl
  | some s =>
    simp only [hd, Option.isNone_some, Bool.false_eq_true, if_false] at h
    split at h
    · rename_i hempty
      cases h
      -- the backend refuses the empty box before it reads the document
      have hr : ∀ s', g.backend.render s' r.renderRequest now =
          .ok ({ result := .error (.zeroTargetSize r.size.width r.size.height) }, g.backend) := by
        intro s'
        simp [Backend.render, Schedule.Request.renderRequest, hempty]
        rfl
      -- the document is untouched, so the engine comes back as it was
      cases l <;>
      · simp [hempty, hr]
        rw [← hd]
        exact ⟨rfl, rfl⟩
    · cases h

/-! ### What the generator lets through -/

/-- **Requests are checked before they reach the scheduler.** For a request for one page, the
checks come in order; a refused request changes nothing but one `error` event; one let through
leaves its work held. Every request the scheduler holds after a request for one page or for a
range was held before it or is for a page of the document at a box with no side of zero. After a
batch, each request added is for a page of the document at the default box, which a batch does
not check, and each page of the batch inside the document has such work held. -/
theorem requests_checked_before_scheduling (g : Engine) (hv : g.scheduler.queue.Valid)
    (page : Nat) (o : Options) :
    let box := o.size.getD g.thumbnailSize
    let request : Schedule.Request :=
      { page, size := box, quality := (g.variant o).quality, priority := o.priority,
        submittedAt := g.scheduler.clock + 1, backend := (g.variant o).backend }
    let inside (x : Schedule.Request) : Prop := x.page < g.pageCount ∧ x.size.isEmpty = false
    (g.generateWith page o).1 =
        (if g.document.isNone then .error .noDocument
         else if g.pageCount ≤ page then .error (.invalidPage page g.pageCount)
         else if box.isEmpty then .error (.zeroTargetSize box.width box.height)
         else .ok ()) ∧
      (∀ e, (g.generateWith page o).1 = .error e →
        (g.generateWith page o).2 = g.emit (.error page e.message)) ∧
      ((g.generateWith page o).1 = .ok () →
        ∃ x ∈ (g.generateWith page o).2.scheduler.held, x = request ∨ x.sameWork request = true) ∧
      Adds inside g.scheduler (g.generateWith page o).2.scheduler ∧
      Adds inside g.scheduler (g.generate page o.priority).2.scheduler ∧
      (∀ first last size quality,
        Adds inside g.scheduler (g.generateRange first last size quality).2.scheduler) ∧
      (∀ pages, Adds (fun x => x.page < g.pageCount ∧ x.size = g.thumbnailSize) g.scheduler
        (g.generateBatch pages).2.scheduler) ∧
      (∀ pages p, p ∈ pages → p < g.pageCount →
        ∃ x ∈ (g.generateBatch pages).2.scheduler.held, x.page = p ∧ x.size = g.thumbnailSize) :=
  ⟨generateWith_result g page o, fun _ h => generateWith_error g page o h,
    generateWith_ok_held g hv page o, generateWith_adds g hv page o,
    generateWith_adds g hv page { priority := o.priority },
    fun first last size quality => generateRange_adds g hv first last size quality,
    fun pages => generateBatch_adds g hv pages,
    fun pages _ hp hn => generateBatch_holds g hv pages hp hn⟩

/-- A request for a page past the end of a two-page document is refused with that page and the
page count, and only announced. -/
theorem requests_checked_before_scheduling_of_page_outside :
    let g := (Engine.create {} none).replaceDocument (some (Synthetic.letter 2).source)
    g.scheduler.queue.Valid ∧ (g.generateWith 5 {}).1 = .error (.invalidPage 5 2) ∧
      (g.generateWith 5 {}).2 = g.emit (.error 5 (Rejection.invalidPage 5 2).message) := by
  intro g
  have hv : g.scheduler.queue.Valid := Queue.valid_empty.removeWhere fun _ => true
  have h := requests_checked_before_scheduling g hv 5 {}
  have hr : (g.generateWith 5 {}).1 = .error (.invalidPage 5 2) := h.1.trans rfl
  exact ⟨hv, hr, h.2.1 _ hr⟩

/-- **A batch queues empty work when the default box is empty.** With a default box of 0 × 0, a
batch of page 0 of a two-page document leaves a request for page 0 at the empty box in the
scheduler, which held nothing before. -/
theorem batch_queues_empty_box :
    let g := (Engine.create { thumbnailSize := ⟨0, 0⟩ } none).replaceDocument
      (some (Synthetic.letter 2).source)
    g.scheduler.held = [] ∧
      ∃ x ∈ (g.generateBatch [0]).2.scheduler.held, x.page = 0 ∧ x.size.isEmpty = true := by
  intro g
  have hv : g.scheduler.queue.Valid := Queue.valid_empty.removeWhere fun _ => true
  obtain ⟨x, hx, hp, hs⟩ := generateBatch_holds g hv [0] (List.mem_singleton_self 0)
    (show 0 < g.pageCount by decide)
  refine ⟨rfl, x, hx, hp, ?_⟩
  rw [hs]
  rfl

end Engine
end Generator
end Thumbnailer
