import Thumbnailer.Proofs.Generator.Validation
import Thumbnailer.Proofs.Generator.DroppedWork
import Thumbnailer.Proofs.Generator.Accounting

/-!
# The order in which ranges and batches are submitted

A range `start..=end` is cut to the document: it starts at `s = min start (n - 1)` and ends at
`e = min (max end s) (n - 1)`, so an end before the start, or a start past the last page, still
gives one page. Its pages are submitted in ascending order, page `s + i` at priority `i` taken as
a signed 32-bit word, at the range's box (or the default one) and its quality clamped (or the
default one). A document without pages gets nothing and the answer 0.

A batch keeps the pages inside the document, drops repeats and submits each page once: by page,
or under the memory-aware strategy by page area in the total order of doubles, ties going by
page, each at its position as priority. Sorting by area keeps the pages of one area in the order
they had (`filter_key_mergeSort`), and they had ascending order, which is what makes ties go by
page (`pairwise_mergeSort_key`).

Both then dispatch once if anything was queued, and answer how many submissions the scheduler
queued; its count of queued submissions grows by exactly that (`Submits`).

Main statement: `ranges_and_batches_submit_in_order`.
-/

namespace Thumbnailer

/-- A count below `2^31` is its own signed 32-bit word. -/
theorem Word.wrapI32_of_lt {n : Nat} (h : n < 2 ^ 31) : Word.wrapI32 n = n := by
  have hmod : (n + Nat.pow 2 31) % Nat.pow 2 32 = n + Nat.pow 2 31 :=
    Nat.mod_eq_of_lt (by simp only [Nat.pow_eq]; omega)
  have hpow : Int.pow 2 31 = ((Nat.pow 2 31 : Nat) : Int) := rfl
  simp only [Word.wrapI32, hmod, hpow]
  omega

namespace Schedule
namespace Scheduler

/-- The scheduler counts a submission exactly when it queues it. -/
theorem submit_submitted (s : Scheduler) (r : Request) :
    (s.submit r).2.stats.submitted = s.stats.submitted + if (s.submit r).1 = .queued then 1 else 0 := by
  unfold submit
  split
  · simp
  · split <;> simp

/-- A dispatch counts no submission. -/
theorem dispatch_submitted (s : Scheduler) : s.dispatch.2.stats.submitted = s.stats.submitted := by
  unfold dispatch
  split
  · rfl
  · rcases hT : takeQueued s.queue.size { s with workers := max s.workers s.limit } [] [] with
      ⟨s', started, deferred⟩
    have hs : s'.stats = s.stats := by
      simpa [hT] using takeQueued_stats s.queue.size { s with workers := max s.workers s.limit } [] []
    simp only [hT]
    simp only [settle_stats, hs]

end Scheduler
end Schedule

namespace Generator

open Schedule Page Config

namespace Engine

/-! ### Submitting in order -/

/-- The generator answers `true` for a submission exactly when its scheduler queued it. -/
theorem enqueue_fst (g : Engine) (page : Nat) (v : Variant) (priority : Int) :
    (g.enqueue page v priority).1 =
      ((g.scheduler.tick.2.submit { page, size := v.size, quality := v.quality, priority,
                                    submittedAt := g.scheduler.tick.1, backend := v.backend }).1
        == .queued) := by
  unfold enqueue
  dsimp only
  split
  · next hs => simp [hs]
  · next hne hs => simpa [hs] using hne

theorem enqueue_submitted (g : Engine) (page : Nat) (v : Variant) (priority : Int) :
    g.scheduler.stats.submitted + (if (g.enqueue page v priority).1 then 1 else 0) =
      (g.enqueue page v priority).2.scheduler.stats.submitted := by
  rw [enqueue_scheduler, enqueue_fst, Scheduler.submit_submitted]
  simp only [beq_iff_eq]
  rfl

/-- **Counting the submissions queued**: along a list of submissions, the count kept grows
exactly as the scheduler's count of queued submissions. -/
theorem foldl_enqueueCounted_submitted (v : Variant) (L : List (Nat × Int)) (acc : Nat × Engine) :
    acc.2.scheduler.stats.submitted + (L.foldl (enqueueCounted v) acc).1 =
      acc.1 + (L.foldl (enqueueCounted v) acc).2.scheduler.stats.submitted := by
  induction L generalizing acc with
  | nil => exact Nat.add_comm _ _
  | cons x L ih =>
    rw [List.foldl_cons]
    have hstep : (enqueueCounted v acc x).1 + acc.2.scheduler.stats.submitted =
        acc.1 + (enqueueCounted v acc x).2.scheduler.stats.submitted := by
      have h := enqueue_submitted acc.2 x.1 v x.2
      unfold enqueueCounted
      split <;> rename_i g' hq <;> rw [hq] at h <;> simp at h ⊢ <;> omega
    have := ih (enqueueCounted v acc x)
    omega

theorem admitQueued_submitted (g : Engine) :
    g.admitQueued.scheduler.stats.submitted = g.scheduler.stats.submitted := by
  unfold admitQueued
  split
  · rfl
  · dsimp only
    split
    · exact Scheduler.dispatch_submitted g.scheduler
    · simpa using Scheduler.dispatch_submitted g.scheduler

@[simp] theorem dispatch_submitted (g : Engine) :
    g.dispatch.scheduler.stats.submitted = g.scheduler.stats.submitted := by
  rw [dispatch, runEarly_stats, admitQueued_submitted]

@[simp] theorem afterEnqueue_submitted (g : Engine) (n : Nat) :
    (g.afterEnqueue n).scheduler.stats.submitted = g.scheduler.stats.submitted := by
  unfold afterEnqueue
  split
  · simp
  · rfl

/-- `g` submits the pages of `L` at the variant `v`, one after another and each at its priority,
then dispatches once if anything was queued (`runs`); the answer is the number of submissions
the scheduler queued (`counts`). -/
structure Submits (g : Engine) (v : Variant) (L : List (Nat × Int))
    (res : Except Rejection Nat × Engine) : Prop where
  runs : res = (.ok (g.enqueueAll v L).1, (g.enqueueAll v L).2.afterEnqueue (g.enqueueAll v L).1)
  counts : ∃ n, res.1 = .ok n ∧ g.scheduler.stats.submitted + n = res.2.scheduler.stats.submitted

theorem Submits.of_runs {g : Engine} {v : Variant} {L : List (Nat × Int)}
    {res : Except Rejection Nat × Engine}
    (h : res = (.ok (g.enqueueAll v L).1, (g.enqueueAll v L).2.afterEnqueue (g.enqueueAll v L).1)) :
    Submits g v L res := by
  refine ⟨h, (g.enqueueAll v L).1, by rw [h], ?_⟩
  rw [h, afterEnqueue_submitted]
  simpa [enqueueAll] using foldl_enqueueCounted_submitted v L (0, g)

/-! ### Ranges -/

/-- Numbering `k` pages from `s` is walking `s, s + 1, …` and taking the offset from `s`. -/
theorem map_range_eq_map_range' (s k : Nat) (f : Nat → Int) :
    (List.range k).map (fun i => (s + i, f i)) = (List.range' s k).map fun p => (p, f (p - s)) := by
  rw [List.range'_eq_map_range, List.map_map]
  exact List.map_congr_left fun i _ => by simp

/-- **A range submits its pages cut to the document, in ascending order**, page `s + i` at
priority `i`, at its box and quality or the defaults; a document without pages gets nothing. -/
theorem generateRange_submits (g : Engine) {d : Source} (hd : g.document = some d)
    (start stop : Nat) (size : Option Target) (quality : Option Float)
    (hs : (size.getD g.thumbnailSize).isEmpty = false) :
    let v : Variant := ⟨size.getD g.thumbnailSize, (quality.map clampQuality).getD g.quality,
      g.renderMode⟩
    (d.numPages = 0 → g.generateRange start stop size quality = (.ok 0, g)) ∧
    (0 < d.numPages →
      let s := min start (d.numPages - 1)
      let e := min (max stop s) (d.numPages - 1)
      Submits g v ((List.range' s (e + 1 - s)).map fun p => (p, Word.wrapI32 (p - s)))
        (g.generateRange start stop size quality)) := by
  intro v
  have hv : g.variant { size, quality } = v := rfl
  have hne : ¬ (g.variant { size, quality }).size.isEmpty = true := by rw [hv]; simp [v, hs]
  unfold generateRange
  rw [hd]
  dsimp only
  rw [if_neg hne, hv]
  refine ⟨fun h0 => by rw [if_pos h0], fun hpos => ?_⟩
  rw [if_neg (Nat.pos_iff_ne_zero.1 hpos)]
  -- the code's end `max s (min end (n - 1))` is the cut `min (max end s) (n - 1)`
  have hlen : max (min start (d.numPages - 1)) (min stop (d.numPages - 1)) -
      min start (d.numPages - 1) + 1 =
      min (max stop (min start (d.numPages - 1))) (d.numPages - 1) + 1 - min start (d.numPages - 1) := by
    omega
  rw [map_range_eq_map_range', hlen]
  exact Submits.of_runs rfl

/-! ### Batches -/

/-- Removing duplicates keeps a part of the list. -/
theorem eraseDups_sublist {α : Type} [BEq α] : ∀ (l : List α), l.eraseDups.Sublist l
  | [] => by simp
  | a :: l => by
    rw [List.eraseDups_cons]
    exact ((eraseDups_sublist (l.filter fun b => !b == a)).trans List.filter_sublist).cons_cons a
termination_by l => l.length
decreasing_by exact Nat.lt_succ_of_le (List.length_filter_le _ _)

/-- The pages of a batch inside the document, sorted and without repeats, ascend strictly. -/
theorem batchPages_spec (pages : List Nat) (n : Nat) :
    (((pages.filter (· < n)).mergeSort (· ≤ ·)).eraseDups).Pairwise (· < ·) ∧
      ∀ p, p ∈ ((pages.filter (· < n)).mergeSort (· ≤ ·)).eraseDups ↔ p ∈ pages ∧ p < n := by
  have hsorted : ((pages.filter (· < n)).mergeSort (fun a b => decide (a ≤ b))).Pairwise
      (fun a b => decide (a ≤ b) = true) :=
    List.pairwise_mergeSort (fun a b c hab hbc => by simp only [decide_eq_true_eq] at *; omega)
      (fun a b => by simpa using Nat.le_total a b) _
  refine ⟨?_, fun p => by simp⟩
  -- a part of a sorted list without repeats ascends strictly
  have hle := hsorted.sublist (eraseDups_sublist _)
  exact (hle.and (nodup_eraseDups _)).imp fun h => by simp only [decide_eq_true_eq] at h; omega

section Key

variable (key : Nat → Int)

theorem keyLe_trans (a b c : Nat) (hab : decide (key a ≤ key b) = true)
    (hbc : decide (key b ≤ key c) = true) : decide (key a ≤ key c) = true := by
  simp only [decide_eq_true_eq] at *
  omega

theorem keyLe_total (a b : Nat) : (decide (key a ≤ key b) || decide (key b ≤ key a)) = true := by
  simpa using Int.le_total (key a) (key b)

/-- **Sorting by a key keeps the pages of one key in the order they had.** They are sorted among
themselves already, so the stable sort keeps them as a part of its result, and it keeps all of
them. -/
theorem filter_key_mergeSort (l : List Nat) (x : Int) :
    (l.mergeSort (fun a b => key a ≤ key b)).filter (key · = x) = l.filter (key · = x) := by
  have hclass : (l.filter (key · = x)).Pairwise (fun a b => decide (key a ≤ key b) = true) :=
    List.pairwise_of_forall_mem_list fun a ha b hb => by
      simp only [List.mem_filter, decide_eq_true_eq] at ha hb
      simp [ha.2, hb.2]
  have hsub : (l.filter (key · = x)).Sublist (l.mergeSort fun a b => key a ≤ key b) :=
    List.sublist_mergeSort (keyLe_trans key) (keyLe_total key) hclass List.filter_sublist
  have hsub' := hsub.filter (key · = x)
  simp only [List.filter_filter, Bool.and_self] at hsub'
  have hlen := ((List.mergeSort_perm l fun a b => decide (key a ≤ key b)).filter
    (fun a => decide (key a = x))).length_eq
  exact (hsub'.eq_of_length hlen.symm).symm

/-- **Sorting ascending pages by a key orders them by key, ties by page.** -/
theorem pairwise_mergeSort_key {l : List Nat} (hl : l.Pairwise (· < ·)) :
    (l.mergeSort (fun a b => key a ≤ key b)).Pairwise
      (fun a b => key a < key b ∨ (key a = key b ∧ a < b)) := by
  have hsorted : (l.mergeSort fun a b => key a ≤ key b).Pairwise
      (fun a b => decide (key a ≤ key b) = true) :=
    List.pairwise_mergeSort (keyLe_trans key) (keyLe_total key) l
  refine List.pairwise_iff_forall_sublist.2 fun {a b} hab => ?_
  have hle : key a ≤ key b := by simpa using List.pairwise_pair.1 (hsorted.sublist hab)
  rcases Int.lt_or_eq_of_le hle with hlt | heq
  · exact .inl hlt
  · -- of one key, `a` and `b` keep the order they had, which was ascending
    refine .inr ⟨heq, ?_⟩
    have hin : [a, b].Sublist (l.filter (key · = key a)) := by
      have := hab.filter (key · = key a)
      rwa [filter_key_mergeSort, List.filter_cons_of_pos (by simp),
        List.filter_cons_of_pos (by simp [heq]), List.filter_nil] at this
    exact List.pairwise_pair.1 (hl.sublist (hin.trans List.filter_sublist))

end Key

/-- The key of a page in the memory-aware order: its area, or zero for a page of unknown size,
in the total order of doubles. -/
def areaKey (d : Source) (p : Nat) : Int :=
  totalKey (((d.pageSize p).map fun z => z.width * z.height).getD 0.0)

/-- The order in which a batch is submitted: by page, or under the memory-aware strategy by
page area, ties by page. -/
def batchBefore (g : Engine) (d : Source) (a b : Nat) : Prop :=
  if g.cacheStrategy = .memoryAware then
    areaKey d a < areaKey d b ∨ (areaKey d a = areaKey d b ∧ a < b)
  else a < b

/-- **A batch submits each page inside the document once, in its order**, each at its position
as priority, at the default box, quality and render mode. -/
theorem generateBatch_submits (g : Engine) {d : Source} (hd : g.document = some d)
    (pages : List Nat) :
    ∃ order : List Nat, order.Nodup ∧ (∀ p, p ∈ order ↔ p ∈ pages ∧ p < d.numPages) ∧
      order.Pairwise (g.batchBefore d) ∧
      Submits g ⟨g.thumbnailSize, g.quality, g.renderMode⟩
        (order.zipIdx.map fun x => (x.1, Word.wrapI32 x.2)) (g.generateBatch pages) := by
  obtain ⟨hasc, hmem⟩ := batchPages_spec pages d.numPages
  let base := ((pages.filter (· < d.numPages)).mergeSort (· ≤ ·)).eraseDups
  let order := if g.cacheStrategy = .memoryAware then
    base.mergeSort (fun a b => areaKey d a ≤ areaKey d b) else base
  have hperm : order.Perm base := by
    simp only [order]
    split
    · exact List.mergeSort_perm _ _
    · exact List.Perm.refl _
  refine ⟨order, hperm.nodup_iff.2 (hasc.imp Nat.ne_of_lt), fun p => hperm.mem_iff.trans (hmem p),
    ?_, Submits.of_runs ?_⟩
  · simp only [order]
    split
    · rename_i hm
      exact (pairwise_mergeSort_key (areaKey d) hasc).imp fun h => by simpa [batchBefore, hm] using h
    · rename_i hm
      exact hasc.imp fun h => by simpa [batchBefore, hm] using h
  · unfold generateBatch
    rw [hd]
    rfl

/-- **Ranges and batches submit their pages in order.** For a generator with a document: a range
with a box that is not empty submits nothing on a document without pages and answers 0, and
otherwise submits the pages `s..=e` cut to the document in ascending order, page `s + i` at
priority `i` as a signed 32-bit word (which is `i` below `2^31`, `Word.wrapI32_of_lt`); a batch
submits each of its pages inside the document exactly once, by page or under the memory-aware
strategy by area with ties by page, at its position as priority. Each answers the number of
submissions the scheduler queued. -/
theorem ranges_and_batches_submit_in_order (g : Engine) {d : Source} (hd : g.document = some d) :
    (∀ start stop (size : Option Target) (quality : Option Float),
      (size.getD g.thumbnailSize).isEmpty = false →
      let v : Variant := ⟨size.getD g.thumbnailSize, (quality.map clampQuality).getD g.quality,
        g.renderMode⟩
      (d.numPages = 0 → g.generateRange start stop size quality = (.ok 0, g)) ∧
      (0 < d.numPages →
        let s := min start (d.numPages - 1)
        let e := min (max stop s) (d.numPages - 1)
        Submits g v ((List.range' s (e + 1 - s)).map fun p => (p, Word.wrapI32 (p - s)))
          (g.generateRange start stop size quality))) ∧
    (∀ pages : List Nat, ∃ order : List Nat, order.Nodup ∧
      (∀ p, p ∈ order ↔ p ∈ pages ∧ p < d.numPages) ∧ order.Pairwise (g.batchBefore d) ∧
      Submits g ⟨g.thumbnailSize, g.quality, g.renderMode⟩
        (order.zipIdx.map fun x => (x.1, Word.wrapI32 x.2)) (g.generateBatch pages)) :=
  ⟨fun start stop size quality hs => generateRange_submits g hd start stop size quality hs,
    fun pages => generateBatch_submits g hd pages⟩

/-- A generator on a three-page document has that document, and its ranges and batches submit
as said. -/
theorem ranges_and_batches_submit_in_order_on_letter :
    let g := (Engine.create {} none).replaceDocument (some (Synthetic.letter 3).source)
    g.document = some (Synthetic.letter 3).source ∧
      ((∀ start stop (size : Option Target) (quality : Option Float),
        (size.getD g.thumbnailSize).isEmpty = false →
        let v : Variant := ⟨size.getD g.thumbnailSize, (quality.map clampQuality).getD g.quality,
          g.renderMode⟩
        ((Synthetic.letter 3).source.numPages = 0 → g.generateRange start stop size quality = (.ok 0, g)) ∧
        (0 < (Synthetic.letter 3).source.numPages →
          let s := min start ((Synthetic.letter 3).source.numPages - 1)
          let e := min (max stop s) ((Synthetic.letter 3).source.numPages - 1)
          Submits g v ((List.range' s (e + 1 - s)).map fun p => (p, Word.wrapI32 (p - s)))
            (g.generateRange start stop size quality))) ∧
      (∀ pages : List Nat, ∃ order : List Nat, order.Nodup ∧
        (∀ p, p ∈ order ↔ p ∈ pages ∧ p < (Synthetic.letter 3).source.numPages) ∧
        order.Pairwise (g.batchBefore (Synthetic.letter 3).source) ∧
        Submits g ⟨g.thumbnailSize, g.quality, g.renderMode⟩
          (order.zipIdx.map fun x => (x.1, Word.wrapI32 x.2)) (g.generateBatch pages))) := by
  intro g
  have hd : g.document = some (Synthetic.letter 3).source := rfl
  exact ⟨hd, ranges_and_batches_submit_in_order g hd⟩

end Engine
end Generator
end Thumbnailer
