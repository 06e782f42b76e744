import Thumbnailer.Schedule.Queue
import Thumbnailer.Proofs.Numeric.FloatDistance

/-!
# The queue never holds the same work twice

A push is refused when a waiting request is the same work as the new one, so the waiting
requests are pairwise distinct work (`DistinctWork`). Being the same work compares qualities
with a tolerance and is not transitive, but it is symmetric (`Request.sameWork_comm`), so the
property does not depend on the order the queue keeps, and every operation that reorders,
filters or pushes keeps it.

The admission loop pops requests and sets aside those whose page is busy, then pushes them
back. `foldl_push_perm` is why none is lost: requests that were distinct work while they waited
are still distinct from what waits when they come back, so every push is accepted.
-/

namespace Thumbnailer
namespace Schedule

/-- **Being the same work is symmetric**, the quality tolerance included. -/
theorem Request.sameWork_comm (r s : Request) : r.sameWork s = s.sameWork r := by
  have hp : (r.page == s.page) = (s.page == r.page) := BEq.comm
  have hs : (r.size == s.size) = (s.size == r.size) := BEq.comm
  simp only [Request.sameWork, hp, hs, Float.abs_sub_comm r.quality]

/-- No two of the requests are the same work. -/
def DistinctWork (rs : List Request) : Prop := rs.Pairwise fun a b => a.sameWork b = false

theorem DistinctWork.perm {rs ts : List Request} (hd : DistinctWork rs) (h : rs.Perm ts) :
    DistinctWork ts :=
  List.Pairwise.perm hd h fun hab => by rwa [Request.sameWork_comm]

theorem DistinctWork.sublist {rs ts : List Request} (hd : DistinctWork rs) (h : ts.Sublist rs) :
    DistinctWork ts :=
  List.Pairwise.sublist h hd

namespace Queue

theorem length_toList (qu : Queue) : qu.toList.length = qu.size := by
  simp [toList, size]

/-- Popping takes the first waiting request. -/
theorem toList_pop {qu q : Queue} {r : Request} (h : qu.pop = (some r, q)) :
    qu.toList = r :: q.toList := by
  unfold pop at h
  split at h
  · simp at h
  · rename_i x xs hx
    simp only [Prod.mk.injEq, Option.some.injEq] at h
    obtain ⟨rfl, rfl⟩ := h
    simp [toList, hx]

theorem insertSorted_perm (q : Queued) (l : List Queued) : (insertSorted q l).Perm (q :: l) := by
  induction l with
  | nil => rfl
  | cons x xs ih =>
    simp only [insertSorted]
    split
    · exact List.Perm.refl _
    · exact (ih.cons x).trans (List.Perm.swap q x xs)

/-- A request that is no waiting request's work is queued. -/
theorem push_fresh {qu : Queue} {r : Request} (h : ∀ x ∈ qu.toList, x.sameWork r = false) :
    qu.push r = (true, { items := insertSorted ⟨r, qu.nextSeq⟩ qu.items, nextSeq := qu.nextSeq + 1 }) := by
  have hany : qu.items.any (·.request.sameWork r) = false := by
    simpa [toList] using h
  simp [push, hany]

/-- A request whose work already waits is refused, and the queue stays as it is. -/
theorem push_taken {qu : Queue} {r : Request} (h : ∃ x ∈ qu.toList, x.sameWork r = true) :
    qu.push r = (false, qu) := by
  have hany : qu.items.any (·.request.sameWork r) = true := by
    obtain ⟨x, hx, hw⟩ := h
    obtain ⟨q, hq, rfl⟩ := List.mem_map.1 hx
    exact List.any_eq_true.2 ⟨q, hq, hw⟩
  simp [push, hany]

theorem toList_push_perm {qu : Queue} {r : Request} (h : ∀ x ∈ qu.toList, x.sameWork r = false) :
    (qu.push r).2.toList.Perm (r :: qu.toList) := by
  rw [push_fresh h]
  exact (insertSorted_perm _ _).map (·.request)

/-- A push adds one request exactly when it answers `true`. -/
theorem size_push (qu : Queue) (r : Request) :
    (qu.push r).2.size = qu.size + if (qu.push r).1 then 1 else 0 := by
  by_cases h : ∃ x ∈ qu.toList, x.sameWork r = true
  · simp [push_taken h]
  · have hf : ∀ x ∈ qu.toList, x.sameWork r = false := by simpa using h
    rw [push_fresh hf]
    simp only [if_true, size]
    rw [(insertSorted_perm _ _).length_eq, List.length_cons]

theorem distinctWork_push {qu : Queue} (hd : DistinctWork qu.toList) (r : Request) :
    DistinctWork (qu.push r).2.toList := by
  by_cases h : ∃ x ∈ qu.toList, x.sameWork r = true
  · rwa [push_taken h]
  · have hf : ∀ x ∈ qu.toList, x.sameWork r = false := by simpa using h
    refine DistinctWork.perm ?_ (toList_push_perm hf).symm
    exact List.pairwise_cons.2 ⟨fun x hx => by rw [Request.sameWork_comm]; exact hf x hx, hd⟩

theorem size_of_push_true {qu q : Queue} {r : Request} (h : qu.push r = (true, q)) :
    q.size = qu.size + 1 := by
  have hs := size_push qu r
  simp only [h, if_true] at hs
  exact hs

theorem distinctWork_of_push {qu q : Queue} {r : Request} {b : Bool} (hd : DistinctWork qu.toList)
    (h : qu.push r = (b, q)) : DistinctWork q.toList := by
  have hq := distinctWork_push hd r
  rwa [h] at hq

theorem toList_removeWhere (qu : Queue) (p : Request → Bool) :
    (qu.removeWhere p).2.toList = qu.toList.filter (!p ·) := by
  simp [removeWhere, toList, List.filter_map, Function.comp_def]

theorem removeWhere_fst (qu : Queue) (p : Request → Bool) :
    (qu.removeWhere p).1 = qu.toList.filter p := by
  simp [removeWhere, toList, List.filter_map, Function.comp_def]

/-- What is removed and what stays make up the queue. -/
theorem size_removeWhere (qu : Queue) (p : Request → Bool) :
    (qu.removeWhere p).1.length + (qu.removeWhere p).2.size = qu.size := by
  rw [← length_toList, toList_removeWhere, removeWhere_fst, ← length_toList,
    @List.length_eq_countP_add_countP _ p qu.toList, List.countP_eq_length_filter,
    List.countP_eq_length_filter]
  simp

theorem distinctWork_removeWhere {qu : Queue} (hd : DistinctWork qu.toList) (p : Request → Bool) :
    DistinctWork (qu.removeWhere p).2.toList := by
  rw [toList_removeWhere]
  exact hd.sublist List.filter_sublist

/-- Reprioritising reorders the queue and changes priorities only, which no notion of work
reads. -/
theorem toList_setPriority_perm (qu : Queue) (page : Nat) (priority : Int) :
    (qu.setPriority page priority).2.toList.Perm
      (qu.toList.map fun r => if r.page == page then { r with priority } else r) := by
  simp only [setPriority, toList]
  refine ((List.mergeSort_perm _ _).map _).trans (List.Perm.of_eq ?_)
  simp only [List.map_map]
  apply List.map_congr_left
  intro x _
  by_cases h : x.request.page = page <;> simp [h]

theorem size_setPriority (qu : Queue) (page : Nat) (priority : Int) :
    (qu.setPriority page priority).2.size = qu.size := by
  simp [setPriority, size]

theorem distinctWork_setPriority {qu : Queue} (hd : DistinctWork qu.toList) (page : Nat)
    (priority : Int) : DistinctWork (qu.setPriority page priority).2.toList := by
  refine DistinctWork.perm ?_ (toList_setPriority_perm qu page priority).symm
  refine List.pairwise_map.2 (hd.imp fun {a b} hab => ?_)
  by_cases ha : a.page == page <;> by_cases hb : b.page == page <;>
    simpa [ha, hb, Request.sameWork] using hab

/-- **Requests pushed back all come back.** When the requests pushed, together with the
waiting ones, are distinct work, every push is accepted: the queue ends up holding exactly
what waited and what was pushed. -/
theorem foldl_push_perm (qu : Queue) (ds : List Request) (hd : DistinctWork (qu.toList ++ ds)) :
    (ds.foldl (fun q r => (q.push r).2) qu).toList.Perm (qu.toList ++ ds) := by
  induction ds generalizing qu with
  | nil => simp
  | cons d ds ih =>
    have hf : ∀ x ∈ qu.toList, x.sameWork d = false :=
      fun x hx => (List.pairwise_append.1 hd).2.2 x hx d List.mem_cons_self
    -- after the push, `d` waits in front of the rest; the order does not matter
    have hperm : ((qu.push d).2.toList ++ ds).Perm (qu.toList ++ d :: ds) :=
      ((toList_push_perm hf).append_right ds).trans List.perm_middle.symm
    exact (ih _ (hd.perm hperm.symm)).trans hperm

end Queue

end Schedule
end Thumbnailer
