import Thumbnailer.Proofs.Schedule.DistinctWork

/-!
# The request queue is a list sorted by rank

Requests wait ordered by rank: priority first (lower leaves first), then the instant of
submission, then the sequence number the push assigned. `Queued.Precedes` is that strict
lexicographic order, and `Queue.Valid` is what every queue a run reaches satisfies
(`Queue.valid_run`): its entries are strictly sorted by rank, their sequence numbers are
distinct and below the next one, and no two are the same work.

So the queue is the list of its entries sorted by rank, and each operation is the
corresponding operation on that list:

* a push is refused, with nothing changed, exactly when the same work waits; otherwise the new
  entry, numbered above every entry before it, joins the entries (`push_accepted`), and
  `insertSorted` puts it in its place (`insertSorted_pairwise`);
* a pop takes the first entry, which precedes every other (`Valid.pop_spec`);
* a removal takes the entries matching a predicate, in rank order, and keeps the others in
  order; `clear` is the removal of everything;
* reprioritising a page rewrites the priority of exactly that page's entries and sorts again
  (`Valid.setPriority`); sequence numbers are distinct, so the sort leaves no tie
  (`pairwise_precedes`).

`size` and `containsPage` only read the queue. The main statement is `refines_sorted_by_rank`.
-/

namespace Thumbnailer
namespace Schedule

/-- `a` leaves strictly before `b`: a lower priority, or the same priority and an earlier
submission, or both the same and an earlier push. -/
def Queued.Precedes (a b : Queued) : Prop :=
  a.request.priority < b.request.priority ∨
    (a.request.priority = b.request.priority ∧ (a.request.submittedAt < b.request.submittedAt ∨
      (a.request.submittedAt = b.request.submittedAt ∧ a.seq < b.seq)))

namespace Queued

/-- The queue's comparison, as a proposition: lexicographic `≤` on ranks. -/
theorem le_iff {a b : Queued} :
    a.le b = true ↔ a.request.priority < b.request.priority ∨
      (a.request.priority = b.request.priority ∧ (a.request.submittedAt < b.request.submittedAt ∨
        (a.request.submittedAt = b.request.submittedAt ∧ a.seq ≤ b.seq))) := by
  unfold Queued.le rankLe Queued.rank
  dsimp only
  simp only [Bool.or_eq_true, Bool.and_eq_true, decide_eq_true_eq]

theorem le_trans {a b c : Queued} (h₁ : a.le b = true) (h₂ : b.le c = true) : a.le c = true := by
  rw [le_iff] at *
  omega

theorem le_total (a b : Queued) : (a.le b || b.le a) = true := by
  rw [Bool.or_eq_true, le_iff, le_iff]
  omega

/-- Not leaving before-or-with `a` is leaving strictly after it. -/
theorem le_eq_false_iff {a b : Queued} : b.le a = false ↔ a.Precedes b := by
  rw [← Bool.not_eq_true, le_iff, Precedes]
  omega

theorem le_of_precedes {a b : Queued} (h : a.Precedes b) : a.le b = true := by
  rw [le_iff]
  unfold Precedes at h
  omega

/-- Two entries with different sequence numbers never tie. -/
theorem precedes_of_le {a b : Queued} (h : a.le b = true) (hs : a.seq ≠ b.seq) : a.Precedes b := by
  rw [le_iff] at h
  unfold Precedes
  omega

theorem precedes_of_le_of_precedes {a b c : Queued} (h₁ : a.le b = true) (h₂ : b.Precedes c) :
    a.Precedes c := by
  rw [le_iff] at h₁
  unfold Precedes at *
  omega

end Queued

/-- Entries sorted by the queue's comparison and numbered apart are strictly sorted by rank. -/
theorem pairwise_precedes {l : List Queued} (hle : l.Pairwise fun a b => a.le b = true)
    (hs : (l.map (·.seq)).Nodup) : l.Pairwise Queued.Precedes :=
  (hle.and (List.pairwise_map.1 hs)).imp fun h => Queued.precedes_of_le h.1 h.2

namespace Queue

/-! ### Inserting in rank order -/

theorem mem_insertSorted {q x : Queued} {l : List Queued} : x ∈ insertSorted q l ↔ x = q ∨ x ∈ l :=
  (insertSorted_perm q l).mem_iff.trans List.mem_cons

/-- **Insertion keeps the entries sorted by rank**, for an entry numbered apart from all. -/
theorem insertSorted_pairwise {q : Queued} {l : List Queued} (h : l.Pairwise Queued.Precedes)
    (hq : ∀ x ∈ l, x.seq ≠ q.seq) : (insertSorted q l).Pairwise Queued.Precedes := by
  induction l with
  | nil => simp [insertSorted]
  | cons x xs ih =>
    obtain ⟨hx, hxs⟩ := List.pairwise_cons.1 h
    simp only [insertSorted]
    split
    · -- `q` goes in front of `x`, hence of everything after `x`
      rename_i hle
      have hqx : q.Precedes x := Queued.precedes_of_le hle (hq x List.mem_cons_self).symm
      refine List.pairwise_cons.2 ⟨fun y hy => ?_, h⟩
      rcases List.mem_cons.1 hy with rfl | hy
      · exact hqx
      · exact Queued.precedes_of_le_of_precedes hle (hx y hy)
    · -- `x` stays in front, and `q` goes somewhere behind it
      rename_i hle
      have hxq : x.Precedes q := Queued.le_eq_false_iff.1 (Bool.eq_false_iff.2 hle)
      refine List.pairwise_cons.2 ⟨fun y hy => ?_, ih hxs fun y hy => hq y (List.mem_cons_of_mem x hy)⟩
      rcases mem_insertSorted.1 hy with rfl | hy
      · exact hxq
      · exact hx y hy

/-! ### What every reachable queue satisfies -/

/-- The queue's entries are strictly sorted by rank and numbered apart below the next number,
and no two are the same work. -/
structure Valid (qu : Queue) : Prop where
  sorted : qu.items.Pairwise Queued.Precedes
  seqs : (qu.items.map (·.seq)).Nodup
  fresh : ∀ x ∈ qu.items, x.seq < qu.nextSeq
  distinct : DistinctWork qu.toList

theorem valid_empty : ({} : Queue).Valid :=
  ⟨List.Pairwise.nil, List.nodup_nil, fun _ h => (nomatch h), List.Pairwise.nil⟩

/-- **A push refused changes nothing**, and it is refused exactly when the same work waits. -/
theorem push_refused_iff {qu : Queue} {r : Request} :
    (qu.push r).1 = false ∧ (qu.push r).2 = qu ↔ ∃ x ∈ qu.toList, x.sameWork r = true := by
  constructor
  · intro ⟨h, _⟩
    by_contra hne
    have hf : ∀ x ∈ qu.toList, x.sameWork r = false := by simpa using hne
    rw [push_fresh hf] at h
    cases h
  · intro h
    rw [push_taken h]
    exact ⟨rfl, rfl⟩

/-- **A push accepted numbers the new entry above every entry that waits**, and adds it. -/
theorem push_accepted {qu : Queue} (hv : qu.Valid) {r : Request}
    (h : ¬∃ x ∈ qu.toList, x.sameWork r = true) :
    (qu.push r).1 = true ∧ (qu.push r).2.items.Perm (⟨r, qu.nextSeq⟩ :: qu.items) ∧
      (qu.push r).2.nextSeq = qu.nextSeq + 1 ∧ ∀ x ∈ qu.items, x.seq < qu.nextSeq := by
  have hf : ∀ x ∈ qu.toList, x.sameWork r = false := by simpa using h
  rw [push_fresh hf]
  exact ⟨rfl, insertSorted_perm _ _, rfl, hv.fresh⟩

theorem Valid.push {qu : Queue} (hv : qu.Valid) (r : Request) : (qu.push r).2.Valid := by
  by_cases h : ∃ x ∈ qu.toList, x.sameWork r = true
  · rwa [push_taken h]
  · have hf : ∀ x ∈ qu.toList, x.sameWork r = false := by simpa using h
    have hd := distinctWork_push hv.distinct r
    rw [push_fresh hf] at hd ⊢
    have hperm := insertSorted_perm ⟨r, qu.nextSeq⟩ qu.items
    have hnew : qu.nextSeq ∉ qu.items.map (·.seq) := fun hm => by
      obtain ⟨x, hx, hs⟩ := List.mem_map.1 hm
      exact absurd (hv.fresh x hx) (by omega)
    refine ⟨insertSorted_pairwise hv.sorted fun x hx => Nat.ne_of_lt (hv.fresh x hx), ?_,
      fun x hx => ?_, hd⟩
    · exact (hperm.map (·.seq)).nodup_iff.2 (List.nodup_cons.2 ⟨hnew, hv.seqs⟩)
    · rcases mem_insertSorted.1 hx with rfl | hx
      · exact Nat.lt_succ_self _
      · exact Nat.lt_succ_of_lt (hv.fresh x hx)

/-- **Popping takes the entry of least rank**: the first, which precedes every other. -/
theorem Valid.pop_spec {qu : Queue} (hv : qu.Valid) :
    (qu.items = [] ∧ qu.pop = (none, qu)) ∨
      ∃ x rest, qu.items = x :: rest ∧ qu.pop = (some x.request, { qu with items := rest }) ∧
        ∀ y ∈ rest, x.Precedes y := by
  rcases h : qu.items with _ | ⟨x, rest⟩
  · exact .inl ⟨rfl, by simp [pop, h]⟩
  · refine .inr ⟨x, rest, rfl, by simp [pop, h], ?_⟩
    have hs := hv.sorted
    rw [h] at hs
    exact (List.pairwise_cons.1 hs).1

theorem Valid.pop {qu : Queue} (hv : qu.Valid) : qu.pop.2.Valid := by
  rcases hv.pop_spec with ⟨-, hp⟩ | ⟨x, rest, hx, hp, -⟩
  · rwa [hp]
  · rw [hp]
    have hs := hv.sorted
    have hn := hv.seqs
    have hd := hv.distinct
    rw [hx] at hs hn
    simp only [toList, hx, List.map_cons] at hd
    exact ⟨(List.pairwise_cons.1 hs).2, (List.nodup_cons.1 hn).2,
      fun y hy => hv.fresh y (by simp [hx, hy]), (List.pairwise_cons.1 hd).2⟩

/-- **A removal returns the entries it removes in rank order**, and keeps the others in
order. -/
theorem Valid.removeWhere_spec {qu : Queue} (hv : qu.Valid) (p : Request → Bool) :
    (qu.removeWhere p).1 = (qu.items.filter (p ·.request)).map (·.request) ∧
      (qu.items.filter (p ·.request)).Pairwise Queued.Precedes ∧
      (qu.removeWhere p).2.items = qu.items.filter (!p ·.request) :=
  ⟨rfl, hv.sorted.sublist List.filter_sublist, rfl⟩

theorem Valid.removeWhere {qu : Queue} (hv : qu.Valid) (p : Request → Bool) :
    (qu.removeWhere p).2.Valid :=
  ⟨hv.sorted.sublist List.filter_sublist, hv.seqs.sublist (List.filter_sublist.map _),
    fun x hx => hv.fresh x (List.mem_of_mem_filter hx), distinctWork_removeWhere hv.distinct p⟩

/-- Reprioritising counts the waiting requests of the page. -/
theorem setPriority_fst (qu : Queue) (page : Nat) (priority : Int) :
    (qu.setPriority page priority).1 = (qu.toList.filter (·.page == page)).length := by
  simp [setPriority, toList, List.filter_map, Function.comp_def]

/-- **Reprioritising sorts the entries again by their new ranks.** Priorities change, sequence
numbers do not, so the entries stay numbered apart and the sort leaves no tie. -/
theorem Valid.setPriority {qu : Queue} (hv : qu.Valid) (page : Nat) (priority : Int) :
    (qu.setPriority page priority).2.Valid := by
  let f := fun (x : Queued) =>
    if x.request.page == page then { x with request := { x.request with priority } } else x
  have hseq : ∀ x, (f x).seq = x.seq := fun x => by
    simp only [f]
    split <;> rfl
  have hperm : ((qu.items.map f).mergeSort Queued.le).Perm (qu.items.map f) := List.mergeSort_perm _ _
  have hnodup : (((qu.items.map f).mergeSort Queued.le).map (·.seq)).Nodup := by
    refine (hperm.map (·.seq)).nodup_iff.2 ?_
    rw [List.map_map, show (·.seq) ∘ f = (·.seq) from funext hseq]
    exact hv.seqs
  refine ⟨pairwise_precedes ?_ hnodup, hnodup, fun x hx => ?_,
    distinctWork_setPriority hv.distinct page priority⟩
  · exact @List.pairwise_mergeSort _ Queued.le (fun _ _ _ => Queued.le_trans) Queued.le_total _
  · obtain ⟨y, hy, rfl⟩ := List.mem_map.1 (hperm.mem_iff.1 hx)
    rw [hseq]
    exact hv.fresh y hy

/-! ### Runs -/

/-- What can be done to a queue. `size` and `containsPage` only read it, so they are no events
of their own. -/
inductive Op where
  | push (r : Request)
  | pop
  | removeWhere (p : Request → Bool)
  | setPriority (page : Nat) (priority : Int)
  | clear

/-- Performs an operation. -/
def Op.step : Op → Queue → Queue
  | .push r, qu => (qu.push r).2
  | .pop, qu => qu.pop.2
  | .removeWhere p, qu => (qu.removeWhere p).2
  | .setPriority page priority, qu => (qu.setPriority page priority).2
  | .clear, qu => qu.clear.2

/-- The queue after a sequence of operations. -/
def run (qu : Queue) (ops : List Op) : Queue := ops.foldl (fun qu op => op.step qu) qu

theorem Valid.step {qu : Queue} (hv : qu.Valid) (op : Op) : (op.step qu).Valid := by
  cases op with
  | push r => exact hv.push r
  | pop => exact hv.pop
  | removeWhere p => exact hv.removeWhere p
  | setPriority page priority => exact hv.setPriority page priority
  | clear => exact hv.removeWhere _

/-- Numbers once handed out are never handed out again: the next number never goes down. -/
theorem nextSeq_le_step (qu : Queue) (op : Op) : qu.nextSeq ≤ (op.step qu).nextSeq := by
  cases op with
  | push r =>
    simp only [Op.step, push]
    split <;> simp
  | pop =>
    simp only [Op.step, pop]
    split <;> simp
  | removeWhere p | setPriority page priority | clear => exact Nat.le_refl _

/-- **Every queue a run reaches from an empty one is valid.** -/
theorem valid_run (ops : List Op) : (run {} ops).Valid := by
  unfold run
  exact List.foldlRecOn (motive := Valid) _ _ valid_empty fun qu hv op _ => hv.step op

end Queue

/-- **The request queue is a list sorted by rank.** In every queue a run of pushes, pops,
removals, reprioritisations and clears reaches from an empty queue:

* the entries are strictly sorted by (priority, submission instant, sequence number), and no
  two waiting requests are the same work;
* a push answers `false` and changes nothing exactly when the same work waits; otherwise it
  adds the request under the next sequence number, above every number handed out before (the
  next number never goes down);
* a pop takes the entry that precedes every other;
* a removal returns exactly the requests it removes, in rank order, and keeps the rest in
  order; clearing returns every request in order and leaves nothing;
* reprioritising a page counts that page's waiting requests, sets the priority of exactly
  those, and leaves the entries sorted by their new ranks, so later pops follow them. -/
theorem Queue.refines_sorted_by_rank (ops : List Queue.Op) :
    let qu := Queue.run {} ops
    (qu.items.Pairwise Queued.Precedes ∧ DistinctWork qu.toList) ∧
    (∀ r, (qu.push r).1 = false ∧ (qu.push r).2 = qu ↔ ∃ x ∈ qu.toList, x.sameWork r = true) ∧
    (∀ r, (¬∃ x ∈ qu.toList, x.sameWork r = true) →
      (qu.push r).1 = true ∧ (qu.push r).2.items.Perm (⟨r, qu.nextSeq⟩ :: qu.items) ∧
        (qu.push r).2.nextSeq = qu.nextSeq + 1 ∧ ∀ x ∈ qu.items, x.seq < qu.nextSeq) ∧
    (∀ op : Queue.Op, qu.nextSeq ≤ (op.step qu).nextSeq) ∧
    ((qu.items = [] ∧ qu.pop = (none, qu)) ∨
      ∃ x rest, qu.items = x :: rest ∧ qu.pop = (some x.request, { qu with items := rest }) ∧
        ∀ y ∈ rest, x.Precedes y) ∧
    (∀ p : Request → Bool,
      (qu.removeWhere p).1 = (qu.items.filter (p ·.request)).map (·.request) ∧
        (qu.items.filter (p ·.request)).Pairwise Queued.Precedes ∧
        (qu.removeWhere p).2.items = qu.items.filter (!p ·.request)) ∧
    (qu.clear.1 = qu.toList ∧ qu.clear.2.items = []) ∧
    (∀ page priority,
      (qu.setPriority page priority).1 = (qu.toList.filter (·.page == page)).length ∧
        (qu.setPriority page priority).2.toList.Perm
          (qu.toList.map fun r => if r.page == page then { r with priority } else r) ∧
        (qu.setPriority page priority).2.items.Pairwise Queued.Precedes) := by
  intro qu
  have hv : qu.Valid := Queue.valid_run ops
  refine ⟨⟨hv.sorted, hv.distinct⟩, fun r => Queue.push_refused_iff, fun r h => Queue.push_accepted hv h,
    Queue.nextSeq_le_step qu, hv.pop_spec, hv.removeWhere_spec, ?_, fun page priority =>
    ⟨Queue.setPriority_fst qu page priority, Queue.toList_setPriority_perm qu page priority,
      (hv.setPriority page priority).sorted⟩⟩
  simp [Queue.clear, Queue.removeWhere, Queue.toList]

end Schedule
end Thumbnailer
