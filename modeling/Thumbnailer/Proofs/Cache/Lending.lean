import Thumbnailer.Cache.Pool
import Mathlib

/-!
# Lending out pool buffers

A caller borrows a buffer through a guard that remembers the id of the pool entry it came from,
and dropping the guard hands the entry back (`Pool.release`). `Pool.Lending` pairs a pool with the
ids held by its live guards, and `Lending.run` performs any sequence of acquisitions, drops of any
guard in any order, sweeps, new budgets and clears.

`Lends` is what every run keeps. Entry ids are distinct and below the next id; the guards hold
exactly the ids of the entries lent out, each once (`lent`, a permutation); and a pool over its
budget has every entry lent out (`budget`). The removals other than a release take free entries
only, so they keep the lent entries (`lent_sweepAt`, `lent_setCapacity`, `lent_clear`), and
pruning stops only within budget or with nothing free (`prune_exits`). A release over budget drops
its entry and one within budget frees it; either way the budget condition survives.

Main statement: `guards_match_lent_entries`.
-/

namespace Thumbnailer
namespace Cache

/-- Removing by moving the last element into the gap is removing, up to order. -/
theorem swapRemove_perm {α : Type} {l : List α} {i : Nat} (h : i < l.length) :
    (swapRemove l i).Perm (l.eraseIdx i) := by
  unfold swapRemove
  rcases List.eq_nil_or_concat' l with rfl | ⟨init, last, rfl⟩
  · simp at h
  · rw [List.getLast?_concat]
    dsimp only
    split
    · rename_i hi
      rw [List.length_append, List.length_singleton] at h hi
      -- the last element moves into slot `i`
      rw [List.set_append_left _ _ (by omega), List.dropLast_concat,
        List.eraseIdx_append_of_lt_length (by omega), List.set_eq_take_append_cons_drop, if_pos (by omega),
        List.eraseIdx_eq_take_drop_succ, List.append_assoc]
      exact List.Perm.append_left _ (List.perm_append_singleton _ _).symm
    · rename_i hi
      rw [List.length_append, List.length_singleton] at h hi
      rw [← List.dropLast_eq_eraseIdx (by simp; omega)]

/-- A list cut at slot `i`, and what writing, erasing or rewriting that slot makes of it. -/
theorem exists_split {α : Type} {l : List α} {i : Nat} (hi : i < l.length) :
    ∃ pre post, l = pre ++ l[i] :: post ∧ (∀ y, l.set i y = pre ++ y :: post) ∧
      l.eraseIdx i = pre ++ post ∧ ∀ f, l.modify i f = pre ++ f l[i] :: post :=
  ⟨l.take i, l.drop (i + 1), by rw [← List.drop_eq_getElem_cons hi, List.take_append_drop],
    fun y => by rw [List.set_eq_take_append_cons_drop, if_pos hi], List.eraseIdx_eq_take_drop_succ l i,
    fun _ => List.modify_eq_take_cons_drop hi⟩

namespace Pool

/-! ### The scan for an entry -/

theorem argMinBy_append_of_not (es : List Entry) {e : Entry} {ok : Entry → Bool}
    (key : Entry → Nat × Nat) (he : ok e = false) : argMinBy (es ++ [e]) ok key = argMinBy es ok key := by
  simp only [argMinBy, argMinStep, List.zipIdx_append, List.foldl_append, List.zipIdx_cons, List.zipIdx_nil,
    List.foldl_cons, List.foldl_nil, he, Bool.not_false, if_true]

theorem argMinBy_append_of_ok (es : List Entry) {e : Entry} {ok : Entry → Bool}
    (key : Entry → Nat × Nat) (he : ok e = true) :
    argMinBy (es ++ [e]) ok key = some es.length ∨
      ((argMinBy es ok key).isSome ∧ argMinBy (es ++ [e]) ok key = argMinBy es ok key) := by
  simp only [argMinBy, argMinStep, List.zipIdx_append, List.foldl_append, List.zipIdx_cons, List.zipIdx_nil,
    List.foldl_cons, List.foldl_nil, he, Bool.not_true, Bool.false_eq_true, if_false, Nat.zero_add]
  -- the new entry wins when nothing passed before or it ranks first; otherwise the old winner stays
  split
  · left; rfl
  · rename_i hfold
    rw [hfold]
    split
    · left; rfl
    · right; simp

/-- The index `argMinBy` returns is in range, and its entry passes the test. -/
theorem argMinBy_eq_some {es : List Entry} {ok : Entry → Bool} {key : Entry → Nat × Nat} {i : Nat}
    (h : argMinBy es ok key = some i) : ∃ hi : i < es.length, ok es[i] = true := by
  induction es using List.reverseRecOn generalizing i with
  | nil => cases h
  | append_singleton es e ih =>
    cases he : ok e
    · rw [argMinBy_append_of_not es key he] at h
      obtain ⟨hi, hok⟩ := ih h
      exact ⟨by simp; omega, by rw [List.getElem_append_left hi]; exact hok⟩
    · rcases argMinBy_append_of_ok es key he with h' | ⟨-, h'⟩
      · rw [h'] at h
        cases h
        exact ⟨by simp, by simp [he]⟩
      · rw [h'] at h
        obtain ⟨hi, hok⟩ := ih h
        exact ⟨by simp; omega, by rw [List.getElem_append_left hi]; exact hok⟩

/-- `argMinBy` returns nothing only when no entry passes the test. -/
theorem argMinBy_eq_none {es : List Entry} {ok : Entry → Bool} {key : Entry → Nat × Nat}
    (h : argMinBy es ok key = none) : ∀ e ∈ es, ok e = false := by
  induction es using List.reverseRecOn with
  | nil => exact fun _ he => absurd he List.not_mem_nil
  | append_singleton es e ih =>
    cases he : ok e
    · rw [argMinBy_append_of_not es key he] at h
      intro x hx
      rcases List.mem_append.1 hx with hx | hx
      · exact ih h x hx
      · rw [List.mem_singleton.1 hx]
        exact he
    · rcases argMinBy_append_of_ok es key he with h' | ⟨hs, h'⟩
      · rw [h'] at h
        cases h
      · rw [h'] at h
        rw [h] at hs
        cases hs

/-! ### Lent entries -/

/-- The ids of the entries lent out, in entry order. -/
def lentIds (es : List Entry) : List Nat := (es.filter (·.inUse)).map (·.id)

@[simp] theorem lentIds_append (es fs : List Entry) : lentIds (es ++ fs) = lentIds es ++ lentIds fs := by
  simp [lentIds]

theorem lentIds_cons_of_lent {e : Entry} (h : e.inUse = true) (es : List Entry) :
    lentIds (e :: es) = e.id :: lentIds es := by
  simp [lentIds, h]

theorem lentIds_cons_of_free {e : Entry} (h : e.inUse = false) (es : List Entry) :
    lentIds (e :: es) = lentIds es := by
  simp [lentIds, h]

theorem lentIds_perm {es fs : List Entry} (h : (es.filter (·.inUse)).Perm (fs.filter (·.inUse))) :
    (lentIds es).Perm (lentIds fs) :=
  h.map _

/-- Taking out a free entry by moving the last one into its slot keeps the lent entries. -/
theorem lent_swapRemove_free {es : List Entry} {i : Nat} (hi : i < es.length) (hfree : es[i].inUse = false) :
    ((swapRemove es i).filter (·.inUse)).Perm (es.filter (·.inUse)) := by
  obtain ⟨pre, post, hes, -, herase, -⟩ := exists_split hi
  refine ((swapRemove_perm hi).filter _).trans ?_
  rw [herase]
  conv => rhs; rw [hes]
  simp [List.filter_append, hfree]

/-! ### What a run keeps -/

/-- Appending a number above all others keeps a list duplicate-free. -/
theorem nodup_append_of_lt {l : List Nat} {n : Nat} (h : l.Nodup) (hlt : ∀ a ∈ l, a < n) :
    (l ++ [n]).Nodup := by
  rw [List.nodup_append]
  refine ⟨h, List.nodup_singleton n, fun a ha b hb => ?_⟩
  rw [List.mem_singleton] at hb
  have := hlt a ha
  omega

/-- The pool and its live guards agree: ids are distinct and below the next id, the guards hold
the ids of the lent entries, each once. -/
structure Tracks (p : Pool) (guards : List Nat) : Prop where
  nodup : (p.entries.map (·.id)).Nodup
  fresh : ∀ e ∈ p.entries, e.id < p.nextId
  lent : guards.Perm (lentIds p.entries)

/-- What every run keeps: the guards track the pool, and a pool over its budget has every entry
lent out. -/
structure Lends (p : Pool) (guards : List Nat) : Prop extends Tracks p guards where
  budget : p.capacity < p.reserved → ∀ e ∈ p.entries, e.inUse = true

theorem reserved_eq_sum (p : Pool) : p.reserved = (p.entries.map (·.reserved)).sum := by
  unfold reserved
  induction p.entries with
  | nil => rfl
  | cons e es ih => simp [ih]

/-- Dropping entries, none of them lent, keeps the tracking. -/
theorem Tracks.shrink {p p' : Pool} {guards : List Nat} (h : Tracks p guards)
    (hsub : p'.entries.Subperm p.entries)
    (hlent : (p'.entries.filter (·.inUse)).Perm (p.entries.filter (·.inUse))) (hnext : p'.nextId = p.nextId) :
    Tracks p' guards := by
  obtain ⟨l, hp, hs⟩ := hsub
  refine ⟨(hp.map _).nodup_iff.1 (h.nodup.sublist (hs.map _)), fun e he => ?_,
    h.lent.trans (lentIds_perm hlent).symm⟩
  rw [hnext]
  exact h.fresh e (hs.subset (hp.symm.subset he))

/-! ### Pruning -/

/-- **What every pruning round keeps, pruning keeps.** A round takes out a free entry. -/
theorem prune_induction {P : Pool → Prop}
    (hround : ∀ (q : Pool) (i : Nat) (hi : i < q.entries.length), q.entries[i].inUse = false → P q →
      P { q with entries := swapRemove q.entries i })
    {p : Pool} (hp : P p) : P (prune p).2 := by
  suffices H : ∀ fuel n (q : Pool), P q → P (prune.go fuel n q).2 from H _ 0 p hp
  intro fuel
  induction fuel with
  | zero => exact fun _ _ hq => hq
  | succ fuel ih =>
    intro n q hq
    simp only [prune.go]
    split
    · exact hq
    · split
      · exact hq
      · rename_i i hi
        obtain ⟨hlt, hfree⟩ := argMinBy_eq_some hi
        exact ih _ _ (hround q i hlt (by simpa using hfree) hq)

/-- **Pruning stops within budget, or with every entry lent out**: each round takes out an entry,
and there are only as many rounds as entries. -/
theorem prune_exits (p : Pool) :
    (prune p).2.reserved ≤ (prune p).2.capacity ∨ ∀ e ∈ (prune p).2.entries, e.inUse = true := by
  unfold prune
  -- the rounds left always cover the entries
  suffices H : ∀ fuel n (q : Pool), q.entries.length ≤ fuel →
      (prune.go fuel n q).2.reserved ≤ (prune.go fuel n q).2.capacity ∨
        ∀ e ∈ (prune.go fuel n q).2.entries, e.inUse = true from H _ 0 p (Nat.le_refl _)
  intro fuel
  induction fuel with
  | zero =>
    intro n q hq
    show q.reserved ≤ q.capacity ∨ ∀ e ∈ q.entries, e.inUse = true
    rw [List.eq_nil_of_length_eq_zero (Nat.le_zero.1 hq)]
    exact .inr fun _ he => absurd he List.not_mem_nil
  | succ fuel ih =>
    intro n q hq
    simp only [prune.go]
    split
    · rename_i hfit
      exact .inl hfit
    · split
      · rename_i hnone
        exact .inr fun e he => by simpa using argMinBy_eq_none hnone e he
      · rename_i i hi
        obtain ⟨hlt, -⟩ := argMinBy_eq_some hi
        refine ih (n + 1) _ ?_
        show (swapRemove q.entries i).length ≤ fuel
        rw [swapRemove_length q.entries i hlt]
        omega

/-- Pruning takes out free entries only. -/
theorem lent_prune (p : Pool) :
    ((prune p).2.entries.filter (·.inUse)).Perm (p.entries.filter (·.inUse)) :=
  prune_induction (P := fun q => (q.entries.filter (·.inUse)).Perm (p.entries.filter (·.inUse)))
    (fun _ _ hi hfree hq => (lent_swapRemove_free hi hfree).trans hq) (List.Perm.refl _)

theorem prune_nextId (p : Pool) : (prune p).2.nextId = p.nextId :=
  prune_induction (P := fun q => q.nextId = p.nextId) (fun _ _ _ _ hq => hq) rfl

theorem prune_capacity (p : Pool) : (prune p).2.capacity = p.capacity :=
  prune_induction (P := fun q => q.capacity = p.capacity) (fun _ _ _ _ hq => hq) rfl

/-- Pruning leaves a reordering of a part of the entries. -/
theorem prune_subperm (p : Pool) : (prune p).2.entries.Subperm p.entries :=
  prune_induction (P := fun q => q.entries.Subperm p.entries)
    (fun _ i hi _ hq => (swapRemove_perm hi).subperm.trans ((List.eraseIdx_sublist _ i).subperm.trans hq))
    (List.Subperm.refl _)

/-- **After pruning the pool is tracked and within its budget condition.** -/
theorem Tracks.prune {q : Pool} {guards : List Nat} (h : Tracks q guards) : Lends (prune q).2 guards where
  toTracks := h.shrink (prune_subperm q) (lent_prune q) (prune_nextId q)
  budget hover := by
    rcases prune_exits q with hfit | hall
    · omega
    · exact hall

/-! ### The removals other than a release -/

/-- Sweeping drops idle free entries and then prunes: no lent entry goes. -/
theorem lent_sweepAt (p : Pool) (now : Instant) :
    ((p.sweepAt now).2.entries.filter (·.inUse)).Perm (p.entries.filter (·.inUse)) := by
  refine (lent_prune _).trans ?_
  -- the idle test keeps every lent entry
  rw [List.filter_filter]
  exact .of_eq (List.filter_congr fun e _ => by cases e.inUse <;> rfl)

theorem lent_setCapacity (p : Pool) (capacity : Nat) :
    ((p.setCapacity capacity).entries.filter (·.inUse)).Perm (p.entries.filter (·.inUse)) :=
  lent_prune _

theorem lent_clear (p : Pool) : p.clear.entries.filter (·.inUse) = p.entries.filter (·.inUse) :=
  List.filter_filter.trans (List.filter_congr fun e _ => by cases e.inUse <;> rfl)

theorem Lends.sweepAt {p : Pool} {guards : List Nat} (h : Lends p guards) (now : Instant) :
    Lends (p.sweepAt now).2 guards := by
  refine Tracks.prune (h.shrink ?_ ?_ rfl)
  · exact (List.filter_sublist).subperm
  · rw [List.filter_filter]
    exact .of_eq (List.filter_congr fun e _ => by cases e.inUse <;> rfl)

theorem Lends.setCapacity {p : Pool} {guards : List Nat} (h : Lends p guards) (capacity : Nat) :
    Lends (p.setCapacity capacity) guards :=
  Tracks.prune (q := { p with capacity := clampPoolSize capacity }) ⟨h.nodup, h.fresh, h.lent⟩

/-- Clearing keeps only lent entries, so the budget condition holds whatever is reserved. -/
theorem Lends.clear {p : Pool} {guards : List Nat} (h : Lends p guards) : Lends p.clear guards where
  toTracks := h.shrink (List.filter_sublist).subperm (.of_eq (lent_clear p)) rfl
  budget _ _ he := (List.mem_filter.1 he).2

/-! ### Acquiring and releasing -/

/-- What an acquisition does: it lends a free entry that is large enough, refuses, or makes a
new lent entry within the budget. -/
theorem acquire_eq_ok {p p' : Pool} {w h : Nat} {now : Instant} {r : Option Nat}
    (hacq : p.acquire w h now = .ok (r, p')) :
    p'.capacity = p.capacity ∧
    ((∃ (i : Nat) (hi : i < p.entries.length), p.entries[i].inUse = false ∧ r = some p.entries[i].id ∧
        p'.nextId = p.nextId ∧ p'.entries = p.entries.set i { p.entries[i] with inUse := true }) ∨
      (r = none ∧ p'.nextId = p.nextId ∧ p'.entries = p.entries) ∨
      (∃ required, p.reserved + required ≤ p.capacity ∧ r = some p.nextId ∧
        p'.nextId = p.nextId + 1 ∧ p'.entries = p.entries ++ [⟨p.nextId, required, now, true⟩])) := by
  unfold acquire at hacq
  rcases hmul : checkedMul (w * h) 4 with _ | required
  · simp [hmul, bind, Except.bind] at hacq
  · simp only [hmul, bind, Except.bind] at hacq
    split at hacq
    · rename_i i hi
      obtain ⟨hlt, hok⟩ := argMinBy_eq_some hi
      simp only [pure, Except.pure, Except.ok.injEq, Prod.mk.injEq] at hacq
      obtain ⟨rfl, rfl⟩ := hacq
      have hfree : p.entries[i].inUse = false := by
        simp only [Bool.and_eq_true, Bool.not_eq_true'] at hok
        exact hok.1
      exact ⟨rfl, .inl ⟨i, hlt, hfree, by simp [List.getElem?_eq_getElem hlt], rfl,
        by simp [List.getElem?_eq_getElem hlt]⟩⟩
    · rcases hadd : checkedAdd p.reserved required with _ | total
      · simp [hadd] at hacq
      · have htotal := eq_add_of_checkedAdd_eq_ok hadd
        simp only [hadd] at hacq
        split at hacq
        · simp only [pure, Except.pure, Except.ok.injEq, Prod.mk.injEq] at hacq
          obtain ⟨rfl, rfl⟩ := hacq
          exact ⟨rfl, .inr (.inl ⟨rfl, rfl, rfl⟩)⟩
        · rename_i hfit
          simp only [pure, Except.pure, Except.ok.injEq, Prod.mk.injEq] at hacq
          obtain ⟨rfl, rfl⟩ := hacq
          exact ⟨rfl, .inr (.inr ⟨required, by omega, rfl, rfl, rfl⟩)⟩

/-- The entry a guard's id names is found by the scan a release makes, and it is lent out. -/
theorem Tracks.find_lent {p : Pool} {guards : List Nat} (h : Tracks p guards) {id : Nat} (hid : id ∈ guards) :
    ∃ (i : Nat) (hi : i < p.entries.length), p.entries.findIdx? (·.id = id) = some i ∧
      p.entries[i].id = id ∧ p.entries[i].inUse = true := by
  obtain ⟨e, ⟨he, hlent⟩, hid⟩ : ∃ e, (e ∈ p.entries ∧ e.inUse = true) ∧ e.id = id := by
    simpa [lentIds] using h.lent.subset hid
  obtain ⟨i, hfind⟩ : ∃ i, p.entries.findIdx? (·.id = id) = some i := by
    rw [← Option.isSome_iff_exists, List.findIdx?_isSome]
    exact List.any_eq_true.2 ⟨e, he, by simp [hid]⟩
  obtain ⟨hi, hfound, -⟩ := List.findIdx?_eq_some_iff_getElem.1 hfind
  have hfound : p.entries[i].id = id := by simpa using hfound
  -- ids are distinct, so the entry found is the lent one
  have heq : p.entries[i] = e :=
    List.inj_on_of_nodup_map h.nodup (List.getElem_mem hi) he (hfound.trans hid.symm)
  exact ⟨i, hi, hfind, hfound, heq ▸ hlent⟩

theorem Lends.perm {p : Pool} {guards guards' : List Nat} (h : Lends p guards) (hg : guards.Perm guards') :
    Lends p guards' :=
  { h with lent := hg.symm.trans h.lent }

/-- **Acquiring keeps what runs keep**, the new guard holding the id returned. -/
theorem Lends.acquire {p p' : Pool} {guards : List Nat} {w h : Nat} {r : Option Nat}
    {now : Instant} (hp : Lends p guards) (hacq : p.acquire w h now = .ok (r, p')) :
    Lends p' (guards ++ r.toList) := by
  obtain ⟨hcap, hreuse | ⟨rfl, hnext, hentries⟩ | ⟨required, hfit, rfl, hnext, hentries⟩⟩ := acquire_eq_ok hacq
  · -- a free entry is lent again: ids and reservations stay, the entry joins the lent ones
    obtain ⟨i, hi, hfree, rfl, hnext, hentries⟩ := hreuse
    obtain ⟨pre, post, hes, hset, -, -⟩ := exists_split hi
    have hx := List.getElem_mem hi
    generalize p.entries[i] = x at hfree hentries hes hx ⊢
    have hids : p'.entries.map (·.id) = p.entries.map (·.id) := by
      rw [hentries, hset, hes]
      simp
    have hres : p'.reserved = p.reserved := by
      rw [reserved_eq_sum, reserved_eq_sum, hentries, hset, hes]
      simp
    refine ⟨⟨hids ▸ hp.nodup, fun e he => ?_, ?_⟩, fun hover => ?_⟩
    · rw [hnext]
      rw [hentries] at he
      rcases List.mem_or_eq_of_mem_set he with he | rfl
      · exact hp.fresh e he
      · exact hp.fresh x hx
    · have hlent := hp.lent
      rw [hes, lentIds_append, lentIds_cons_of_free hfree] at hlent
      rw [hentries, hset, lentIds_append, lentIds_cons_of_lent rfl, Option.toList_some]
      dsimp only
      exact (hlent.append_right _).trans ((List.perm_append_singleton _ _).trans List.perm_middle.symm)
    · -- over budget every entry was lent, yet this one was free
      rw [hres, hcap] at hover
      exact absurd (hp.budget hover x hx) (by simp [hfree])
  · exact ⟨⟨hentries ▸ hp.nodup, hentries ▸ hnext ▸ hp.fresh, by simpa [hentries] using hp.lent⟩,
      fun hover => hentries ▸ hp.budget (by rw [reserved_eq_sum, hentries, ← reserved_eq_sum] at hover; omega)⟩
  · -- a new entry takes the next id and fits the budget
    have hres : p'.reserved = p.reserved + required := by
      rw [reserved_eq_sum, reserved_eq_sum, hentries]
      simp
    refine ⟨⟨?_, fun e he => ?_, ?_⟩, fun hover => by omega⟩
    · rw [hentries, List.map_append]
      refine nodup_append_of_lt hp.nodup fun a ha => ?_
      obtain ⟨e, he, rfl⟩ := List.mem_map.1 ha
      exact hp.fresh e he
    · rw [hnext]
      rw [hentries, List.mem_append, List.mem_singleton] at he
      rcases he with he | rfl
      · exact Nat.lt_succ_of_lt (hp.fresh e he)
      · exact Nat.lt_succ_self _
    · rw [hentries, lentIds_append, Option.toList_some]
      exact hp.lent.append_right _ |>.trans (by simp [lentIds])

/-- **Releasing the id a guard held keeps what runs keep.** Over budget the entry is dropped, and
every entry was lent already; within budget it is freed and the reservations stay. -/
theorem Lends.release {p : Pool} {guards : List Nat} {id : Nat} (hp : Lends p (id :: guards)) (now : Instant) :
    Lends (p.release id now) guards := by
  obtain ⟨i, hi, hfind, hid, hlent⟩ := hp.find_lent List.mem_cons_self
  obtain ⟨pre, post, hes, -, herase, hmodify⟩ := exists_split hi
  have hx := List.getElem_mem hi
  -- the entry found is `x`, cut out of the middle of the entries
  generalize p.entries[i] = x at hid hlent hes hx hmodify
  have hguards : guards.Perm (lentIds (pre ++ post)) := by
    have h := hp.lent
    rw [hes, lentIds_append, lentIds_cons_of_lent hlent, hid] at h
    rw [lentIds_append]
    exact (h.trans List.perm_middle).cons_inv
  have hrest : (pre ++ post).Sublist p.entries := by
    rw [hes]
    exact (List.sublist_cons_self _ _).append_left pre
  unfold Pool.release
  rw [hfind]
  dsimp only
  split
  · rename_i hover
    -- over budget: the entry goes, and every entry left was lent
    have hperm := swapRemove_perm hi
    rw [herase] at hperm
    refine ⟨⟨(hperm.map _).nodup_iff.2 (hp.nodup.sublist (hrest.map _)),
      fun e he => hp.fresh e (hrest.subset (hperm.subset he)),
      hguards.trans (lentIds_perm (hperm.filter _)).symm⟩,
      fun _ e he => hp.budget hover e (hrest.subset (hperm.subset he))⟩
  · rename_i hfit
    -- within budget: the entry is freed in place, ids and reservations stay
    rw [hmodify]
    have hnodup := hp.nodup
    rw [hes] at hnodup
    refine ⟨⟨by simpa using hnodup, fun e he => ?_, ?_⟩, fun hover => ?_⟩
    · simp only [List.mem_append, List.mem_cons] at he
      rcases he with he | rfl | he
      · exact hp.fresh e (by rw [hes]; simp [he])
      · exact hp.fresh x hx
      · exact hp.fresh e (by rw [hes]; simp [he])
    · rw [lentIds_append, lentIds_cons_of_free rfl, ← lentIds_append]
      exact hguards
    · rw [reserved_eq_sum] at hover hfit
      rw [hes] at hfit
      simp at hover hfit
      omega

/-- With no guard left, nothing is lent, so the pool is within its budget. -/
theorem Lends.reserved_le_of_nil {p : Pool} (h : Lends p []) : p.reserved ≤ p.capacity := by
  by_contra hover
  have hall := h.budget (by omega)
  -- every entry is lent, and no entry is: there are none
  have hnone : p.entries.filter (·.inUse) = [] := by
    have := h.lent.symm.eq_nil
    simpa [lentIds] using this
  have hnil : p.entries = [] := by
    rw [← List.filter_eq_self.2 hall]
    exact hnone
  rw [reserved_eq_sum, hnil] at hover
  simp at hover

theorem Tracks.nodup_guards {p : Pool} {guards : List Nat} (h : Tracks p guards) : guards.Nodup :=
  h.lent.nodup_iff.2 (h.nodup.sublist (List.filter_sublist.map _))

end Pool

/-! ### Guards -/

namespace Lent

/-- What every run keeps: the pool lends exactly to the guards held, whose handles are distinct
and below the next handle. -/
structure Sound (s : Lent) : Prop where
  lends : Pool.Lends s.pool (s.held.map (·.2))
  handles : (s.held.map (·.1)).Nodup
  fresh : ∀ g ∈ s.held, g.1 < s.next

theorem Sound.acquire {s s' : Lent} {w h : Nat} {now : Instant} {r : Option Nat} (hs : Sound s)
    (hacq : s.acquire w h now = .ok (r, s')) : Sound s' := by
  unfold Lent.acquire at hacq
  rcases hpool : s.pool.acquire w h now with _ | ⟨_ | id, p⟩
  · simp [hpool, bind, Except.bind] at hacq
  · simp only [hpool, bind, Except.bind, pure, Except.pure, Except.ok.injEq, Prod.mk.injEq] at hacq
    obtain ⟨-, rfl⟩ := hacq
    exact ⟨by simpa using hs.lends.acquire hpool, hs.handles, hs.fresh⟩
  · simp only [hpool, bind, Except.bind, pure, Except.pure, Except.ok.injEq, Prod.mk.injEq] at hacq
    obtain ⟨-, rfl⟩ := hacq
    -- the new guard takes the next handle
    refine ⟨by simpa using hs.lends.acquire hpool, ?_, fun g hg => ?_⟩
    · rw [List.map_append]
      refine Pool.nodup_append_of_lt hs.handles fun a ha => ?_
      obtain ⟨g, hg, rfl⟩ := List.mem_map.1 ha
      exact hs.fresh g hg
    · rw [List.mem_append, List.mem_singleton] at hg
      rcases hg with hg | rfl
      · exact Nat.lt_succ_of_lt (hs.fresh g hg)
      · exact Nat.lt_succ_self _

theorem Sound.drop {s : Lent} (hs : Sound s) (hd : Nat) (now : Instant) : Sound (s.drop hd now).2 := by
  unfold Lent.drop
  split
  · rename_i id hlook
    obtain ⟨pre, post, hheld, -⟩ := List.lookup_eq_some_iff.1 hlook
    -- the handle is held once, so the filter takes out exactly that guard
    have hnot : hd ∉ (pre ++ post).map (·.1) := by
      have h := hs.handles
      rw [hheld, List.map_append, List.map_cons, List.nodup_middle, List.nodup_cons] at h
      simpa using h.1
    have hfilter : s.held.filter (·.1 ≠ hd) = pre ++ post := by
      rw [hheld, List.filter_append, List.filter_cons_of_neg (by simp), ← List.filter_append,
        List.filter_eq_self]
      intro g hg
      have : g.1 ≠ hd := fun h => hnot (List.mem_map.2 ⟨g, hg, h⟩)
      simpa using this
    have hperm : (s.held.map (·.2)).Perm (id :: (pre ++ post).map (·.2)) := by
      rw [hheld, List.map_append, List.map_cons, List.map_append]
      exact List.perm_middle
    have hsub : (pre ++ post).Sublist s.held := by
      rw [hheld]
      exact (List.sublist_cons_self _ _).append_left pre
    refine ⟨?_, ?_, fun g hg => hs.fresh g (List.mem_filter.1 hg).1⟩
    · rw [hfilter]
      exact (hs.lends.perm hperm).release now
    · rw [hfilter]
      exact hs.handles.sublist (hsub.map _)
  · exact hs

/-- What a caller can do with a lending pool: borrow, drop any guard it holds, sweep, set a new
budget, clear. -/
inductive Op where
  | acquire (w h : Nat) (now : Instant)
  | drop (handle : Nat) (now : Instant)
  | sweepAt (now : Instant)
  | setCapacity (capacity : Nat)
  | clear

/-- One request; only an acquisition can fail, on an arithmetic overflow. -/
def Op.step : Op → Lent → Except Overflow Lent
  | .acquire w h now, s => Prod.snd <$> s.acquire w h now
  | .drop hd now, s => .ok (s.drop hd now).2
  | .sweepAt now, s => .ok { s with pool := (s.pool.sweepAt now).2 }
  | .setCapacity n, s => .ok { s with pool := s.pool.setCapacity n }
  | .clear, s => .ok { s with pool := s.pool.clear }

/-- A sequence of requests, stopping at the first failure. -/
def run (s : Lent) : List Op → Except Overflow Lent
  | [] => .ok s
  | op :: ops =>
    match op.step s with
    | .error e => .error e
    | .ok s => run s ops

/-- **What every request keeps holds after every run.** -/
theorem run_induction {P : Lent → Prop}
    (hstep : ∀ (s s' : Lent) (op : Op), P s → op.step s = .ok s' → P s') (ops : List Op) :
    ∀ {s s' : Lent}, P s → s.run ops = .ok s' → P s' := by
  induction ops with
  | nil =>
    intro s s' hs h
    simp only [run, Except.ok.injEq] at h
    exact h ▸ hs
  | cons op ops ih =>
    intro s s' hs h
    unfold run at h
    split at h
    · cases h
    · rename_i s₁ hop
      exact ih (hstep s s₁ op hs hop) h

theorem Sound.step {s s' : Lent} (hs : Sound s) : (op : Op) → op.step s = .ok s' → Sound s'
  | .acquire w h now, hop => by
    rcases hacq : s.acquire w h now with _ | ⟨r, s₁⟩
    · simp [Op.step, hacq, Functor.map, Except.map] at hop
    · simp only [Op.step, hacq, Functor.map, Except.map, Except.ok.injEq] at hop
      exact hop ▸ hs.acquire hacq
  | .drop hd now, hop => by
    cases hop
    exact hs.drop hd now
  | .sweepAt now, hop => by
    cases hop
    exact ⟨hs.lends.sweepAt now, hs.handles, hs.fresh⟩
  | .setCapacity n, hop => by
    cases hop
    exact ⟨hs.lends.setCapacity n, hs.handles, hs.fresh⟩
  | .clear, hop => by
    cases hop
    exact ⟨hs.lends.clear, hs.handles, hs.fresh⟩

theorem sound_create (capacity : Nat) : Sound { pool := Pool.create capacity } :=
  ⟨⟨⟨List.nodup_nil, fun _ he => absurd he List.not_mem_nil, List.Perm.nil⟩,
    fun _ _ he => absurd he List.not_mem_nil⟩, List.nodup_nil, fun _ hg => absurd hg List.not_mem_nil⟩

/-- **Guards and lent entries correspond one to one**, in every run from a new pool. The guards
held carry the ids of the lent entries, each once, and dropping a guard finds its entry lent.
Sweeping, a new budget and clearing take no lent entry. Over budget every entry is lent, so with
no guard left the pool is within its budget. The counters report the guards held and the free
entries. -/
theorem guards_match_lent_entries (capacity : Nat) (ops : List Op) {s : Lent}
    (h : run { pool := Pool.create capacity } ops = .ok s) :
    (s.held.map (·.2)).Perm (Pool.lentIds s.pool.entries) ∧ (s.held.map (·.2)).Nodup ∧
    (∀ g ∈ s.held, ∃ (i : Nat) (hi : i < s.pool.entries.length),
      s.pool.entries.findIdx? (·.id = g.2) = some i ∧ s.pool.entries[i].inUse = true) ∧
    (∀ now, ((s.pool.sweepAt now).2.entries.filter (·.inUse)).Perm (s.pool.entries.filter (·.inUse))) ∧
    (∀ n, ((s.pool.setCapacity n).entries.filter (·.inUse)).Perm (s.pool.entries.filter (·.inUse))) ∧
    s.pool.clear.entries.filter (·.inUse) = s.pool.entries.filter (·.inUse) ∧
    (s.pool.capacity < s.pool.reserved → ∀ e ∈ s.pool.entries, e.inUse = true) ∧
    (s.held = [] → s.pool.reserved ≤ s.pool.capacity) ∧
    s.pool.stats.inUse = s.held.length ∧
    s.pool.stats.entries = s.pool.stats.inUse + (s.pool.entries.filter fun e => !e.inUse).length := by
  have hs : Sound s := run_induction (fun _ _ op hs hop => hs.step op hop) ops (sound_create capacity) h
  have hlends := hs.lends
  refine ⟨hlends.lent, hlends.nodup_guards, fun g hg => ?_, Pool.lent_sweepAt s.pool,
    Pool.lent_setCapacity s.pool, Pool.lent_clear s.pool, hlends.budget, fun hnil => ?_, ?_, ?_⟩
  · obtain ⟨i, hi, hfind, -, hlent⟩ := hlends.find_lent (List.mem_map.2 ⟨g, hg, rfl⟩)
    exact ⟨i, hi, hfind, hlent⟩
  · rw [hnil] at hlends
    exact hlends.reserved_le_of_nil
  · -- the lent entries are as many as their ids, which are the guards
    have hlen := hlends.lent.length_eq
    simpa [Pool.stats, Pool.lentIds] using hlen.symm
  · exact List.length_eq_length_filter_add _

/-- Two buffers lent, the budget cut below them and one guard dropped: the dropped entry goes,
the other stays lent to the guard left. -/
theorem guards_match_lent_entries_after_cut :
    ∃ s, run { pool := Pool.create 0 }
        [.acquire 1024 1024 (Instant.tick 1), .acquire 1024 1024 (Instant.tick 2), .setCapacity 0,
          .drop 0 (Instant.tick 3)] = .ok s ∧
      (s.held.map (·.2)).Perm (Pool.lentIds s.pool.entries) :=
  let ⟨s, hs⟩ : ∃ s, run { pool := Pool.create 0 }
      [.acquire 1024 1024 (Instant.tick 1), .acquire 1024 1024 (Instant.tick 2), .setCapacity 0,
        .drop 0 (Instant.tick 3)] = .ok s := ⟨_, rfl⟩
  ⟨s, hs, (guards_match_lent_entries 0 _ hs).1⟩

end Lent
end Cache
end Thumbnailer
