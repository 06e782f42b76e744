import Thumbnailer.Proofs.Cache.Layout

/-!
# The arena refines the recency list

`Refines c r` says that the arena `c` lays out the entries of the recency list `r` (`Layout`),
under the same ceiling, and that they fit under it. Each operation run on both gives the same
answer and keeps the relation: one lemma per operation, reading the arena's steps through the
layout lemmas and the list's through its definition.

Requests are served by one interpreter, `MapOps.serve`, over the operations either model
provides; `MapOps.run` serves a list of them and stops at the first overflow. A simulation step
for every request gives a simulation of every run (`MapOps.run_agree`), and from an empty map
the arena answers every request as the list does and stays well formed
(`arena_refines_recency`).
-/

namespace Thumbnailer
namespace Cache

open Recency (Entry costOf splitWithin)

variable {κ ν : Type}

/-- Two outcomes agree: the same overflow, or the same answer and related states. -/
def Agree {α σ τ : Type} (R : σ → τ → Prop) : Except Overflow (α × σ) → Except Overflow (α × τ) → Prop
  | .error o, .error o' => o = o'
  | .ok (a, s), .ok (b, t) => a = b ∧ R s t
  | _, _ => False

theorem agree_ok {α σ τ : Type} {R : σ → τ → Prop} {a b : α} {s : σ} {t : τ} (hab : a = b)
    (h : R s t) : Agree R (.ok (a, s)) (.ok (b, t)) :=
  ⟨hab, h⟩

theorem Agree.mono {α σ τ : Type} {R R' : σ → τ → Prop} (hR : ∀ {s t}, R s t → R' s t)
    {x : Except Overflow (α × σ)} {y : Except Overflow (α × τ)} (h : Agree R x y) : Agree R' x y := by
  match x, y, h with
  | .error _, .error _, h => exact h
  | .ok _, .ok _, ⟨ha, hr⟩ => exact ⟨ha, hR hr⟩

/-! ### Requests -/

/-- A request to a cost-bounded map. -/
inductive Request (κ ν : Type) where
  | insert (k : κ) (v : ν) (w : Nat)
  | get (k : κ)
  | modify (k : κ) (f : ν → ν)
  | peek (k : κ)
  | contains (k : κ)
  | remove (k : κ)
  | popLru
  | removeWhere (p : κ → Bool)
  | setMaxCost (m : Nat)
  | clear

/-- What a request answers. -/
inductive Answer (κ ν : Type) where
  | inserted (a : CostLru.Admit κ ν)
  | value (v : Option ν)
  | found (b : Bool)
  | popped (e : Option (κ × ν))
  | count (n : Nat)
  | evicted (pairs : List (κ × ν))
  | cleared

/-- The operations of a cost-bounded map with states `σ`, as both models provide them. -/
structure MapOps (κ ν σ : Type) where
  insert : σ → κ → ν → Nat → Except Overflow (CostLru.Admit κ ν × σ)
  get? : σ → κ → Option ν × σ
  modify? : σ → κ → (ν → ν) → Option ν × σ
  peek? : σ → κ → Option ν
  contains : σ → κ → Bool
  remove? : σ → κ → Option ν × σ
  popLru? : σ → Option (κ × ν) × σ
  removeWhere : σ → (κ → Bool) → Nat × σ
  setMaxCost : σ → Nat → List (κ × ν) × σ
  clear : σ → σ

namespace MapOps

variable {σ τ : Type}

/-- Serves one request; only an insert can overflow. -/
def serve (o : MapOps κ ν σ) (s : σ) : Request κ ν → Except Overflow (Answer κ ν × σ)
  | .insert k v w =>
    match o.insert s k v w with
    | .error e => .error e
    | .ok (a, s) => .ok (.inserted a, s)
  | .get k => let r := o.get? s k; .ok (.value r.1, r.2)
  | .modify k f => let r := o.modify? s k f; .ok (.value r.1, r.2)
  | .peek k => .ok (.value (o.peek? s k), s)
  | .contains k => .ok (.found (o.contains s k), s)
  | .remove k => let r := o.remove? s k; .ok (.value r.1, r.2)
  | .popLru => let r := o.popLru? s; .ok (.popped r.1, r.2)
  | .removeWhere p => let r := o.removeWhere s p; .ok (.count r.1, r.2)
  | .setMaxCost m => let r := o.setMaxCost s m; .ok (.evicted r.1, r.2)
  | .clear => .ok (.cleared, o.clear s)

/-- Serves requests in order and stops at the first overflow. -/
def run (o : MapOps κ ν σ) (s : σ) : List (Request κ ν) → Except Overflow (List (Answer κ ν) × σ)
  | [] => .ok ([], s)
  | q :: qs =>
    match o.serve s q with
    | .error e => .error e
    | .ok (a, s) =>
      match o.run s qs with
      | .error e => .error e
      | .ok (as, s) => .ok (a :: as, s)

/-- **A simulation of every request is a simulation of every run.** -/
theorem run_agree {o : MapOps κ ν σ} {o' : MapOps κ ν τ} {R : σ → τ → Prop}
    (hstep : ∀ s t q, R s t → Agree R (o.serve s q) (o'.serve t q)) (qs : List (Request κ ν)) :
    ∀ {s t}, R s t → Agree R (o.run s qs) (o'.run t qs) := by
  induction qs with
  | nil => exact fun h => ⟨rfl, h⟩
  | cons q qs ih =>
    intro s t h
    unfold run
    -- the two sides of a step agree, so they fail together or go on in related states
    match o.serve s q, o'.serve t q, hstep s t q h with
    | .error _, .error _, he => exact he
    | .ok (a, s'), .ok (b, t'), ⟨hab, hr⟩ =>
      dsimp only
      match o.run s' qs, o'.run t' qs, ih hr with
      | .error _, .error _, he => exact he
      | .ok (as, _), .ok (bs, _), ⟨has, hr'⟩ => exact ⟨by rw [hab, has], hr'⟩

end MapOps

variable [DecidableEq κ]

/-- The arena's operations. -/
def CostLru.ops : MapOps κ ν (CostLru κ ν) where
  insert := CostLru.insert
  get? := CostLru.get?
  modify? := CostLru.modify?
  peek? := CostLru.peek?
  contains := CostLru.contains
  remove? := CostLru.remove?
  popLru? := CostLru.popLru?
  removeWhere := CostLru.removeWhere
  setMaxCost := CostLru.setMaxCost
  clear := CostLru.clear

/-- The recency list's operations. -/
def Recency.ops : MapOps κ ν (Recency κ ν) where
  insert := Recency.insert
  get? := Recency.get?
  modify? := Recency.modify?
  peek? := Recency.peek?
  contains := Recency.contains
  remove? := Recency.remove?
  popLru? := Recency.popLru?
  removeWhere := Recency.removeWhere
  setMaxCost := Recency.setMaxCost
  clear := Recency.clear

namespace CostLru

/-- The arena `c` stands for the recency list `r`: it lays out `r`'s entries, under the same
ceiling, and the entries fit under it. -/
structure Refines (c : CostLru κ ν) (r : Recency κ ν) : Prop where
  layout : ∃ ix, Layout c r.entries ix
  maxCost_eq : c.maxCost = r.maxCost
  within : costOf r.entries ≤ r.maxCost

theorem refines_empty (m : Nat) : Refines (empty m : CostLru κ ν) (Recency.empty m) :=
  ⟨⟨[], layout_empty m⟩, rfl, Nat.zero_le m⟩

section Refines

variable {c : CostLru κ ν} {r : Recency κ ν}

theorem Refines.cost_eq (h : Refines c r) : c.cost = r.cost :=
  let ⟨_, hl⟩ := h.layout
  hl.cost_eq

/-- The running cost is never over the ceiling. -/
theorem Refines.cost_le (h : Refines c r) : c.currentCost ≤ c.maxCost := by
  have := h.cost_eq
  unfold CostLru.cost Recency.cost at this
  rw [this, h.maxCost_eq]
  exact h.within

theorem Refines.keys_eq (h : Refines c r) : c.keys = r.keys :=
  let ⟨_, hl⟩ := h.layout
  hl.keys_eq

theorem Refines.size_eq (h : Refines c r) : c.size = r.size :=
  let ⟨_, hl⟩ := h.layout
  hl.size_eq

theorem Refines.peek? (h : Refines c r) (k : κ) : c.peek? k = r.peek? k := by
  obtain ⟨m, es⟩ := r
  obtain ⟨ix, hl⟩ := h.layout
  by_cases hk : k ∈ es.map (·.key)
  · obtain ⟨pes, e, pos, pre, i, post, rfl, rfl, hlen, rfl⟩ := hl.split hk
    rw [hl.peek?_split hlen, Recency.peek?_of_split hl.not_mem_split.1]
  · rw [hl.peek?_not_mem hk, Recency.peek?_of_not_mem hk]

theorem Refines.contains (h : Refines c r) (k : κ) : c.contains k = r.contains k := by
  obtain ⟨ix, hl⟩ := h.layout
  rw [hl.contains_eq, Bool.eq_iff_iff, decide_eq_true_iff, Recency.contains_iff]
  rfl

theorem Refines.modify? (h : Refines c r) (k : κ) (f : ν → ν) :
    (c.modify? k f).1 = (r.modify? k f).1 ∧ Refines (c.modify? k f).2 (r.modify? k f).2 := by
  obtain ⟨m, es⟩ := r
  obtain ⟨ix, hl⟩ := h.layout
  by_cases hk : k ∈ es.map (·.key)
  · obtain ⟨pes, e, pos, pre, i, post, rfl, rfl, hlen, rfl⟩ := hl.split hk
    obtain ⟨hpre, hpos⟩ := hl.not_mem_split
    obtain ⟨h1, h2, h3⟩ := hl.modify?_split hlen f
    rw [Recency.modify?_of_split hpre hpos]
    refine ⟨h1, ⟨_, h2⟩, h3.trans h.maxCost_eq, ?_⟩
    -- the entry moves to the front with its cost
    have := h.within
    simp only [Recency.costOf_append, Recency.costOf_cons] at this ⊢
    omega
  · rw [hl.modify?_not_mem hk, Recency.modify?_of_not_mem hk]
    exact ⟨rfl, h⟩

theorem Refines.get? (h : Refines c r) (k : κ) :
    (c.get? k).1 = (r.get? k).1 ∧ Refines (c.get? k).2 (r.get? k).2 :=
  h.modify? k id

theorem Refines.remove? (h : Refines c r) (k : κ) :
    (c.remove? k).1 = (r.remove? k).1 ∧ Refines (c.remove? k).2 (r.remove? k).2 := by
  obtain ⟨m, es⟩ := r
  obtain ⟨ix, hl⟩ := h.layout
  by_cases hk : k ∈ es.map (·.key)
  · obtain ⟨pes, e, pos, pre, i, post, rfl, rfl, hlen, rfl⟩ := hl.split hk
    obtain ⟨hpre, hpos⟩ := hl.not_mem_split
    obtain ⟨h1, h2, h3⟩ := hl.remove?_split hlen
    rw [Recency.remove?_of_split hpre hpos]
    refine ⟨h1, ⟨_, h2⟩, h3.trans h.maxCost_eq, ?_⟩
    have := h.within
    simp only [Recency.costOf_append, Recency.costOf_cons] at this ⊢
    omega
  · rw [hl.remove?_not_mem hk, Recency.remove?_of_not_mem hk]
    exact ⟨rfl, h⟩

theorem Refines.popLru? (h : Refines c r) :
    c.popLru?.1 = r.popLru?.1 ∧ Refines c.popLru?.2 r.popLru?.2 := by
  obtain ⟨m, es⟩ := r
  obtain ⟨ix, hl⟩ := h.layout
  rcases List.eq_nil_or_concat' es with rfl | ⟨es, e, rfl⟩
  · obtain rfl : ix = [] := List.eq_nil_of_length_eq_zero hl.length_eq
    rw [hl.popLru?_nil]
    exact ⟨rfl, h⟩
  · rcases List.eq_nil_or_concat' ix with rfl | ⟨ix, i, rfl⟩
    · simpa using hl.length_eq
    obtain ⟨h1, h2, h3⟩ := hl.popLru?_last
    rw [Recency.popLru?_last]
    refine ⟨h1, ⟨_, h2⟩, h3.trans h.maxCost_eq, ?_⟩
    have := h.within
    simp only [Recency.costOf_append] at this
    exact Nat.le_trans (Nat.le_add_right _ _) this

/-- The eviction loop sheds what the list sheds. -/
theorem Layout.evict_shed {ix : List Nat} (hl : Layout c r.entries ix) (budget : Nat) :
    (c.evict budget).1 = (r.shed budget).1 ∧
      ∃ ix', Layout (c.evict budget).2 (r.shed budget).2.entries ix' ∧
        (c.evict budget).2.maxCost = c.maxCost := by
  obtain ⟨ix', h1, h2, h3⟩ := hl.evict budget
  exact ⟨h1, ix', h2, h3⟩

theorem Refines.setMaxCost (h : Refines c r) (m : Nat) :
    (c.setMaxCost m).1 = (r.setMaxCost m).1 ∧ Refines (c.setMaxCost m).2 (r.setMaxCost m).2 := by
  obtain ⟨ix, hl⟩ := h.layout
  have hl' : Layout { c with maxCost := m } ({ r with maxCost := m } : Recency κ ν).entries ix :=
    hl.withMaxCost m
  obtain ⟨h1, ix', h2, h3⟩ := Layout.evict_shed hl' m
  exact ⟨h1, ⟨ix', h2⟩, h3, Recency.cost_splitWithin_le m r.entries⟩

theorem Refines.clear (h : Refines c r) : Refines c.clear r.clear :=
  ⟨⟨[], layout_clear c⟩, h.maxCost_eq, Nat.zero_le _⟩

/-- Removing keys one by one keeps the relation. -/
theorem Refines.foldl_remove? (ks : List κ) (h : Refines c r) :
    Refines (ks.foldl (fun c k => (c.remove? k).2) c) (ks.foldl (fun r k => (r.remove? k).2) r) := by
  induction ks generalizing c r with
  | nil => exact h
  | cons k ks ih => exact ih (h.remove? k).2

theorem Refines.removeWhere (h : Refines c r) (p : κ → Bool) :
    (c.removeWhere p).1 = (r.removeWhere p).1 ∧ Refines (c.removeWhere p).2 (r.removeWhere p).2 := by
  obtain ⟨ix, hl⟩ := h.layout
  -- the doomed keys are the list's keys that match, in the map's order
  have hdoomed : ((c.map.map Prod.fst).filter p).Perm ((r.entries.filter (p ·.key)).map (·.key)) := by
    have hf : (r.entries.map (·.key)).filter p = (r.entries.filter (p ·.key)).map (·.key) :=
      List.filter_map
    exact hf ▸ hl.map_keys.filter p
  -- an entry's key is doomed exactly when it matches
  have hkeep : r.entries.filter (·.key ∉ (c.map.map Prod.fst).filter p) = r.entries.filter (!p ·.key) :=
    List.filter_congr fun e he => by
      have hd : e.key ∈ (c.map.map Prod.fst).filter p ↔ p e.key = true := by
        rw [hdoomed.mem_iff, List.mem_map]
        constructor
        · rintro ⟨x, hx, hxe⟩
          rw [← hxe]
          exact (List.mem_filter.1 hx).2
        · exact fun hp => ⟨e, List.mem_filter.2 ⟨he, hp⟩, rfl⟩
      simp only [hd]
      cases p e.key <;> rfl
  refine ⟨?_, ?_⟩
  · show ((c.map.map Prod.fst).filter p).length = (r.entries.filter (p ·.key)).length
    rw [hdoomed.length_eq, List.length_map]
  · have := h.foldl_remove? ((c.map.map Prod.fst).filter p)
    rw [Recency.foldl_remove?, hkeep] at this
    exact this

/-- **An insert does on the arena what it does on the list**: the same refusal, the same overflow,
or the same evictions and the new entry in front. -/
theorem Refines.insert (h : Refines c r) (k : κ) (v : ν) (w : Nat) :
    Agree Refines (c.insert k v w) (r.insert k v w) := by
  have hm := h.maxCost_eq
  unfold CostLru.insert Recency.insert
  by_cases hw : r.maxCost < w
  · rw [if_pos (hm ▸ hw), if_pos hw]
    exact ⟨rfl, h⟩
  rw [if_neg (hm ▸ hw), if_neg hw]
  -- the key's old entry goes first, in both
  have h₁ : Refines (c.remove? k).2 (r.erase k) := (h.remove? k).2
  obtain ⟨ix₁, hl₁⟩ := h₁.layout
  have hcost : (c.remove? k).2.currentCost = (r.erase k).cost := hl₁.cost_eq
  have hb : (c.remove? k).2.maxCost = r.maxCost := h₁.maxCost_eq
  dsimp only
  rw [hcost, hb]
  cases checkedAdd (r.erase k).cost w with
  | error o => exact rfl
  | ok _ =>
    -- then both evict down to the ceiling less the new cost, and put the new entry in front
    obtain ⟨he, ix₂, hl₂, hm₂⟩ := Layout.evict_shed hl₁ (r.maxCost - w)
    obtain ⟨ix₃, hl₃, hm₃⟩ := hl₂.pushNew (Recency.not_mem_keys_shed_erase r k _) v w
    have hkept := Recency.cost_splitWithin_le (r.maxCost - w) (r.erase k).entries
    dsimp only
    refine ⟨by rw [he], ⟨ix₃, hl₃⟩, by rw [hm₃, hm₂, hb]; rfl, ?_⟩
    show w + costOf (splitWithin (r.maxCost - w) (r.erase k).entries).1 ≤ r.maxCost
    omega

/-- **One request, served on both, agrees.** -/
theorem Refines.serve (h : Refines c r) (q : Request κ ν) :
    Agree Refines (CostLru.ops.serve c q) (Recency.ops.serve r q) := by
  cases q with
  | insert k v w =>
    dsimp only [MapOps.serve, CostLru.ops, Recency.ops]
    match c.insert k v w, r.insert k v w, h.insert k v w with
    | .error _, .error _, he => exact he
    | .ok (a, _), .ok (b, _), ⟨hab, hr⟩ => exact ⟨by rw [hab], hr⟩
  | get k => exact agree_ok (congrArg Answer.value (h.get? k).1) (h.get? k).2
  | modify k f => exact agree_ok (congrArg Answer.value (h.modify? k f).1) (h.modify? k f).2
  | peek k => exact agree_ok (congrArg Answer.value (h.peek? k)) h
  | contains k => exact agree_ok (congrArg Answer.found (h.contains k)) h
  | remove k => exact agree_ok (congrArg Answer.value (h.remove? k).1) (h.remove? k).2
  | popLru => exact agree_ok (congrArg Answer.popped h.popLru?.1) h.popLru?.2
  | removeWhere p => exact agree_ok (congrArg Answer.count (h.removeWhere p).1) (h.removeWhere p).2
  | setMaxCost m => exact agree_ok (congrArg Answer.evicted (h.setMaxCost m).1) (h.setMaxCost m).2
  | clear => exact agree_ok rfl h.clear

end Refines

/-- **The arena refines the recency list.** From an empty map, every run of requests goes the
same way on the arena as on the list: the same overflow, or the same answers, and then the arena
is well formed (its links, key map, free list and running cost lay out the list's entries), its
keys from head to tail, cost and size are the list's, and the cost is within the ceiling. -/
theorem arena_refines_recency (m : Nat) (qs : List (Request κ ν)) :
    Agree (fun c r => Refines c r ∧ c.keys = r.keys ∧ c.cost = r.cost ∧ c.size = r.size ∧
        c.maxCost = r.maxCost ∧ c.currentCost ≤ c.maxCost)
      (CostLru.ops.run (empty m) qs) (Recency.ops.run (Recency.empty m) qs) :=
  (MapOps.run_agree (fun _ _ q h => Refines.serve h q) qs (refines_empty m)).mono fun h =>
    ⟨h, h.keys_eq, h.cost_eq, h.size_eq, h.maxCost_eq, h.cost_le⟩

end CostLru
end Cache
end Thumbnailer
