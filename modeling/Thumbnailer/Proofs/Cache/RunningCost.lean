import Thumbnailer.Proofs.Cache.CompressedStatistics

/-!
# The running cost of a cost-bounded map stays in its word

A `CostLru` keeps the sum of its costs in the word `currentCost`, and two of its steps do
arithmetic on it. Freeing a slot subtracts the slot's cost; an insert adds the new cost to what
the other entries cost, first in the test of its eviction loop and last when the entry is in.
On `Nat` a subtraction past zero would be cut to zero, and an addition has no ceiling; neither
happens here, and the reason is one invariant: the running cost is the sum of the costs held in
the slots (`Slots.liveCost_eq`), so no slot holds more than it (`Slots.slotCost_le`).

Every removal therefore lowers the running cost by exactly the costs of what it removes, stated
as an addition so that no subtraction hides in it: `remove?`, `popLru?`, `removeWhere`,
`setMaxCost`, and the old entry and the victims of an insert. Reading a key leaves the cost as
it is. An insert overflows exactly when its cost fits under the ceiling and, added to what the
other entries cost, reaches `2^64`; in every other case it completes, and the total it leaves
is within the ceiling, so the last addition cannot overflow either. With a ceiling below `2^63`
the sum of two costs under it never reaches `2^64`, so no request fails at all.

`CostsExact` gathers these facts about one arena; every arena reached from an empty one by
requests whose sizes are words satisfies it (`running_cost_stays_in_word`).
-/

namespace Thumbnailer
namespace Cache

open Recency (Entry costOf splitWithin costOf_nil costOf_cons costOf_append)

variable {κ ν : Type}

/-- The sizes a request carries are words, as the program's arguments are. -/
def Request.Sized : Request κ ν → Prop
  | .insert _ _ w => w < wordSize
  | .setMaxCost m => m < wordSize
  | _ => True

namespace MapOps

/-- **What every request keeps, every run keeps**, for runs of requests that satisfy `Q`. -/
theorem run_keeps {σ : Type} {o : MapOps κ ν σ} {I : σ → Prop} {Q : Request κ ν → Prop}
    (hstep : ∀ s q a s', I s → Q q → o.serve s q = .ok (a, s') → I s') (qs : List (Request κ ν)) :
    ∀ {s as s'}, I s → (∀ q ∈ qs, Q q) → o.run s qs = .ok (as, s') → I s' := by
  induction qs with
  | nil =>
    intro s as s' hs _ h
    simp only [run, Except.ok.injEq, Prod.mk.injEq] at h
    exact h.2 ▸ hs
  | cons q qs ih =>
    intro s as s' hs hq h
    rcases hserve : o.serve s q with e | ⟨a, s₁⟩
    · simp [run, hserve] at h
    · -- the first request goes through, and the rest runs from the state it leaves
      rcases hrest : o.run s₁ qs with e | ⟨as₁, s₂⟩
      · simp [run, hserve, hrest] at h
      · simp only [run, hserve, hrest, Except.ok.injEq, Prod.mk.injEq] at h
        rw [← h.2]
        exact ih (hstep s q a s₁ hs (hq q List.mem_cons_self) hserve)
          (fun q' hq' => hq q' (List.mem_cons_of_mem _ hq')) hrest

end MapOps

/-! ### The recency list: costs of what leaves -/

namespace Recency

variable [DecidableEq κ]

/-- The cost of a key's entry, zero when the key is absent. -/
def keyCost (r : Recency κ ν) (k : κ) : Nat := ((r.find? k).map (·.cost)).getD 0

theorem keyCost_of_mem {r : Recency κ ν} (hnd : r.keys.Nodup) {e : Entry κ ν} (he : e ∈ r.entries) :
    r.keyCost e.key = e.cost := by
  simp [keyCost, find?_of_mem hnd he]

/-- Entries of a list with distinct keys cost what their keys say. -/
theorem sum_keyCost {r : Recency κ ν} (hnd : r.keys.Nodup) :
    ∀ {l : List (Entry κ ν)}, (∀ e ∈ l, e ∈ r.entries) → (l.map fun e => r.keyCost e.key).sum = costOf l
  | [], _ => rfl
  | e :: l, hl => by
    rw [List.map_cons, List.sum_cons, costOf_cons, keyCost_of_mem hnd (hl e List.mem_cons_self),
      sum_keyCost hnd fun x hx => hl x (List.mem_cons_of_mem e hx)]

omit [DecidableEq κ] in
/-- The entries a filter keeps and those it drops cost the whole list. -/
theorem costOf_filter_add (p : Entry κ ν → Bool) (es : List (Entry κ ν)) :
    costOf (es.filter (!p ·)) + costOf (es.filter p) = costOf es := by
  induction es with
  | nil => rfl
  | cons e es ih => cases hp : p e <;> simp [hp] <;> omega

/-- **Erasing a key lowers the cost by its entry's cost.** -/
theorem cost_erase_add (r : Recency κ ν) (hnd : r.keys.Nodup) (k : κ) :
    (r.erase k).cost + r.keyCost k = r.cost := by
  cases hf : r.find? k with
  | none =>
    have hk : k ∉ r.keys := fun hk => by
      obtain ⟨e, he, rfl⟩ := List.mem_map.1 hk
      exact absurd (List.find?_eq_none.1 hf e he) (by simp)
    simp [keyCost, hf, erase_of_not_mem hk]
  | some e =>
    obtain ⟨pes, pos, hes, rfl, hpre, hpos⟩ := split_of_find? hnd hf
    obtain ⟨m, es⟩ := r
    dsimp only at hes
    subst hes
    rw [erase_of_split hpre hpos]
    simp only [cost, keyCost, hf, Option.map_some, Option.getD_some, costOf_append, costOf_cons]
    omega

/-- A request keeps the ceiling, except a new ceiling. -/
theorem insert_maxCost {r r' : Recency κ ν} {k : κ} {v : ν} {w : Nat} {a : CostLru.Admit κ ν}
    (h : r.insert k v w = .ok (a, r')) : r'.maxCost = r.maxCost := by
  unfold insert at h
  split at h
  · cases h
    rfl
  · dsimp only at h
    split at h
    · cases h
    · cases h
      rfl

/-- An insert that goes through hands back what the rest sheds, the least recent first. -/
theorem insert_evicted_eq {r r' : Recency κ ν} {k : κ} {v : ν} {w : Nat} {ev : List (κ × ν)}
    (h : r.insert k v w = .ok (.evicted ev, r')) :
    ev = ((r.erase k).shed (r.maxCost - w)).1 := by
  unfold insert at h
  split at h
  · cases h
  · dsimp only at h
    split at h
    · cases h
    · simp only [Except.ok.injEq, Prod.mk.injEq, CostLru.Admit.evicted.injEq] at h
      exact h.1.symm

theorem serve_maxCost {r r' : Recency κ ν} {q : Request κ ν} {a : Answer κ ν}
    (h : Recency.ops.serve r q = .ok (a, r')) :
    r'.maxCost = r.maxCost ∨ ∃ m, q = .setMaxCost m ∧ r'.maxCost = m := by
  cases q with
  | insert k v w =>
    refine .inl ?_
    simp only [MapOps.serve, Recency.ops] at h
    rcases hi : r.insert k v w with o | ⟨b, r₁⟩
    · rw [hi] at h
      cases h
    · rw [hi] at h
      cases h
      exact insert_maxCost hi
  | get k => cases h; exact .inl (modify?_maxCost r k id)
  | modify k f => cases h; exact .inl (modify?_maxCost r k f)
  | popLru =>
    cases h
    refine .inl (show r.popLru?.2.maxCost = r.maxCost from ?_)
    unfold popLru?
    split <;> rfl
  | setMaxCost m => cases h; exact .inr ⟨m, rfl, rfl⟩
  | peek k | contains k | remove k | removeWhere p | clear => cases h; exact .inl rfl

end Recency

/-! ### The arena: costs in the slots -/

namespace CostLru

/-- The cost a slot holds: its node's, or zero when it is empty. -/
def slotCost (c : CostLru κ ν) (i : Nat) : Nat := ((c.node? i).map (·.cost)).getD 0

/-- The sum of the costs of the nodes in the slots. -/
def liveCost (c : CostLru κ ν) : Nat := (c.slots.map fun s => (s.map (·.cost)).getD 0).sum

/-- The cost of a key's entry, zero when the key is absent. -/
def keyCost [DecidableEq κ] (c : CostLru κ ν) (k : κ) : Nat :=
  (((c.map.lookup k).bind c.node?).map (·.cost)).getD 0

theorem liveCost_eq_sum_range (c : CostLru κ ν) :
    c.liveCost = ∑ i ∈ Finset.range c.slots.length, c.slotCost i := by
  rw [liveCost, ← Fin.sum_univ_fun_getElem, Finset.sum_range]
  refine Finset.sum_congr rfl fun i _ => ?_
  simp [slotCost, node?]

/-- Along a chain of linked slots, the slots hold the costs of the chain's entries. -/
theorem Chain.map_slotCost {c : CostLru κ ν} :
    ∀ {p q : Option Nat} {ix : List Nat} {es : List (Entry κ ν)}, Chain c p ix es q →
      ix.map c.slotCost = es.map (·.cost)
  | _, _, [], [], _ => rfl
  | _, _, i :: ix, e :: es, h => by
    rw [List.map_cons, List.map_cons, Chain.map_slotCost h.2]
    simp [slotCost, h.1]
  | _, _, [], _ :: _, h => h.elim
  | _, _, _ :: _, [], h => h.elim

theorem costOf_eq_sum (es : List (Entry κ ν)) : costOf es = (es.map (·.cost)).sum := by
  induction es with
  | nil => rfl
  | cons e es ih => rw [costOf_cons, ih, List.map_cons, List.sum_cons]

section Slots

variable {c : CostLru κ ν} {es : List (Entry κ ν)} {ix : List Nat}

/-- A slot off the list holds nothing. -/
theorem Slots.slotCost_of_not_mem (h : Slots c es ix) {i : Nat} (hi : i ∉ ix) : c.slotCost i = 0 := by
  cases hn : c.node? i with
  | none => simp [slotCost, hn]
  | some n =>
    -- a slot with a node is occupied, hence on the list
    have hocc : c.occupancy[i]? = some true := by
      unfold node? at hn
      unfold occupancy
      cases hs : c.slots[i]? with
      | none => simp [hs] at hn
      | some s => cases s <;> simp_all
    exact absurd ((h.mem_live i).2 hocc) hi

theorem Slots.lt_of_mem (h : Slots c es ix) {i : Nat} (hi : i ∈ ix) : i < c.slots.length := by
  have := (h.mem_live i).1 hi
  rw [← length_occupancy]
  exact (List.getElem?_eq_some_iff.1 this).1

/-- **The running cost is the sum of the costs held in the slots.** -/
theorem Slots.liveCost_eq (h : Slots c es ix) : c.liveCost = costOf es := by
  have hsub : ix.toFinset ⊆ Finset.range c.slots.length := fun i hi =>
    Finset.mem_range.2 (h.lt_of_mem (List.mem_toFinset.1 hi))
  -- the slots off the list add nothing; those on it add the list's costs
  calc c.liveCost = ∑ i ∈ Finset.range c.slots.length, c.slotCost i := liveCost_eq_sum_range c
    _ = ∑ i ∈ ix.toFinset, c.slotCost i :=
      (Finset.sum_subset hsub fun i _ hi => h.slotCost_of_not_mem fun hm =>
        hi (List.mem_toFinset.2 hm)).symm
    _ = (ix.map c.slotCost).sum := List.sum_toFinset _ h.nodup
    _ = costOf es := by rw [h.chain.map_slotCost, costOf_eq_sum]

/-- **No slot holds more than the running cost**, so freeing any slot subtracts no more than
there is. -/
theorem Slots.slotCost_le (h : Slots c es ix) (i : Nat) : c.slotCost i ≤ c.currentCost := by
  by_cases hi : i < c.slots.length
  · rw [h.cost_eq, ← h.liveCost_eq, liveCost_eq_sum_range]
    exact Finset.single_le_sum (fun _ _ => Nat.zero_le _) (Finset.mem_range.2 hi)
  · have hn : c.node? i = none := by simp [node?, List.getElem?_eq_none (Nat.le_of_not_lt hi)]
    simp [slotCost, hn]

end Slots

/-! ### Each request, through the recency list it stands for -/

section Refines

variable [DecidableEq κ] {c : CostLru κ ν} {r : Recency κ ν}

theorem Refines.keyCost_eq (h : Refines c r) (k : κ) : c.keyCost k = r.keyCost k := by
  obtain ⟨m, es⟩ := r
  obtain ⟨ix, hl⟩ := h.layout
  by_cases hk : k ∈ es.map (·.key)
  · obtain ⟨pes, e, pos, pre, i, post, rfl, rfl, hlen, rfl⟩ := hl.split hk
    obtain ⟨hpre, -⟩ := hl.not_mem_split
    unfold keyCost Recency.keyCost
    rw [hl.lookup_eq, lookup_zip_split hlen hpre, Recency.find?_of_split hpre]
    simp [(hl.toLinks.node_at hlen).1]
  · unfold keyCost Recency.keyCost
    rw [hl.lookup_eq, lookup_zip_of_not_mem hk, Recency.find?_of_not_mem hk]
    rfl

theorem Refines.currentCost_eq (h : Refines c r) : c.currentCost = r.cost := h.cost_eq

theorem Refines.liveCost_eq (h : Refines c r) : c.currentCost = c.liveCost := by
  obtain ⟨ix, hl⟩ := h.layout
  rw [hl.liveCost_eq, hl.cost_eq]

theorem Refines.node_cost_le (h : Refines c r) {i : Nat} {n : Node κ ν} (hn : c.node? i = some n) :
    n.cost ≤ c.currentCost := by
  obtain ⟨ix, hl⟩ := h.layout
  simpa [slotCost, hn] using hl.toSlots.slotCost_le i

theorem Refines.remove_cost (h : Refines c r) (k : κ) :
    (c.remove? k).2.currentCost + c.keyCost k = c.currentCost := by
  rw [(h.remove? k).2.currentCost_eq, h.currentCost_eq, h.keyCost_eq]
  exact Recency.cost_erase_add r h.keys_nodup k

theorem Refines.popLru_cost (h : Refines c r) :
    c.popLru?.2.currentCost + c.popLru?.1.elim 0 (fun e => c.keyCost e.1) = c.currentCost := by
  obtain ⟨h₁, h₂⟩ := h.popLru?
  rw [h₂.currentCost_eq, h.currentCost_eq, h₁]
  obtain ⟨m, es⟩ := r
  rcases List.eq_nil_or_concat' es with rfl | ⟨es, e, rfl⟩
  · rfl
  · rw [Recency.popLru?_last]
    have he : e ∈ ({ maxCost := m, entries := es ++ [e] } : Recency κ ν).entries := by simp
    simp only [Option.elim, h.keyCost_eq, Recency.keyCost_of_mem h.keys_nodup he, Recency.cost,
      costOf_append, costOf_cons, costOf_nil, Nat.add_zero]

theorem Refines.removeWhere_cost (h : Refines c r) (p : κ → Bool) :
    (c.removeWhere p).2.currentCost + ((c.keys.filter p).map c.keyCost).sum = c.currentCost := by
  rw [(h.removeWhere p).2.currentCost_eq, h.currentCost_eq, h.keys_eq]
  -- the keys that match are the keys of the entries that match, each costing its entry's cost
  have hkeys : (r.keys.filter p).map c.keyCost = (r.entries.filter (p ·.key)).map fun e => r.keyCost e.key := by
    rw [Recency.keys, List.filter_map, List.map_map]
    exact List.map_congr_left fun e _ => h.keyCost_eq e.key
  rw [hkeys, Recency.sum_keyCost h.keys_nodup fun e he => List.mem_of_mem_filter he]
  exact Recency.costOf_filter_add (p ·.key) r.entries

theorem Refines.setMaxCost_cost (h : Refines c r) (m : Nat) :
    (c.setMaxCost m).2.currentCost + ((c.setMaxCost m).1.map fun e => c.keyCost e.1).sum =
      c.currentCost := by
  obtain ⟨h₁, h₂⟩ := h.setMaxCost m
  rw [h₂.currentCost_eq, h.currentCost_eq, h₁]
  have hsplit := Recency.splitWithin_append m r.entries
  -- the entries shed are entries of the list; with what is kept they are the whole list
  have hshed : ∀ e ∈ (splitWithin m r.entries).2, e ∈ r.entries := fun e he => by
    rw [← hsplit]
    exact List.mem_append_right _ he
  have hsum : (((splitWithin m r.entries).2.reverse.map fun e => (e.key, e.value)).map
      fun e => c.keyCost e.1).sum = costOf (splitWithin m r.entries).2 := by
    rw [List.map_map, ← Recency.sum_keyCost h.keys_nodup hshed, List.map_reverse, List.sum_reverse]
    exact congrArg List.sum (List.map_congr_left fun e _ => h.keyCost_eq e.key)
  simp only [Recency.setMaxCost, Recency.shed, Recency.cost]
  rw [hsum, ← costOf_append, hsplit]

theorem Refines.modify_cost (h : Refines c r) (k : κ) (f : ν → ν) :
    (c.modify? k f).2.currentCost = c.currentCost := by
  rw [(h.modify? k f).2.currentCost_eq, h.currentCost_eq]
  exact (Recency.modify?_size_cost h.keys_nodup k f).2

/-- **An insert that goes through accounts for every cost**: what it leaves, with the old
entry's cost and its victims' costs, is what there was with the new cost. -/
theorem Refines.insert_cost (h : Refines c r) {k : κ} {v : ν} {w : Nat} {ev : List (κ × ν)}
    {c' : CostLru κ ν} (hi : c.insert k v w = .ok (.evicted ev, c')) :
    c'.currentCost + c.keyCost k + (ev.map fun e => c.keyCost e.1).sum = c.currentCost + w := by
  obtain ⟨r', hr, hr'⟩ := Agree.exists_of_ok (hi ▸ h.insert k v w)
  obtain ⟨-, hentries, -⟩ := Recency.insert_eq_evicted hr
  rw [hr'.currentCost_eq, Recency.cost, hentries, Recency.insert_evicted_eq hr, h.currentCost_eq,
    h.keyCost_eq]
  have hsplit := Recency.splitWithin_append (r.maxCost - w) (r.erase k).entries
  have hshed : ∀ e ∈ (splitWithin (r.maxCost - w) (r.erase k).entries).2, e ∈ r.entries := fun e he => by
    have : e ∈ (r.erase k).entries := by
      rw [← hsplit]
      exact List.mem_append_right _ he
    exact List.mem_of_mem_filter this
  have hsum : ((((splitWithin (r.maxCost - w) (r.erase k).entries).2.reverse.map fun e => (e.key, e.value))).map
      fun e => c.keyCost e.1).sum = costOf (splitWithin (r.maxCost - w) (r.erase k).entries).2 := by
    rw [List.map_map, ← Recency.sum_keyCost h.keys_nodup hshed, List.map_reverse, List.sum_reverse]
    exact congrArg List.sum (List.map_congr_left fun e _ => h.keyCost_eq e.key)
  have herase := Recency.cost_erase_add r h.keys_nodup k
  have hkept : costOf (splitWithin (r.maxCost - w) (r.erase k).entries).1 +
      costOf (splitWithin (r.maxCost - w) (r.erase k).entries).2 = (r.erase k).cost := by
    rw [← costOf_append, hsplit]
    rfl
  simp only [Recency.shed]
  rw [hsum, costOf_cons]
  dsimp only
  omega

/-! ### Inserts that fail -/

/-- The only failure of an insert is the overflow of its room check. -/
theorem insert_error {c : CostLru κ ν} {k : κ} {v : ν} {w : Nat} {o : Overflow}
    (h : c.insert k v w = .error o) : o = .add := by
  unfold CostLru.insert at h
  split at h
  · cases h
  · dsimp only at h
    by_cases ho : (c.remove? k).2.currentCost + w < wordSize
    · rw [checkedAdd_eq_ok ho] at h
      cases h
    · rw [checkedAdd_eq_error (Nat.le_of_not_lt ho)] at h
      cases h
      rfl

/-- **An insert overflows exactly when** its cost fits under the ceiling and, added to what the
other entries cost, reaches `2^64`. -/
theorem Refines.insert_eq_error_iff (h : Refines c r) (k : κ) (v : ν) (w : Nat) :
    c.insert k v w = .error .add ↔ w ≤ c.maxCost ∧ wordSize ≤ c.currentCost - c.keyCost k + w := by
  -- what the other entries cost is the running cost less the old entry's
  have hrest : (c.remove? k).2.currentCost = c.currentCost - c.keyCost k := by
    have := h.remove_cost k
    omega
  unfold CostLru.insert
  by_cases hw : c.maxCost < w
  · rw [if_pos hw]
    exact iff_of_false (by simp) fun h' => absurd h'.1 (Nat.not_le.2 hw)
  · rw [if_neg hw]
    dsimp only
    rw [hrest]
    by_cases ho : c.currentCost - c.keyCost k + w < wordSize
    · rw [checkedAdd_eq_ok ho]
      exact iff_of_false (by simp) fun h' => absurd h'.2 (Nat.not_le.2 ho)
    · rw [checkedAdd_eq_error (Nat.le_of_not_lt ho)]
      exact iff_of_true rfl ⟨Nat.le_of_not_lt hw, Nat.le_of_not_lt ho⟩

/-- **In every other case an insert completes**, within the ceiling, which it keeps; so the
last addition of the cost fits the word the ceiling fits. -/
theorem Refines.insert_completes (h : Refines c r) (k : κ) (v : ν) (w : Nat)
    (hno : ¬ (w ≤ c.maxCost ∧ wordSize ≤ c.currentCost - c.keyCost k + w)) :
    ∃ a c', c.insert k v w = .ok (a, c') ∧ c'.currentCost ≤ c'.maxCost ∧ c'.maxCost = c.maxCost := by
  rcases hi : c.insert k v w with o | ⟨a, c'⟩
  · obtain rfl := insert_error hi
    exact absurd ((h.insert_eq_error_iff k v w).1 hi) hno
  · obtain ⟨r', hr, hr'⟩ := Agree.exists_of_ok (hi ▸ h.insert k v w)
    refine ⟨a, c', rfl, hr'.cost_le, ?_⟩
    rw [hr'.maxCost_eq, h.maxCost_eq]
    exact Recency.insert_maxCost hr

end Refines

/-! ### Every reachable arena -/

/-- What the arithmetic on the running cost of an arena comes to. -/
structure CostsExact [DecidableEq κ] (c : CostLru κ ν) : Prop where
  /-- The running cost is the sum of the costs in the slots. -/
  live : c.currentCost = c.liveCost
  within : c.currentCost ≤ c.maxCost
  word : c.maxCost < wordSize
  /-- Freeing any slot subtracts no more than the running cost. -/
  slot_le : ∀ i, c.slotCost i ≤ c.currentCost
  remove : ∀ k, (c.remove? k).2.currentCost + c.keyCost k = c.currentCost
  popLru : c.popLru?.2.currentCost + c.popLru?.1.elim 0 (fun e => c.keyCost e.1) = c.currentCost
  removeWhere : ∀ p, (c.removeWhere p).2.currentCost + ((c.keys.filter p).map c.keyCost).sum = c.currentCost
  setMaxCost : ∀ m,
    (c.setMaxCost m).2.currentCost + ((c.setMaxCost m).1.map fun e => c.keyCost e.1).sum = c.currentCost
  /-- Reading a key, with or without a change to its value, keeps the running cost. -/
  modify : ∀ k f, (c.modify? k f).2.currentCost = c.currentCost
  overflow : ∀ k v w,
    c.insert k v w = .error .add ↔ w ≤ c.maxCost ∧ wordSize ≤ c.currentCost - c.keyCost k + w
  completes : ∀ k v w, ¬ (w ≤ c.maxCost ∧ wordSize ≤ c.currentCost - c.keyCost k + w) →
    ∃ a c', c.insert k v w = .ok (a, c') ∧ c'.currentCost ≤ c'.maxCost ∧ c'.maxCost = c.maxCost
  /-- An insert that goes through takes off the old entry's cost and its victims', and adds the
  new cost. -/
  evicted : ∀ k v w ev c', c.insert k v w = .ok (.evicted ev, c') →
    c'.currentCost + c.keyCost k + (ev.map fun e => c.keyCost e.1).sum = c.currentCost + w

section Reach

variable [DecidableEq κ]

theorem Refines.costsExact {c : CostLru κ ν} {r : Recency κ ν} (h : Refines c r)
    (hw : c.maxCost < wordSize) : CostsExact c := by
  obtain ⟨ix, hl⟩ := h.layout
  exact ⟨h.liveCost_eq, h.cost_le, hw, hl.toSlots.slotCost_le, h.remove_cost, h.popLru_cost,
    h.removeWhere_cost, h.setMaxCost_cost, h.modify_cost, h.insert_eq_error_iff,
    h.insert_completes, fun _ _ _ _ _ hi => h.insert_cost hi⟩

/-- Every arena reached from an empty one by requests whose sizes are words stands for a recency
list, under a ceiling that is a word. -/
theorem reach_refines {m : Nat} (hm : m < wordSize) {qs : List (Request κ ν)}
    (hqs : ∀ q ∈ qs, q.Sized) {as : List (Answer κ ν)} {c : CostLru κ ν}
    (hrun : CostLru.ops.run (empty m) qs = .ok (as, c)) :
    (∃ r, Refines c r) ∧ c.maxCost < wordSize := by
  refine MapOps.run_keeps (I := fun c => (∃ r, Refines c r) ∧ c.maxCost < wordSize) ?_ qs
    ⟨⟨_, refines_empty m⟩, hm⟩ hqs hrun
  rintro c q a c' ⟨⟨r, h⟩, hw⟩ hq hserve
  obtain ⟨r', hr, hr'⟩ := Agree.exists_of_ok (hserve ▸ h.serve q)
  refine ⟨⟨r', hr'⟩, ?_⟩
  rw [hr'.maxCost_eq]
  -- only a new ceiling changes the ceiling, and it is a word
  rcases Recency.serve_maxCost hr with he | ⟨m', rfl, he⟩
  · rw [he, ← h.maxCost_eq]
    exact hw
  · rw [he]
    exact hq

/-- **The running cost stays in its word.** In every arena reached from an empty one by requests
whose sizes are words, the running cost is the sum of the costs in the slots and within the
ceiling; every removal lowers it by exactly the costs of what it removes, so none subtracts past
zero; reading keeps it; an insert overflows exactly when its cost fits under the ceiling and,
added to the cost of the other entries, reaches `2^64`, and completes otherwise. Under a ceiling
below `2^63` no insert overflows. -/
theorem running_cost_stays_in_word (m : Nat) (hm : m < wordSize) (qs : List (Request κ ν))
    (hqs : ∀ q ∈ qs, q.Sized) {as : List (Answer κ ν)} {c : CostLru κ ν}
    (hrun : CostLru.ops.run (empty m) qs = .ok (as, c)) :
    CostsExact c ∧ (c.maxCost < 2 ^ 63 → ∀ k v w, ∃ a c', c.insert k v w = .ok (a, c')) := by
  obtain ⟨⟨r, h⟩, hw⟩ := reach_refines hm hqs hrun
  have hx := h.costsExact hw
  refine ⟨hx, fun hlow k v w => ?_⟩
  -- two costs within a ceiling below 2^63 add up to less than 2^64
  have hword : wordSize = 18446744073709551616 := rfl
  have hhalf : (2 : Nat) ^ 63 = 9223372036854775808 := rfl
  obtain ⟨a, c', hi, -⟩ := hx.completes k v w fun ⟨_, hover⟩ => by
    have := hx.within
    omega
  exact ⟨a, c', hi⟩

/-- One insert into an empty map under a ceiling of 10 leaves one entry of cost 4, and the
arithmetic of that arena is exact. -/
theorem running_cost_stays_in_word_after_one_insert :
    let c : CostLru Nat Nat :=
      { map := [(1, 0)], slots := [some ⟨1, 1, 4, none, none⟩], head := some 0, tail := some 0,
        maxCost := 10, currentCost := 4 }
    CostLru.ops.run (empty 10) [.insert 1 1 4] = .ok ([.inserted (.evicted [])], c) ∧
      CostsExact c ∧ (c.maxCost < 2 ^ 63 → ∀ k v w, ∃ a c', c.insert k v w = .ok (a, c')) := by
  intro c
  have hrun : CostLru.ops.run (empty 10) [.insert 1 1 4] = .ok ([.inserted (.evicted [])], c) := by
    simp [MapOps.run, MapOps.serve, CostLru.ops, CostLru.insert, CostLru.remove?, CostLru.evict,
      checkedAdd, wordSize, CostLru.empty, CostLru.pushNew, CostLru.pushFront, CostLru.updateNode, c]
  exact ⟨hrun, running_cost_stays_in_word 10 (by decide) [.insert 1 1 4]
    (by simp [Request.Sized, wordSize]) hrun⟩

end Reach

end CostLru
end Cache
end Thumbnailer
