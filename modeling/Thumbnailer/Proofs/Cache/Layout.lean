import Thumbnailer.Proofs.Cache.Arena

/-!
# A well-formed arena and its recency list

`Slots c es ix` is everything the arena `c` must satisfy to hold the recency list `es` in the
slots `ix`: the links (`Links`), the free list holding each empty slot once, every occupied
slot on the list, and `currentCost` adding up the costs. `Layout` adds the key map: no key
twice, and `map` pairing each key with its slot, in some order.

Each primitive of the arena is read here as an edit of the recency list:

* freeing a slot of the list (`takeSlot`) takes its entry out (`Slots.takeSlot`);
* popping the tail takes the last entry (`Layout.popLru?`), and the eviction loop keeps the
  longest front part of the list within the budget (`Layout.evict`);
* a node written into a free or a new slot and linked in front adds an entry in front
  (`Slots.placeFree`, `Slots.placeNew`, `Placed.pushFront`);
* the key map finds a key's slot (`Layout.lookup_split`), and walking the links from the head
  meets the keys in order (`Layout.keys_eq`).
-/

namespace Thumbnailer
namespace Cache
namespace CostLru

open Recency (Entry costOf)

variable {κ ν : Type}

/-! ### Writing a slot -/

section Write

variable (c : CostLru κ ν) (m : List (κ × Nat)) (f : List Nat) (h t : Option Nat) (mc cc : Nat)

@[simp] theorem node?_clearSlot (i j : Nat) :
    ({ map := m, slots := c.slots.set i none, free := f, head := h, tail := t, maxCost := mc,
        currentCost := cc } : CostLru κ ν).node? j = if i = j then none else c.node? j := by
  unfold node?
  rw [List.getElem?_set]
  by_cases hij : i = j
  · subst hij
    split <;> simp
  · simp [hij]

@[simp] theorem occupancy_setSlot (i : Nat) (x : Option (Node κ ν)) :
    ({ map := m, slots := c.slots.set i x, free := f, head := h, tail := t, maxCost := mc,
        currentCost := cc } : CostLru κ ν).occupancy = c.occupancy.set i x.isSome := by
  simp [occupancy, List.map_set]

@[simp] theorem node?_fillSlot (i j : Nat) (n : Node κ ν) (hi : i < c.slots.length) :
    ({ map := m, slots := c.slots.set i (some n), free := f, head := h, tail := t, maxCost := mc,
        currentCost := cc } : CostLru κ ν).node? j = if i = j then some n else c.node? j := by
  unfold node?
  rw [List.getElem?_set]
  by_cases hij : i = j
  · subst hij
    simp [hi]
  · simp [hij]

@[simp] theorem node?_growSlot (j : Nat) (n : Node κ ν) :
    ({ map := m, slots := c.slots ++ [some n], free := f, head := h, tail := t, maxCost := mc,
        currentCost := cc } : CostLru κ ν).node? j =
      if c.slots.length = j then some n else c.node? j := by
  unfold node?
  rw [List.getElem?_append]
  by_cases hj : j < c.slots.length
  · simp [hj, Nat.ne_of_gt hj]
  · by_cases he : c.slots.length = j
    · subst he
      simp
    · have : c.slots[j]? = none := List.getElem?_eq_none (by omega)
      simp [hj, he, List.getElem?_singleton]
      omega

@[simp] theorem occupancy_growSlot (n : Node κ ν) :
    ({ map := m, slots := c.slots ++ [some n], free := f, head := h, tail := t, maxCost := mc,
        currentCost := cc } : CostLru κ ν).occupancy = c.occupancy ++ [true] := by
  simp [occupancy]

end Write

theorem length_occupancy (c : CostLru κ ν) : c.occupancy.length = c.slots.length := by
  simp [occupancy]

/-! ### Slots -/

/-- The arena holds the recency list `es` in the slots `ix` and nothing else: each empty slot is
on the free list once, each occupied slot is on the recency list, and `currentCost` is the sum
of the costs. -/
structure Slots (c : CostLru κ ν) (es : List (Entry κ ν)) (ix : List Nat) : Prop
    extends Links c es ix where
  free_nodup : c.free.Nodup
  mem_free : ∀ i, i ∈ c.free ↔ c.occupancy[i]? = some false
  mem_live : ∀ i, i ∈ ix ↔ c.occupancy[i]? = some true
  cost_eq : c.currentCost = costOf es

/-- `Slots` reads the slots, the links, the free list and the running cost, nothing else. -/
theorem Slots.congr {c c' : CostLru κ ν} {es : List (Entry κ ν)} {ix : List Nat} (h : Slots c es ix)
    (hs : c'.slots = c.slots) (hh : c'.head = c.head) (ht : c'.tail = c.tail) (hf : c'.free = c.free)
    (hc : c'.currentCost = c.currentCost) : Slots c' es ix := by
  have hn : ∀ j, c'.node? j = c.node? j := fun j => by simp only [node?, hs]
  have ho : c'.occupancy = c.occupancy := by simp only [occupancy, hs]
  exact ⟨⟨h.chain.frame fun j _ => hn j, hh.trans h.head, ht.trans h.tail, h.nodup⟩,
    hf ▸ h.free_nodup, fun i => by rw [hf, ho]; exact h.mem_free i,
    fun i => by rw [ho]; exact h.mem_live i, hc.trans h.cost_eq⟩

/-- **Freeing a slot of the list** hands back its entry and takes it out of the list; the slot
goes on the free list and its cost comes off the total. -/
theorem Slots.takeSlot {c : CostLru κ ν} {pes pos : List (Entry κ ν)} {e : Entry κ ν}
    {pre post : List Nat} {i : Nat} (h : Slots c (pes ++ e :: pos) (pre ++ i :: post))
    (hlen : pre.length = pes.length) :
    (c.takeSlot i).1 = some (e.key, e.value) ∧ Slots (c.takeSlot i).2 (pes ++ pos) (pre ++ post) ∧
      (c.takeSlot i).2.map = c.map ∧ (c.takeSlot i).2.maxCost = c.maxCost := by
  obtain ⟨hl, hi⟩ := h.toLinks.unlink hlen
  obtain ⟨hmap, hfree, hcost, hmax, hocc⟩ := unlink_rest c i
  have hlive : c.occupancy[i]? = some true := (h.mem_live i).1 (by simp)
  have hlt : i < c.occupancy.length := (List.getElem?_eq_some_iff.1 hlive).1
  have hipp : i ∉ pre ++ post := (List.nodup_cons.1 (List.nodup_middle.1 h.nodup)).1
  have hne : ∀ j ∈ pre ++ post, i ≠ j := fun j hj hij => hipp (hij ▸ hj)
  unfold CostLru.takeSlot
  dsimp only
  rw [hi]
  refine ⟨rfl, ⟨⟨hl.chain.frame fun j hj => by simp [hne j hj], hl.head, hl.tail, hl.nodup⟩,
    ?_, fun j => ?_, fun j => ?_, ?_⟩, hmap, hmax⟩
  · refine List.nodup_cons.2 ⟨fun hf => ?_, hfree ▸ h.free_nodup⟩
    rw [hfree, h.mem_free, hlive] at hf
    cases hf
  · simp only [occupancy_setSlot, hocc, List.getElem?_set, hfree, List.mem_cons, h.mem_free,
      Option.isSome_none]
    by_cases hij : i = j
    · subst hij
      simp [hlt]
    · simp [hij, Ne.symm hij]
  · simp only [occupancy_setSlot, hocc, List.getElem?_set, Option.isSome_none]
    by_cases hij : i = j
    · subst hij
      simpa [hlt] using hipp
    · have := h.mem_live j
      simp only [List.mem_append, List.mem_cons, Ne.symm hij, false_or] at this
      simp [hij, this]
  · have := h.cost_eq
    simp only [Recency.costOf_append, Recency.costOf_cons] at this ⊢
    rw [hcost]
    omega

/-- **Moving a slot of the list to the front** moves its entry to the front. -/
theorem Slots.moveFront {c : CostLru κ ν} {pes pos : List (Entry κ ν)} {e : Entry κ ν}
    {pre post : List Nat} {i : Nat} (h : Slots c (pes ++ e :: pos) (pre ++ i :: post))
    (hlen : pre.length = pes.length) :
    Slots ((c.unlink i).pushFront i) (e :: (pes ++ pos)) (i :: (pre ++ post)) := by
  obtain ⟨hl, hi⟩ := h.toLinks.unlink hlen
  have hipp : i ∉ pre ++ post := (List.nodup_cons.1 (List.nodup_middle.1 h.nodup)).1
  obtain ⟨-, hfree, hcost, -, hocc⟩ := unlink_rest c i
  obtain ⟨-, hfree', hcost', -, hocc'⟩ := pushFront_rest (c.unlink i) i
  refine ⟨hl.pushFront hipp hi, ?_, fun j => ?_, fun j => ?_, ?_⟩
  · rw [hfree', hfree]
    exact h.free_nodup
  · rw [hfree', hfree, hocc', hocc]
    exact h.mem_free j
  · rw [hocc', hocc]
    exact List.perm_middle.mem_iff.symm.trans (h.mem_live j)
  · rw [hcost', hcost, h.cost_eq]
    simp only [Recency.costOf_append, Recency.costOf_cons]
    omega

/-- Rewriting the value in the front node rewrites the front entry's value. -/
theorem Slots.setValue {c : CostLru κ ν} {e : Entry κ ν} {es : List (Entry κ ν)} {i : Nat}
    {ix : List Nat} (h : Slots c (e :: es) (i :: ix)) (f : ν → ν) :
    Slots (c.updateNode i fun n => { n with value := f n.value }) ({ e with value := f e.value } :: es)
      (i :: ix) := by
  have hi : i ∉ ix := (List.nodup_cons.1 h.nodup).1
  refine ⟨⟨⟨?_, h.chain.2.frame fun j hj => ?_⟩, h.head, h.tail, h.nodup⟩, h.free_nodup,
    fun j => ?_, fun j => ?_, ?_⟩
  · rw [node?_updateNode, if_pos rfl, h.chain.1]
    rfl
  · rw [node?_updateNode, if_neg fun (hij : i = j) => hi (hij ▸ hj)]
  · rw [occupancy_updateNode]
    exact h.mem_free j
  · rw [occupancy_updateNode]
    exact h.mem_live j
  · exact h.cost_eq

/-! ### Writing a new entry -/

/-- A node for the entry `e` written into slot `i` and not yet linked: the list is still laid out,
and `i` is occupied but neither on the list nor free. -/
structure Placed (c : CostLru κ ν) (es : List (Entry κ ν)) (ix : List Nat) (i : Nat) (e : Entry κ ν) :
    Prop extends Links c es ix where
  node : c.node? i = some ⟨e.key, e.value, e.cost, none, none⟩
  not_mem : i ∉ ix
  free_nodup : c.free.Nodup
  mem_free : ∀ j, j ∈ c.free ↔ c.occupancy[j]? = some false
  mem_live : ∀ j, j ∈ i :: ix ↔ c.occupancy[j]? = some true
  cost_eq : c.currentCost = costOf es

/-- **A node written into the most recently freed slot** takes that slot off the free list. -/
theorem Slots.placeFree {c : CostLru κ ν} {es : List (Entry κ ν)} {ix : List Nat} {i : Nat}
    {rest : List Nat} (h : Slots c es ix) (hf : c.free = i :: rest) (e : Entry κ ν) :
    Placed { c with slots := c.slots.set i (some ⟨e.key, e.value, e.cost, none, none⟩), free := rest }
      es ix i e := by
  have hfi : c.occupancy[i]? = some false := (h.mem_free i).1 (by simp [hf])
  have hlt : i < c.slots.length := by
    rw [← length_occupancy]
    exact (List.getElem?_eq_some_iff.1 hfi).1
  have hix : i ∉ ix := fun hi => by rw [h.mem_live, hfi] at hi; cases hi
  have hnd : i ∉ rest ∧ rest.Nodup := List.nodup_cons.1 (hf ▸ h.free_nodup)
  refine ⟨⟨h.chain.frame fun j hj => ?_, h.head, h.tail, h.nodup⟩, by simp [hlt], hix, hnd.2,
    fun j => ?_, fun j => ?_, h.cost_eq⟩
  · have hij : i ≠ j := fun hij => hix (hij ▸ hj)
    simp [hlt, hij]
  · have := h.mem_free j
    rw [hf] at this
    by_cases hij : i = j
    · subst hij
      simp [hlt, length_occupancy, hnd.1]
    · simpa [List.getElem?_set, hij, Ne.symm hij] using this
  · by_cases hij : i = j
    · subst hij
      simp [hlt, length_occupancy]
    · simpa [List.getElem?_set, hij, Ne.symm hij] using h.mem_live j

/-- **A node written into a new slot** when none is free grows the arena by one. -/
theorem Slots.placeNew {c : CostLru κ ν} {es : List (Entry κ ν)} {ix : List Nat} (h : Slots c es ix)
    (hf : c.free = []) (e : Entry κ ν) :
    Placed { c with slots := c.slots ++ [some ⟨e.key, e.value, e.cost, none, none⟩] } es ix
      c.slots.length e := by
  have hlt : ∀ j ∈ ix, j < c.slots.length := fun j hj => by
    rw [← length_occupancy]
    exact (List.getElem?_eq_some_iff.1 ((h.mem_live j).1 hj)).1
  have hix : c.slots.length ∉ ix := fun hi => Nat.lt_irrefl _ (hlt _ hi)
  refine ⟨⟨h.chain.frame fun j hj => ?_, h.head, h.tail, h.nodup⟩, by simp, hix, hf ▸ List.nodup_nil,
    fun j => ?_, fun j => ?_, h.cost_eq⟩
  · simp [Nat.ne_of_gt (hlt j hj)]
  · have := h.mem_free j
    simp only [hf, List.not_mem_nil, false_iff] at this ⊢
    simp only [occupancy_growSlot, List.getElem?_append, length_occupancy]
    split
    · exact this
    · rw [List.getElem?_singleton]
      split <;> simp
  · simp only [occupancy_growSlot, List.getElem?_append, length_occupancy, List.mem_cons]
    split
    · rename_i hj
      rw [← h.mem_live j]
      simp [Nat.ne_of_lt hj]
    · rename_i hj
      rw [List.getElem?_singleton]
      have : j ∉ ix := fun hm => hj (hlt j hm)
      by_cases he : j = c.slots.length <;> simp [he, this]
      omega

/-- **Linking the written node in front** adds its entry in front, and its cost to the total. -/
theorem Placed.pushFront {c : CostLru κ ν} {es : List (Entry κ ν)} {ix : List Nat} {i : Nat}
    {e : Entry κ ν} (h : Placed c es ix i e) (m : List (κ × Nat)) :
    Slots { c.pushFront i with map := m, currentCost := (c.pushFront i).currentCost + e.cost }
      (e :: es) (i :: ix) := by
  have hl := h.toLinks.pushFront h.not_mem h.node
  obtain ⟨-, hfree, hcost, -, hocc⟩ := pushFront_rest c i
  refine ⟨⟨hl.chain.frame fun j _ => rfl, hl.head, hl.tail, hl.nodup⟩, ?_, fun j => ?_, fun j => ?_, ?_⟩
  · exact hfree ▸ h.free_nodup
  · simp only [occupancy_withLinks]
    rw [hocc]
    exact hfree ▸ h.mem_free j
  · simp only [occupancy_withLinks]
    rw [hocc]
    exact h.mem_live j
  · show (c.pushFront i).currentCost + e.cost = costOf (e :: es)
    rw [hcost, h.cost_eq, Recency.costOf_cons]
    omega

/-! ### The key map -/

/-- Taking a key's entry out of the list and putting it in front keeps the pairs of keys and
slots, in another order. -/
theorem zip_split_perm {pes pos : List (Entry κ ν)} {e : Entry κ ν} {pre post : List Nat} {i : Nat}
    (hlen : pre.length = pes.length) :
    (((pes ++ e :: pos).map (·.key)).zip (pre ++ i :: post)).Perm
      ((e.key, i) :: ((pes ++ pos).map (·.key)).zip (pre ++ post)) := by
  have hlen' : (pes.map (·.key)).length = pre.length := by simpa using hlen.symm
  rw [List.map_append, List.map_append, List.zip_append hlen', List.zip_append hlen', List.map_cons,
    List.zip_cons_cons]
  exact List.perm_middle

theorem keys_nodup_split {pes pos : List (Entry κ ν)} {e : Entry κ ν}
    (h : ((pes ++ e :: pos).map (·.key)).Nodup) : ((pes ++ pos).map (·.key)).Nodup := by
  simp only [List.map_append, List.map_cons] at h ⊢
  exact (List.nodup_middle.1 h).of_cons

section KeyMap

variable [DecidableEq κ]

/-- With no key twice, the order of the pairs does not matter to `lookup`. -/
theorem lookup_of_perm {l l' : List (κ × Nat)} (hp : l.Perm l') (hnd : (l.map Prod.fst).Nodup)
    (k : κ) : l.lookup k = l'.lookup k := by
  induction hp with
  | nil => rfl
  | cons x _ ih =>
    simp only [List.map_cons, List.nodup_cons] at hnd
    obtain ⟨a, i⟩ := x
    simp only [List.lookup_cons, ih hnd.2]
  | swap x y l =>
    -- the two swapped keys differ, so at most one of them is `k`
    simp only [List.map_cons, List.nodup_cons, List.mem_cons, not_or] at hnd
    obtain ⟨a, i⟩ := x
    obtain ⟨b, j⟩ := y
    cases hka : k == a <;> cases hkb : k == b
    · simp [List.lookup_cons, hka, hkb]
    · simp [List.lookup_cons, hka, hkb]
    · simp [List.lookup_cons, hka, hkb]
    · simp only [beq_iff_eq] at hka hkb
      exact absurd (hkb.symm.trans hka) hnd.1.1
  | trans h₁ _ ih₁ ih₂ => rw [ih₁ hnd, ih₂ ((h₁.map Prod.fst).nodup_iff.1 hnd)]

/-- A key not among the keys has no slot. -/
theorem lookup_zip_of_not_mem {es : List (Entry κ ν)} {k : κ} (hk : k ∉ es.map (·.key))
    (ix : List Nat) : ((es.map (·.key)).zip ix).lookup k = none :=
  List.lookup_eq_none_iff.2 fun ⟨a, _⟩ hp => by
    rw [bne_iff_ne]
    rintro rfl
    exact hk (List.of_mem_zip hp).1

/-- A key present once finds its own slot. -/
theorem lookup_zip_split {pes pos : List (Entry κ ν)} {e : Entry κ ν} {pre post : List Nat}
    {i : Nat} (hlen : pre.length = pes.length) (hk : e.key ∉ pes.map (·.key)) :
    (((pes ++ e :: pos).map (·.key)).zip (pre ++ i :: post)).lookup e.key = some i := by
  rw [List.map_append, List.zip_append (by simpa using hlen.symm), List.lookup_append,
    lookup_zip_of_not_mem hk]
  simp

/-- Dropping a key present once drops its pair and nothing else. -/
theorem zip_filter_split {pes pos : List (Entry κ ν)} {e : Entry κ ν} {pre post : List Nat}
    {i : Nat} (hlen : pre.length = pes.length) (hpre : e.key ∉ pes.map (·.key))
    (hpos : e.key ∉ pos.map (·.key)) :
    (((pes ++ e :: pos).map (·.key)).zip (pre ++ i :: post)).filter (·.1 != e.key) =
      ((pes ++ pos).map (·.key)).zip (pre ++ post) := by
  have hkeep : ∀ (es : List (Entry κ ν)) (ix : List Nat), e.key ∉ es.map (·.key) →
      ((es.map (·.key)).zip ix).filter (·.1 != e.key) = (es.map (·.key)).zip ix :=
    fun es ix hk => List.filter_eq_self.2 fun ⟨a, _⟩ hp => by
      rw [bne_iff_ne]
      rintro rfl
      exact hk (List.of_mem_zip hp).1
  have hlen' : (pes.map (·.key)).length = pre.length := by simpa using hlen.symm
  rw [List.map_append, List.map_append, List.zip_append hlen', List.zip_append hlen',
    List.filter_append, hkeep pes pre hpre, List.map_cons, List.zip_cons_cons,
    List.filter_cons_of_neg (by simp), hkeep pos post hpos]

end KeyMap

/-! ### Reading the list back -/

/-- Walking the links from the first slot of a chain meets its keys in order, given fuel for
each. -/
theorem Chain.keysFrom_eq {c : CostLru κ ν} {p : Option Nat} {ix : List Nat} {es : List (Entry κ ν)}
    (h : Chain c p ix es none) (fuel : Nat) (hf : ix.length ≤ fuel) :
    c.keysFrom fuel ix.head? = es.map (·.key) := by
  induction ix generalizing p es fuel with
  | nil =>
    cases es with
    | nil => cases fuel <;> rfl
    | cons e es => exact (h : False).elim
  | cons i ix ih =>
    cases es with
    | nil => exact (h : False).elim
    | cons e es =>
      obtain ⟨fuel, rfl⟩ : ∃ f, fuel = f + 1 := ⟨fuel - 1, by simp at hf; omega⟩
      have hn := h.1
      rw [Option.or_none] at hn
      simp only [CostLru.keysFrom, List.head?_cons, hn, List.map_cons]
      rw [ih h.2 fuel (by simp at hf; omega)]

/-- The arena holds the recency list `es` in the slots `ix`, and the map pairs each key, present
once, with its slot. -/
structure Layout [DecidableEq κ] (c : CostLru κ ν) (es : List (Entry κ ν)) (ix : List Nat) : Prop
    extends Slots c es ix where
  keys_nodup : (es.map (·.key)).Nodup
  map_perm : c.map.Perm ((es.map (·.key)).zip ix)

section Layout

variable [DecidableEq κ] {c : CostLru κ ν}

theorem Layout.map_keys {es : List (Entry κ ν)} {ix : List Nat} (h : Layout c es ix) :
    (c.map.map Prod.fst).Perm (es.map (·.key)) := by
  have := h.map_perm.map Prod.fst
  rwa [List.map_fst_zip (by simp [h.length_eq])] at this

theorem Layout.lookup_eq {es : List (Entry κ ν)} {ix : List Nat} (h : Layout c es ix) (k : κ) :
    c.map.lookup k = ((es.map (·.key)).zip ix).lookup k :=
  lookup_of_perm h.map_perm (h.map_keys.nodup_iff.2 h.keys_nodup) k

/-- A key of the list sits at one place in it, and its slot at the same place of `ix`. -/
theorem Layout.split {es : List (Entry κ ν)} {ix : List Nat} {k : κ} (h : Layout c es ix)
    (hk : k ∈ es.map (·.key)) :
    ∃ pes e pos pre i post, es = pes ++ e :: pos ∧ ix = pre ++ i :: post ∧
      pre.length = pes.length ∧ e.key = k := by
  obtain ⟨e, he, rfl⟩ := List.mem_map.1 hk
  obtain ⟨pes, pos, rfl⟩ := List.mem_iff_append.1 he
  have hlen := h.length_eq
  obtain ⟨i, post, hdrop⟩ : ∃ i post, ix.drop pes.length = i :: post :=
    @List.exists_of_length_succ _ pos.length _ (by
      simp only [List.length_drop, hlen, List.length_append, List.length_cons]
      omega)
  refine ⟨pes, e, pos, ix.take pes.length, i, post, rfl, ?_, by simp [hlen], rfl⟩
  rw [← hdrop, List.take_append_drop]

/-- The keys of a list cut at a key are elsewhere in the list. -/
theorem Layout.not_mem_split {pes pos : List (Entry κ ν)} {e : Entry κ ν} {ix : List Nat}
    (h : Layout c (pes ++ e :: pos) ix) :
    e.key ∉ pes.map (·.key) ∧ e.key ∉ pos.map (·.key) := by
  have := h.keys_nodup
  simp only [List.map_append, List.map_cons, List.nodup_append, List.nodup_cons] at this
  exact ⟨fun hk => this.2.2 _ hk _ List.mem_cons_self rfl, this.2.1.1⟩

/-- **Removing a key of the list** hands back its value and takes out its entry. -/
theorem Layout.remove?_split {pes pos : List (Entry κ ν)} {e : Entry κ ν} {pre post : List Nat}
    {i : Nat} (h : Layout c (pes ++ e :: pos) (pre ++ i :: post)) (hlen : pre.length = pes.length) :
    (c.remove? e.key).1 = some e.value ∧ Layout (c.remove? e.key).2 (pes ++ pos) (pre ++ post) ∧
      (c.remove? e.key).2.maxCost = c.maxCost := by
  obtain ⟨hpre, hpos⟩ := h.not_mem_split
  have hl : c.map.lookup e.key = some i := by rw [h.lookup_eq, lookup_zip_split hlen hpre]
  -- the key leaves the map first; the slots do not read the map
  have hs : Slots { c with map := c.map.filter (·.1 != e.key) } (pes ++ e :: pos) (pre ++ i :: post) :=
    h.toSlots.congr rfl rfl rfl rfl rfl
  obtain ⟨h1, h2, h3, h4⟩ := hs.takeSlot hlen
  unfold CostLru.remove?
  rw [hl]
  refine ⟨by simp [h1], ⟨h2, keys_nodup_split h.keys_nodup, ?_⟩, h4⟩
  rw [h3, ← zip_filter_split hlen hpre hpos]
  exact h.map_perm.filter _

/-- Removing a key that is not there changes nothing. -/
theorem Layout.remove?_not_mem {es : List (Entry κ ν)} {ix : List Nat} {k : κ} (h : Layout c es ix)
    (hk : k ∉ es.map (·.key)) : c.remove? k = (none, c) := by
  unfold CostLru.remove?
  rw [h.lookup_eq, lookup_zip_of_not_mem hk]

/-- **Popping the tail** hands back the last entry and takes it out. -/
theorem Layout.popLru?_last {es : List (Entry κ ν)} {e : Entry κ ν} {ix : List Nat} {i : Nat}
    (h : Layout c (es ++ [e]) (ix ++ [i])) :
    c.popLru?.1 = some (e.key, e.value) ∧ Layout c.popLru?.2 es ix ∧
      c.popLru?.2.maxCost = c.maxCost := by
  have hlen : ix.length = es.length := by simpa using h.length_eq
  obtain ⟨hpre, hpos⟩ := h.not_mem_split
  obtain ⟨h1, h2, h3, h4⟩ := h.toSlots.takeSlot hlen
  have ht : c.takeSlot i = (some (e.key, e.value), (c.takeSlot i).2) := Prod.ext h1 rfl
  have htail : c.tail = some i := by rw [h.tail, List.getLast?_concat]
  unfold CostLru.popLru?
  rw [htail]
  dsimp only
  rw [ht]
  dsimp only
  simp only [List.append_nil] at h2
  refine ⟨rfl, ⟨h2.congr rfl rfl rfl rfl rfl, by simpa using keys_nodup_split h.keys_nodup, ?_⟩, h4⟩
  have hz := @zip_filter_split κ ν _ es [] e ix [] i hlen hpre hpos
  simp only [List.append_nil] at hz
  rw [h3, ← hz]
  exact h.map_perm.filter _

/-- An empty list has no tail to pop. -/
theorem Layout.popLru?_nil (h : Layout c [] []) : c.popLru? = (none, c) := by
  unfold CostLru.popLru?
  rw [h.tail]
  rfl

/-- A non-empty list ends in an entry, and its slots in that entry's slot. -/
theorem Layout.exists_last {es : List (Entry κ ν)} {ix : List Nat} (h : Layout c es ix)
    (hne : es ≠ []) : ∃ es₀ e ix₀ i, es = es₀ ++ [e] ∧ ix = ix₀ ++ [i] := by
  rcases List.eq_nil_or_concat' es with rfl | ⟨es₀, e, rfl⟩
  · exact absurd rfl hne
  · rcases List.eq_nil_or_concat' ix with rfl | ⟨ix₀, i, rfl⟩
    · simpa using h.length_eq
    · exact ⟨es₀, e, ix₀, i, rfl, rfl⟩

/-- **The eviction loop keeps the longest front part of the list within the budget**, and hands
back the rest from the least recent end. -/
theorem Layout.evict (budget : Nat) {es : List (Entry κ ν)} {ix : List Nat} (h : Layout c es ix) :
    ∃ ix', (c.evict budget).1 = (Recency.splitWithin budget es).2.reverse.map (fun e => (e.key, e.value)) ∧
      Layout (c.evict budget).2 (Recency.splitWithin budget es).1 ix' ∧
      (c.evict budget).2.maxCost = c.maxCost := by
  -- over the list costs more than the budget exactly when it has a last entry to pop
  have hne : ∀ {c : CostLru κ ν} {es ix}, Layout c es ix → budget < c.currentCost → es ≠ [] :=
    fun h hlt hnil => by rw [h.cost_eq, hnil] at hlt; simp at hlt
  fun_induction c.evict budget generalizing es ix with
  | case1 c hlt e c' hpop _ r =>
    rename_i ih
    obtain ⟨es₀, e₀, ix₀, i, rfl, rfl⟩ := h.exists_last (hne h hlt)
    obtain ⟨h1, h2, h3⟩ := h.popLru?_last
    rw [hpop] at h1 h2 h3
    cases h1
    obtain ⟨ix', he, hl, hm⟩ := ih h2
    rw [h.cost_eq] at hlt
    rw [Recency.splitWithin_dropLast hlt]
    exact ⟨ix', by simp [r, he, List.map_reverse], hl, hm.trans h3⟩
  | case2 c hlt c' hpop =>
    obtain ⟨es₀, e₀, ix₀, i, rfl, rfl⟩ := h.exists_last (hne h hlt)
    have h1 := h.popLru?_last.1
    rw [hpop] at h1
    cases h1
  | case3 c hle =>
    rw [h.cost_eq] at hle
    rw [Recency.splitWithin_of_costOf_le (by omega)]
    exact ⟨ix, rfl, h, rfl⟩

/-- **Reading a key of the list with `modify?`** rewrites its value and moves its entry to the
front. -/
theorem Layout.modify?_split {pes pos : List (Entry κ ν)} {e : Entry κ ν} {pre post : List Nat}
    {i : Nat} (h : Layout c (pes ++ e :: pos) (pre ++ i :: post)) (hlen : pre.length = pes.length)
    (f : ν → ν) :
    (c.modify? e.key f).1 = some (f e.value) ∧
      Layout (c.modify? e.key f).2 ({ e with value := f e.value } :: (pes ++ pos)) (i :: (pre ++ post)) ∧
      (c.modify? e.key f).2.maxCost = c.maxCost := by
  obtain ⟨hpre, -⟩ := h.not_mem_split
  have hl : c.map.lookup e.key = some i := by rw [h.lookup_eq, lookup_zip_split hlen hpre]
  have hs := (h.toSlots.moveFront hlen).setValue f
  have hnd : (e.key :: (pes ++ pos).map (·.key)).Nodup := by
    have := h.keys_nodup
    simp only [List.map_append, List.map_cons] at this ⊢
    exact List.nodup_middle.1 this
  obtain ⟨hmap, -, -, hmax, -⟩ := unlink_rest c i
  obtain ⟨hmap', -, -, hmax', -⟩ := pushFront_rest (c.unlink i) i
  unfold CostLru.modify?
  rw [hl]
  dsimp only
  refine ⟨by rw [hs.chain.1]; rfl, ⟨hs, hnd, ?_⟩, hmax'.trans hmax⟩
  show ((c.unlink i).pushFront i).map.Perm _
  rw [hmap', hmap]
  exact h.map_perm.trans (zip_split_perm hlen)

/-- `modify?` of a key that is not there changes nothing. -/
theorem Layout.modify?_not_mem {es : List (Entry κ ν)} {ix : List Nat} {k : κ} (h : Layout c es ix)
    (hk : k ∉ es.map (·.key)) (f : ν → ν) : c.modify? k f = (none, c) := by
  unfold CostLru.modify?
  rw [h.lookup_eq, lookup_zip_of_not_mem hk]

theorem Layout.peek?_split {pes pos : List (Entry κ ν)} {e : Entry κ ν} {pre post : List Nat}
    {i : Nat} (h : Layout c (pes ++ e :: pos) (pre ++ i :: post)) (hlen : pre.length = pes.length) :
    c.peek? e.key = some e.value := by
  obtain ⟨hpre, -⟩ := h.not_mem_split
  unfold CostLru.peek?
  rw [h.lookup_eq, lookup_zip_split hlen hpre]
  simp [(h.toLinks.node_at hlen).1]

theorem Layout.peek?_not_mem {es : List (Entry κ ν)} {ix : List Nat} {k : κ} (h : Layout c es ix)
    (hk : k ∉ es.map (·.key)) : c.peek? k = none := by
  unfold CostLru.peek?
  rw [h.lookup_eq, lookup_zip_of_not_mem hk]
  rfl

theorem Layout.contains_eq {es : List (Entry κ ν)} {ix : List Nat} (h : Layout c es ix) (k : κ) :
    c.contains k = decide (k ∈ es.map (·.key)) := by
  unfold CostLru.contains
  by_cases hk : k ∈ es.map (·.key)
  · obtain ⟨pes, e, pos, pre, i, post, rfl, rfl, hlen, rfl⟩ := h.split hk
    rw [h.lookup_eq, lookup_zip_split hlen h.not_mem_split.1]
    simp
  · rw [h.lookup_eq, lookup_zip_of_not_mem hk]
    simp [hk]

theorem Layout.size_eq {es : List (Entry κ ν)} {ix : List Nat} (h : Layout c es ix) :
    c.size = es.length := by
  unfold CostLru.size
  rw [h.map_perm.length_eq, List.length_zip, List.length_map, h.length_eq, Nat.min_self]

/-- **The keys, head to tail, are the keys of the list.** -/
theorem Layout.keys_eq {es : List (Entry κ ν)} {ix : List Nat} (h : Layout c es ix) :
    c.keys = es.map (·.key) := by
  unfold CostLru.keys
  rw [h.head, h.chain.keysFrom_eq _ (Nat.le_of_eq (by rw [h.size_eq, h.length_eq]))]

/-- With no entry for `k`, dropping `k` from the map changes nothing. -/
theorem Layout.map_filter_of_not_mem {es : List (Entry κ ν)} {ix : List Nat} {k : κ}
    (h : Layout c es ix) (hk : k ∉ es.map (·.key)) : c.map.filter (·.1 != k) = c.map :=
  List.filter_eq_self.2 fun ⟨a, i⟩ hp => by
    rw [bne_iff_ne]
    rintro rfl
    exact hk (h.map_keys.mem_iff.1 (List.mem_map.2 ⟨(a, i), hp, rfl⟩))

/-- **Writing a new key in front** adds its entry in front of the list, whichever slot it takes. -/
theorem Layout.pushNew {es : List (Entry κ ν)} {ix : List Nat} {k : κ} (h : Layout c es ix)
    (hk : k ∉ es.map (·.key)) (v : ν) (w : Nat) :
    ∃ ix', Layout (c.pushNew k v w) (⟨k, v, w⟩ :: es) ix' ∧ (c.pushNew k v w).maxCost = c.maxCost := by
  have hnd : ((⟨k, v, w⟩ :: es : List (Entry κ ν)).map (·.key)).Nodup :=
    List.nodup_cons.2 ⟨hk, h.keys_nodup⟩
  -- whichever slot `i` the node takes, the map gains `(k, i)` in front of the old pairs
  have hmap : ∀ (c' : CostLru κ ν) (i : Nat), c'.map = c.map →
      ((k, i) :: (c'.pushFront i).map.filter (·.1 != k)).Perm
        (((⟨k, v, w⟩ :: es : List (Entry κ ν)).map (·.key)).zip (i :: ix)) := fun c' i hc => by
    rw [(pushFront_rest c' i).1, hc, h.map_filter_of_not_mem hk]
    exact h.map_perm.cons _
  unfold CostLru.pushNew
  dsimp only
  split
  · rename_i i rest hf
    exact ⟨i :: ix, ⟨(h.toSlots.placeFree hf ⟨k, v, w⟩).pushFront _, hnd, hmap _ i rfl⟩,
      (pushFront_rest _ _).2.2.2.1⟩
  · rename_i hf
    exact ⟨c.slots.length :: ix, ⟨(h.toSlots.placeNew hf ⟨k, v, w⟩).pushFront _, hnd,
      hmap _ _ rfl⟩, (pushFront_rest _ _).2.2.2.1⟩

/-- A cleared arena lays out the empty list. -/
theorem layout_clear (c : CostLru κ ν) : Layout c.clear [] [] :=
  ⟨⟨⟨trivial, rfl, rfl, List.nodup_nil⟩, List.nodup_nil, fun _ => by simp [CostLru.clear, occupancy],
    fun _ => by simp [CostLru.clear, occupancy], rfl⟩, List.nodup_nil, List.Perm.nil⟩

/-- A new arena lays out the empty list. -/
theorem layout_empty (m : Nat) : Layout (CostLru.empty m : CostLru κ ν) [] [] :=
  layout_clear (CostLru.empty m)

/-- The layout does not read the ceiling. -/
theorem Layout.withMaxCost {es : List (Entry κ ν)} {ix : List Nat} (h : Layout c es ix) (m : Nat) :
    Layout { c with maxCost := m } es ix :=
  ⟨h.toSlots.congr rfl rfl rfl rfl rfl, h.keys_nodup, h.map_perm⟩

end Layout

end CostLru
end Cache
end Thumbnailer
