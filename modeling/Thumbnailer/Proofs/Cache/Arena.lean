import Thumbnailer.Proofs.Cache.Recency
import Mathlib.Tactic.SplitIfs
import Mathlib.Data.List.Nodup

/-!
# The slot arena of a cost-bounded map

A `CostLru` keeps its entries in the slots of an arena and threads them through a doubly linked
list. `Links c es ix` says that following the links from `head` visits the slots `ix` in order
and ends at `tail`, the node of each holding its entry of the recency list `es` with `prev` and
`next` pointing at its neighbours (`Chain`), and that no slot is visited twice.

Relinking (`unlink`, `pushFront`) rewrites links only: it keeps the map, the free list, the
costs and which slots hold a node (`occupancy`). Unlinking a slot of the list takes its entry
out and leaves its node detached (`Links.unlink`); linking a detached node in front adds its
entry in front (`Links.pushFront`). A chain is split at any slot (`chain_append`) and moved to
an arena that agrees on its nodes (`Chain.frame`), so each edit is checked only where it
touches the list: at the slot and its two neighbours.
-/

namespace Thumbnailer
namespace Cache
namespace CostLru

open Recency (Entry costOf)

variable {κ ν : Type}

/-! ### Nodes -/

@[simp] theorem node?_updateNode (c : CostLru κ ν) (j : Nat) (f : Node κ ν → Node κ ν) (i : Nat) :
    (c.updateNode j f).node? i = if j = i then (c.node? i).map f else c.node? i := by
  unfold node? updateNode
  rw [List.getElem?_modify]
  by_cases h : j = i
  · subst h
    cases c.slots[j]? with
    | none => simp
    | some x => cases x <;> simp
  · cases c.slots[i]? with
    | none => simp [h]
    | some x => simp [h]

/-- Setting anything but the slots leaves every node alone. -/
@[simp] theorem node?_withLinks (c : CostLru κ ν) (m : List (κ × Nat)) (f : List Nat) (h t : Option Nat)
    (mc cc j : Nat) :
    ({ map := m, slots := c.slots, free := f, head := h, tail := t, maxCost := mc, currentCost := cc } :
      CostLru κ ν).node? j = c.node? j := rfl

/-- Which slots hold a node; an empty slot reads `false`. -/
def occupancy (c : CostLru κ ν) : List Bool := c.slots.map Option.isSome

@[simp] theorem occupancy_updateNode (c : CostLru κ ν) (j : Nat) (f : Node κ ν → Node κ ν) :
    (c.updateNode j f).occupancy = c.occupancy := by
  unfold occupancy updateNode
  refine List.ext_getElem? fun i => ?_
  simp only [List.getElem?_map, List.getElem?_modify]
  cases c.slots[i]? with
  | none => rfl
  | some x => by_cases h : j = i <;> cases x <;> simp [h]

@[simp] theorem occupancy_withLinks (c : CostLru κ ν) (m : List (κ × Nat)) (f : List Nat)
    (h t : Option Nat) (mc cc : Nat) :
    ({ map := m, slots := c.slots, free := f, head := h, tail := t, maxCost := mc, currentCost := cc } :
      CostLru κ ν).occupancy = c.occupancy := rfl

/-! ### Relinking rewrites links only -/

/-- What `unlink` does to each node: the neighbours are joined and the node's own links are
cleared. -/
theorem node?_unlink {c : CostLru κ ν} {i : Nat} {n : Node κ ν} (hn : c.node? i = some n) (j : Nat) :
    (c.unlink i).node? j =
      if j = i then some { n with prev := none, next := none }
      else (c.node? j).map fun m =>
        { m with next := if n.prev = some j then n.next else m.next,
                 prev := if n.next = some j then n.prev else m.prev } := by
  unfold unlink
  rw [hn]
  dsimp only
  by_cases hj : j = i
  · subst hj
    cases hp : n.prev <;> cases hq : n.next <;> simp [hn] <;> split_ifs <;> simp
  · cases hp : n.prev <;> cases hq : n.next <;> simp [hj, Ne.symm hj] <;> split_ifs <;>
      simp [Function.comp_def]

theorem unlink_head {c : CostLru κ ν} {i : Nat} {n : Node κ ν} (hn : c.node? i = some n) :
    (c.unlink i).head = if n.prev = none then n.next else c.head := by
  unfold unlink
  rw [hn]
  dsimp only
  cases n.prev <;> cases n.next <;> rfl

theorem unlink_tail {c : CostLru κ ν} {i : Nat} {n : Node κ ν} (hn : c.node? i = some n) :
    (c.unlink i).tail = if n.next = none then n.prev else c.tail := by
  unfold unlink
  rw [hn]
  dsimp only
  cases n.prev <;> cases n.next <;> rfl

/-- Unlinking changes the links, `head` and `tail`, and nothing else. -/
theorem unlink_rest (c : CostLru κ ν) (i : Nat) :
    (c.unlink i).map = c.map ∧ (c.unlink i).free = c.free ∧
      (c.unlink i).currentCost = c.currentCost ∧ (c.unlink i).maxCost = c.maxCost ∧
      (c.unlink i).occupancy = c.occupancy := by
  unfold unlink
  split
  · exact ⟨rfl, rfl, rfl, rfl, rfl⟩
  · split <;> split <;> exact ⟨rfl, rfl, rfl, rfl, by simp⟩

/-- What `pushFront` does to each node: the node in front links to the old head, which links
back to it. -/
theorem node?_pushFront (c : CostLru κ ν) (i j : Nat) :
    (c.pushFront i).node? j = (c.node? j).map fun m =>
      { m with prev := if c.head = some j then some i else if i = j then none else m.prev,
               next := if i = j then c.head else m.next } := by
  unfold pushFront
  dsimp only
  cases hh : c.head with
  | none =>
    simp only [node?_withLinks, node?_updateNode, reduceCtorEq, if_false]
    by_cases hij : i = j
    · subst hij
      cases c.node? i <;> simp
    · cases c.node? j <;> simp [hij]
  | some h =>
    simp only [node?_withLinks, node?_updateNode, Option.some.injEq]
    by_cases hij : i = j <;> by_cases hhj : h = j <;> subst_vars <;> cases c.node? _ <;>
      simp [*]

theorem pushFront_head (c : CostLru κ ν) (i : Nat) : (c.pushFront i).head = some i := by
  unfold pushFront
  rfl

theorem pushFront_tail (c : CostLru κ ν) (i : Nat) :
    (c.pushFront i).tail = if c.tail.isNone then some i else c.tail := by
  unfold pushFront
  dsimp only
  cases c.head <;> rfl

theorem pushFront_rest (c : CostLru κ ν) (i : Nat) :
    (c.pushFront i).map = c.map ∧ (c.pushFront i).free = c.free ∧
      (c.pushFront i).currentCost = c.currentCost ∧ (c.pushFront i).maxCost = c.maxCost ∧
      (c.pushFront i).occupancy = c.occupancy := by
  unfold pushFront
  dsimp only
  cases c.head <;> exact ⟨rfl, rfl, rfl, rfl, by simp⟩

/-! ### Chains of linked slots -/

/-- The slots `ix` hold the entries `es` in this order, each node linked to its neighbours:
`p` is the link before the first node and `q` the link after the last. -/
def Chain (c : CostLru κ ν) : Option Nat → List Nat → List (Entry κ ν) → Option Nat → Prop
  | _, [], [], _ => True
  | p, i :: ix, e :: es, q =>
    c.node? i = some ⟨e.key, e.value, e.cost, p, ix.head?.or q⟩ ∧ Chain c (some i) ix es q
  | _, _, _, _ => False

section Chain

variable {c c' : CostLru κ ν} {p q : Option Nat}

theorem Chain.length_eq {ix : List Nat} {es : List (Entry κ ν)} (h : Chain c p ix es q) :
    ix.length = es.length := by
  induction ix generalizing p es with
  | nil =>
    cases es with
    | nil => rfl
    | cons e es => exact (h : False).elim
  | cons i ix ih =>
    cases es with
    | nil => exact (h : False).elim
    | cons e es => simp [ih h.2]

/-- A chain is a chain of the nodes it visits: other slots may change. -/
theorem Chain.frame {ix : List Nat} {es : List (Entry κ ν)} (h : Chain c p ix es q)
    (hf : ∀ i ∈ ix, c'.node? i = c.node? i) : Chain c' p ix es q := by
  induction ix generalizing p es with
  | nil =>
    cases es with
    | nil => trivial
    | cons e es => exact (h : False).elim
  | cons i ix ih =>
    cases es with
    | nil => exact (h : False).elim
    | cons e es =>
      exact ⟨(hf i List.mem_cons_self).trans h.1,
        ih h.2 fun j hj => hf j (List.mem_cons_of_mem i hj)⟩

/-- **A chain splits where its slots do**, at the link between the two parts. -/
theorem chain_append {ix₁ ix₂ : List Nat} {es₁ es₂ : List (Entry κ ν)}
    (hlen : ix₁.length = es₁.length) :
    Chain c p (ix₁ ++ ix₂) (es₁ ++ es₂) q ↔
      Chain c p ix₁ es₁ (ix₂.head?.or q) ∧ Chain c (ix₁.getLast?.or p) ix₂ es₂ q := by
  induction ix₁ generalizing p es₁ with
  | nil =>
    obtain rfl : es₁ = [] := List.eq_nil_of_length_eq_zero hlen.symm
    simp [Chain]
  | cons i ix₁ ih =>
    obtain ⟨e, es₁, rfl⟩ := List.exists_cons_of_length_eq_add_one hlen.symm
    have hlast : (i :: ix₁).getLast?.or p = ix₁.getLast?.or (some i) := by
      rw [List.getLast?_cons, Option.or_some]
      rfl
    simp only [List.cons_append, Chain, ih (by simpa using hlen), List.head?_append, Option.or_assoc,
      hlast, and_assoc]

/-- The first node of a chain may get a new back link. -/
theorem Chain.relinkFirst {i : Nat} {ix : List Nat} {e : Entry κ ν} {es : List (Entry κ ν)}
    {p' : Option Nat} (h : Chain c p (i :: ix) (e :: es) q)
    (hi : c'.node? i = some ⟨e.key, e.value, e.cost, p', ix.head?.or q⟩)
    (hf : ∀ j ∈ ix, c'.node? j = c.node? j) : Chain c' p' (i :: ix) (e :: es) q :=
  ⟨hi, h.2.frame hf⟩

/-- The last node of a chain may get a new forward link. -/
theorem Chain.relinkLast {i : Nat} {ix : List Nat} {e : Entry κ ν} {es : List (Entry κ ν)}
    {q' : Option Nat} (h : Chain c p (ix ++ [i]) (es ++ [e]) q) (hlen : ix.length = es.length)
    (hi : c'.node? i = some ⟨e.key, e.value, e.cost, ix.getLast?.or p, q'⟩)
    (hf : ∀ j ∈ ix, c'.node? j = c.node? j) : Chain c' p (ix ++ [i]) (es ++ [e]) q' := by
  rw [chain_append hlen] at h ⊢
  exact ⟨h.1.frame hf, hi, trivial⟩

end Chain

/-! ### The recency list in the arena -/

/-- The recency list `es` sits in the slots `ix`, most recent first: the links lead from `head`
through `ix` to `tail`, and no slot is visited twice. -/
structure Links (c : CostLru κ ν) (es : List (Entry κ ν)) (ix : List Nat) : Prop where
  chain : Chain c none ix es none
  head : c.head = ix.head?
  tail : c.tail = ix.getLast?
  nodup : ix.Nodup

theorem Links.length_eq {c : CostLru κ ν} {es : List (Entry κ ν)} {ix : List Nat} (h : Links c es ix) :
    ix.length = es.length :=
  h.chain.length_eq

/-- The node of a slot of the list, with its links. -/
theorem Links.node_at {c : CostLru κ ν} {pes pos : List (Entry κ ν)} {e : Entry κ ν}
    {pre post : List Nat} {i : Nat} (h : Links c (pes ++ e :: pos) (pre ++ i :: post))
    (hlen : pre.length = pes.length) :
    c.node? i = some ⟨e.key, e.value, e.cost, pre.getLast?, post.head?⟩ ∧
      Chain c none pre pes (some i) ∧ Chain c (some i) post pos none := by
  have hc := (chain_append hlen).1 h.chain
  simp only [Chain, List.head?_cons, Option.or_none] at hc
  exact ⟨hc.2.1, hc.1, hc.2.2⟩

section Unlink

variable {c : CostLru κ ν} {i : Nat} {n : Node κ ν}

/-- Unlinking leaves alone every node but the slot's own and its two neighbours'. -/
theorem node?_unlink_of_ne (hn : c.node? i = some n) {j : Nat} (hj : j ≠ i)
    (hp : n.prev ≠ some j) (hq : n.next ≠ some j) : (c.unlink i).node? j = c.node? j := by
  rw [node?_unlink hn, if_neg hj]
  cases c.node? j <;> simp [hp, hq]

/-- After unlinking, the part of the list before the slot ends where the slot pointed. -/
theorem Chain.unlink_before {pre : List Nat} {pes : List (Entry κ ν)} (hn : c.node? i = some n)
    (hc : Chain c none pre pes (some i)) (hprev : n.prev = pre.getLast?) (hnd : (pre ++ [i]).Nodup)
    (hsep : ∀ j ∈ pre, n.next ≠ some j) : Chain (c.unlink i) none pre pes n.next := by
  rcases List.eq_nil_or_concat' pre with rfl | ⟨pre, a, rfl⟩
  · obtain rfl : pes = [] := List.eq_nil_of_length_eq_zero hc.length_eq.symm
    trivial
  · obtain ⟨pes, ea, rfl⟩ : ∃ pes' ea, pes = pes' ++ [ea] := by
      rcases List.eq_nil_or_concat' pes with rfl | hpes
      · simpa using hc.length_eq
      · exact hpes
    have hlen : pre.length = pes.length := by simpa using hc.length_eq
    simp only [List.getLast?_append, List.getLast?_singleton, Option.some_or] at hprev
    obtain ⟨hnpa, -, hpai⟩ := List.nodup_append.1 hnd
    have hpa := (List.nodup_append.1 hnpa).2.2
    have ha := ((chain_append hlen).1 hc).2.1
    refine hc.relinkLast hlen ?_ fun j hj => node?_unlink_of_ne hn ?_ ?_ ?_
    · -- the last node before the slot now points where the slot pointed
      have hai : a ≠ i := hpai a (List.mem_append_right pre (List.mem_singleton_self a)) i
        (List.mem_singleton_self i)
      rw [node?_unlink hn, if_neg hai, ha]
      simp [hprev, hsep a (List.mem_append_right pre (List.mem_singleton_self a))]
    · exact hpai j (List.mem_append_left [a] hj) i (List.mem_singleton_self i)
    · exact fun h => hpa j hj a (List.mem_singleton_self a) (Option.some.inj (hprev ▸ h)).symm
    · exact hsep j (List.mem_append_left [a] hj)

/-- After unlinking, the part of the list after the slot starts where the slot came from. -/
theorem Chain.unlink_after {post : List Nat} {pos : List (Entry κ ν)} (hn : c.node? i = some n)
    (hc : Chain c (some i) post pos none) (hnext : n.next = post.head?) (hnd : (i :: post).Nodup)
    (hsep : ∀ j ∈ post, n.prev ≠ some j) : Chain (c.unlink i) n.prev post pos none := by
  cases post with
  | nil =>
    obtain rfl : pos = [] := List.eq_nil_of_length_eq_zero hc.length_eq.symm
    trivial
  | cons b post =>
    cases pos with
    | nil => exact (hc : False).elim
    | cons eb pos =>
      simp only [List.nodup_cons, List.mem_cons, not_or] at hnd
      refine hc.relinkFirst ?_ fun j hj => node?_unlink_of_ne hn ?_ ?_ ?_
      · -- the first node after the slot now points back where the slot did
        rw [node?_unlink hn, if_neg (Ne.symm hnd.1.1), hc.1]
        simp [hnext, hsep b List.mem_cons_self]
      · exact fun h => hnd.1.2 (h ▸ hj)
      · exact hsep j (List.mem_cons_of_mem b hj)
      · exact fun h => hnd.2.1 ((Option.some.inj (hnext ▸ h)) ▸ hj)

end Unlink

/-- **Unlinking a slot of the list** takes its entry out and leaves its node detached. -/
theorem Links.unlink {c : CostLru κ ν} {pes pos : List (Entry κ ν)} {e : Entry κ ν}
    {pre post : List Nat} {i : Nat} (h : Links c (pes ++ e :: pos) (pre ++ i :: post))
    (hlen : pre.length = pes.length) :
    Links (c.unlink i) (pes ++ pos) (pre ++ post) ∧
      (c.unlink i).node? i = some ⟨e.key, e.value, e.cost, none, none⟩ := by
  obtain ⟨hn, hpre, hpost⟩ := h.node_at hlen
  have hnd := h.nodup
  have hnd' : (pre ++ post).Nodup := (List.nodup_middle.1 hnd).of_cons
  simp only [List.nodup_append, List.nodup_cons, List.mem_cons] at hnd
  obtain ⟨hnpre, ⟨hipost, hnpost⟩, hdisj⟩ := hnd
  -- a neighbour of the slot on one side is not a slot on the other
  have hsep : ∀ a ∈ pre, ∀ b ∈ post, a ≠ b := fun a ha b hb => hdisj a ha b (.inr hb)
  refine ⟨⟨?_, ?_, ?_, hnd'⟩, by simp [node?_unlink hn]⟩
  · rw [chain_append (by simpa using hlen), Option.or_none, Option.or_none]
    refine ⟨hpre.unlink_before hn rfl ?_ ?_, hpost.unlink_after hn rfl ?_ ?_⟩
    · exact List.nodup_append.2 ⟨hnpre, List.nodup_singleton i,
        fun a ha b hb => (List.mem_singleton.1 hb) ▸ hdisj a ha i (.inl rfl)⟩
    · exact fun j hj hq => hsep j hj j (List.mem_of_mem_head? hq) rfl
    · exact List.nodup_cons.2 ⟨hipost, hnpost⟩
    · exact fun j hj hq => hsep j (List.mem_of_getLast? hq) j hj rfl
  · rw [unlink_head hn, h.head]
    cases pre <;> simp
  · rw [unlink_tail hn, h.tail]
    cases post with
    | nil => simp
    | cons b post' => simp [List.getLast?_append]

/-- **Linking a detached node in front** puts its entry at the front of the list. -/
theorem Links.pushFront {c : CostLru κ ν} {es : List (Entry κ ν)} {ix : List Nat} {i : Nat}
    {e : Entry κ ν} {p q : Option Nat} (h : Links c es ix) (hi : i ∉ ix)
    (hn : c.node? i = some ⟨e.key, e.value, e.cost, p, q⟩) :
    Links (c.pushFront i) (e :: es) (i :: ix) := by
  have hhead : c.head ≠ some i := by
    rw [h.head]
    exact fun hh => hi (List.mem_of_mem_head? hh)
  refine ⟨⟨?_, ?_⟩, pushFront_head c i, ?_, List.nodup_cons.2 ⟨hi, h.nodup⟩⟩
  · rw [node?_pushFront, hn, h.head]
    rw [h.head] at hhead
    simp [hhead]
  · cases ix with
    | nil =>
      cases es with
      | nil => trivial
      | cons e es => exact (h.chain : False).elim
    | cons b ix' =>
      cases es with
      | nil => exact (h.chain : False).elim
      | cons eb es' =>
        have hib : i ≠ b := fun hb => hi (hb ▸ List.mem_cons_self)
        have hnd := List.nodup_cons.1 h.nodup
        refine h.chain.relinkFirst ?_ fun j hj => ?_
        · rw [node?_pushFront, h.chain.1, h.head]
          simp [hib]
        · have hij : i ≠ j := fun hj' => hi (hj' ▸ List.mem_cons_of_mem b hj)
          have hbj : b ≠ j := fun hj' => hnd.1 (hj' ▸ hj)
          rw [node?_pushFront, h.head]
          cases c.node? j <;> simp [hij, hbj]
  · rw [pushFront_tail, h.tail]
    cases ix with
    | nil => rfl
    | cons b ix' => simp [List.getLast?_cons]

end CostLru
end Cache
end Thumbnailer
