import Thumbnailer.Numeric.Word

/-!
# Cost-bounded least-recently-used maps

A `CostLru` is a map from keys to the slots of an arena, threaded through a doubly linked
recency list: `head` is the most recently used slot and `tail` the least, and each node links
to its neighbours by slot index (`prev` towards the head, `next` towards the tail). Every
entry carries a cost, and `currentCost` adds them up under the ceiling `maxCost`. A slot that
is emptied goes to the free list; an insert reuses the most recently freed slot before the
arena grows.

An insert refuses an entry that alone costs more than the ceiling; otherwise it drops the key's
old entry, evicts from the least recent end until the new entry fits, and links the new entry
in front. `get?` and `modify?` move the entry they find to the front; `peek?` does not.

Each operation keeps the arena's own order of steps: unlinking joins the neighbours (or moves
`head`/`tail`), linking in front updates the old head, and the eviction loop pops the tail
until the costs fit or nothing is left.
-/

namespace Thumbnailer
namespace Cache

/-- A slot's entry and its links. -/
structure CostLru.Node (κ ν : Type) where
  key : κ
  value : ν
  cost : Nat
  /-- Towards the most recently used end. -/
  prev : Option Nat
  /-- Towards the least recently used end. -/
  next : Option Nat

/-- A map under a cost ceiling. -/
structure CostLru (κ ν : Type) where
  /-- The slot of each key, in no particular order. -/
  map : List (κ × Nat) := []
  slots : List (Option (CostLru.Node κ ν)) := []
  /-- The empty slots, the most recently freed first. -/
  free : List Nat := []
  head : Option Nat := none
  tail : Option Nat := none
  maxCost : Nat
  currentCost : Nat := 0

/-- What an insert did: the entries it evicted, or the value it refused because its cost
alone is over the ceiling. -/
inductive CostLru.Admit (κ ν : Type) where
  | evicted (pairs : List (κ × ν))
  | rejected (value : ν)

namespace CostLru

variable {κ ν : Type}

/-! ### The arena -/

/-- The node in slot `i`, if the slot holds one. -/
def node? (c : CostLru κ ν) (i : Nat) : Option (Node κ ν) := c.slots[i]?.bind id

/-- Applies `f` to the node in slot `i`, if there is one. -/
def updateNode (c : CostLru κ ν) (i : Nat) (f : Node κ ν → Node κ ν) : CostLru κ ν :=
  { c with slots := c.slots.modify i (Option.map f) }

/-- Takes slot `i` out of the recency list, joining its neighbours; its links are cleared. -/
def unlink (c : CostLru κ ν) (i : Nat) : CostLru κ ν :=
  match c.node? i with
  | none => c
  | some n =>
    let c := match n.prev with
      | some p => c.updateNode p fun m => { m with next := n.next }
      | none => { c with head := n.next }
    let c := match n.next with
      | some q => c.updateNode q fun m => { m with prev := n.prev }
      | none => { c with tail := n.prev }
    c.updateNode i fun m => { m with prev := none, next := none }

/-- Links slot `i` in front, as the most recently used. -/
def pushFront (c : CostLru κ ν) (i : Nat) : CostLru κ ν :=
  let oldHead := c.head
  let c := c.updateNode i fun m => { m with prev := none, next := oldHead }
  let c := match oldHead with
    | some h => c.updateNode h fun m => { m with prev := some i }
    | none => c
  { c with head := some i, tail := if c.tail.isNone then some i else c.tail }

/-- Unlinks slot `i` and frees it, returning its key and value. -/
def takeSlot (c : CostLru κ ν) (i : Nat) : Option (κ × ν) × CostLru κ ν :=
  let c := c.unlink i
  match c.node? i with
  | none => (none, c)
  | some n =>
    (some (n.key, n.value),
      { c with slots := c.slots.set i none, free := i :: c.free, currentCost := c.currentCost - n.cost })

/-- Removes the least recently used entry. -/
def popLru? [DecidableEq κ] (c : CostLru κ ν) : Option (κ × ν) × CostLru κ ν :=
  match c.tail with
  | none => (none, c)
  | some i =>
    match c.takeSlot i with
    | (none, c) => (none, c)
    | (some e, c) => (some e, { c with map := c.map.filter (·.1 != e.1) })

/-! ### The eviction loop ends

Each entry popped empties a slot, so the number of slots that hold a node bounds the loop. -/

/-- The number of slots that hold a node. -/
def occupied (c : CostLru κ ν) : Nat := c.slots.countP Option.isSome

theorem countP_isSome_modify (l : List (Option (Node κ ν))) (i : Nat) (f : Node κ ν → Node κ ν) :
    (l.modify i (Option.map f)).countP Option.isSome = l.countP Option.isSome := by
  induction l generalizing i with
  | nil => simp
  | cons a l ih =>
    cases i with
    | zero => cases a <;> simp
    | succ i => rw [List.modify_succ_cons, List.countP_cons, List.countP_cons, ih]

theorem occupied_unlink (c : CostLru κ ν) (i : Nat) : (c.unlink i).occupied = c.occupied := by
  unfold unlink
  split
  · rfl
  · -- joining the neighbours and clearing the links rewrite nodes, never empty a slot
    unfold occupied updateNode
    split <;> split <;> simp [countP_isSome_modify]

theorem occupied_takeSlot {c c' : CostLru κ ν} {i : Nat} {e : κ × ν}
    (h : c.takeSlot i = (some e, c')) : c'.occupied < c.occupied := by
  unfold takeSlot at h
  dsimp only at h
  split at h
  · cases h
  · rename_i n hn
    obtain ⟨-, rfl⟩ := Prod.mk.inj h
    have hs : (c.unlink i).slots[i]? = some (some n) := by
      unfold node? at hn
      cases hs : (c.unlink i).slots[i]? with
      | none => simp [hs] at hn
      | some x => simp_all
    obtain ⟨hi, hget⟩ := List.getElem?_eq_some_iff.1 hs
    have hpos : 0 < (c.unlink i).occupied :=
      List.countP_pos_iff.2 ⟨some n, hget ▸ List.getElem_mem hi, rfl⟩
    rw [← occupied_unlink c i]
    simp only [occupied, List.countP_set hi, hget, Option.isSome_some, if_true, Option.isSome_none,
      Bool.false_eq_true, if_false, Nat.add_zero]
    unfold occupied at hpos
    omega

theorem occupied_popLru? [DecidableEq κ] {c c' : CostLru κ ν} {e : κ × ν}
    (h : c.popLru? = (some e, c')) : c'.occupied < c.occupied := by
  unfold popLru? at h
  split at h
  · cases h
  · split at h
    · cases h
    · rename_i i _ _ c₁ ht
      obtain ⟨-, rfl⟩ := Prod.mk.inj h
      have hlt := occupied_takeSlot ht
      exact hlt

/-- Pops least recently used entries while the entries cost more than `budget`, and stops
when none is left; returns the popped pairs in the order they left. -/
def evict [DecidableEq κ] (c : CostLru κ ν) (budget : Nat) : List (κ × ν) × CostLru κ ν :=
  if budget < c.currentCost then
    match h : c.popLru? with
    | (some e, c') =>
      have : c'.occupied < c.occupied := occupied_popLru? h
      let r := c'.evict budget
      (e :: r.1, r.2)
    | (none, c') => ([], c')
  else ([], c)
termination_by c.occupied

/-! ### The map -/

variable [DecidableEq κ]

/-- An empty map with the given ceiling. -/
def empty (maxCost : Nat) : CostLru κ ν := { maxCost }

/-- The number of entries. -/
def size (c : CostLru κ ν) : Nat := c.map.length

/-- The sum of the costs of the entries. -/
def cost (c : CostLru κ ν) : Nat := c.currentCost

/-- Whether a key is present. -/
def contains (c : CostLru κ ν) (k : κ) : Bool := (c.map.lookup k).isSome

/-- The value of a key, leaving the order alone. -/
def peek? (c : CostLru κ ν) (k : κ) : Option ν :=
  (c.map.lookup k).bind fun i => (c.node? i).map (·.value)

/-- The value of a key after applying `f` to it; the key becomes the most recently used. -/
def modify? (c : CostLru κ ν) (k : κ) (f : ν → ν) : Option ν × CostLru κ ν :=
  match c.map.lookup k with
  | none => (none, c)
  | some i =>
    let c := ((c.unlink i).pushFront i).updateNode i fun n => { n with value := f n.value }
    ((c.node? i).map (·.value), c)

/-- The value of a key; the key becomes the most recently used. -/
def get? (c : CostLru κ ν) (k : κ) : Option ν × CostLru κ ν := c.modify? k id

/-- Removes a key, returning its value. -/
def remove? (c : CostLru κ ν) (k : κ) : Option ν × CostLru κ ν :=
  match c.map.lookup k with
  | none => (none, c)
  | some i =>
    let r := { c with map := c.map.filter (·.1 != k) }.takeSlot i
    (r.1.map (·.2), r.2)

/-- Writes a new entry into the most recently freed slot, or a new one at the end of the arena,
links it in front and records its key and cost. -/
def pushNew (c : CostLru κ ν) (k : κ) (v : ν) (w : Nat) : CostLru κ ν :=
  let node : Node κ ν := ⟨k, v, w, none, none⟩
  let (i, c) := match c.free with
    | i :: rest => (i, { c with slots := c.slots.set i (some node), free := rest })
    | [] => (c.slots.length, { c with slots := c.slots ++ [some node] })
  let c := c.pushFront i
  { c with map := (k, i) :: c.map.filter (·.1 != k), currentCost := c.currentCost + w }

/-- Inserts `v` under `k` at cost `w`. The loop's first test adds the new cost to what the
other entries cost, and that sum is a word: past `2^64` it is an overflow. Since the cost is
at most the ceiling, the loop then runs while the entries cost more than the ceiling less `w`. -/
def insert (c : CostLru κ ν) (k : κ) (v : ν) (w : Nat) :
    Except Overflow (Admit κ ν × CostLru κ ν) :=
  if c.maxCost < w then .ok (.rejected v, c)
  else
    let c := (c.remove? k).2
    match checkedAdd c.currentCost w with
    | .error o => .error o
    | .ok _ =>
      let (evicted, c) := c.evict (c.maxCost - w)
      .ok (.evicted evicted, c.pushNew k v w)

/-- Removes every entry whose key satisfies `p`, returning how many went. -/
def removeWhere (c : CostLru κ ν) (p : κ → Bool) : Nat × CostLru κ ν :=
  let doomed := (c.map.map (·.1)).filter p
  (doomed.length, doomed.foldl (fun c k => (c.remove? k).2) c)

/-- A new ceiling, evicting least recently used entries that no longer fit. -/
def setMaxCost (c : CostLru κ ν) (m : Nat) : List (κ × ν) × CostLru κ ν :=
  { c with maxCost := m }.evict m

/-- The map without entries. -/
def clear (c : CostLru κ ν) : CostLru κ ν :=
  { c with map := [], slots := [], free := [], head := none, tail := none, currentCost := 0 }

/-- The keys met following the links from `cursor`, at most `fuel` of them. -/
def keysFrom (c : CostLru κ ν) : Nat → Option Nat → List κ
  | 0, _ => []
  | _ + 1, none => []
  | fuel + 1, some i =>
    match c.node? i with
    | none => []
    | some n => n.key :: c.keysFrom fuel n.next

/-- The keys from the most to the least recently used, following the links from the head; the
list holds `size` of them. -/
def keys (c : CostLru κ ν) : List κ := c.keysFrom c.size c.head

end CostLru
end Cache
end Thumbnailer
