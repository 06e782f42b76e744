import Thumbnailer.Cache.CostLru

/-!
# The recency list a cost-bounded map stands for

A `CostLru` stands for a list of entries, each a key, a value and a cost, from the most to the
least recently used, with no key twice. Every operation is stated here on that list: an insert
refuses an entry that alone costs more than the ceiling; otherwise it drops the key's old entry,
evicts from the least recent end until the new entry fits, and puts the new entry in front;
`get?` moves the key to the front, `peek?` changes nothing, `popLru?` takes the last entry.

What stays after eviction is the longest front part of the list that fits the budget
(`splitWithin`): taking entries from the back one by one while the list costs too much leaves
the same front part (`splitWithin_dropLast`).
-/

namespace Thumbnailer
namespace Cache

/-- One entry of a recency list. -/
structure Recency.Entry (κ ν : Type) where
  key : κ
  value : ν
  cost : Nat

/-- Entries from the most to the least recently used, under a cost ceiling. -/
structure Recency (κ ν : Type) where
  maxCost : Nat
  entries : List (Recency.Entry κ ν) := []

namespace Recency

open CostLru (Admit)

variable {κ ν : Type}

/-- The longest front part of `es` whose costs add up to at most `budget`, and the rest. -/
def splitWithin : Nat → List (Entry κ ν) → List (Entry κ ν) × List (Entry κ ν)
  | _, [] => ([], [])
  | budget, e :: es =>
    if e.cost ≤ budget then
      let r := splitWithin (budget - e.cost) es
      (e :: r.1, r.2)
    else ([], e :: es)

/-- The sum of the costs of a list of entries. -/
def costOf : List (Entry κ ν) → Nat
  | [] => 0
  | e :: es => e.cost + costOf es

@[simp] theorem costOf_nil : costOf ([] : List (Entry κ ν)) = 0 := rfl

@[simp] theorem costOf_cons (e : Entry κ ν) (es : List (Entry κ ν)) :
    costOf (e :: es) = e.cost + costOf es := rfl

@[simp] theorem costOf_append (es fs : List (Entry κ ν)) : costOf (es ++ fs) = costOf es + costOf fs := by
  induction es with
  | nil => simp
  | cons e es ih => simp [ih, Nat.add_assoc]

theorem splitWithin_append (budget : Nat) (es : List (Entry κ ν)) :
    (splitWithin budget es).1 ++ (splitWithin budget es).2 = es := by
  induction es generalizing budget with
  | nil => rfl
  | cons e es ih =>
    unfold splitWithin
    split
    · simp [ih]
    · rfl

theorem cost_splitWithin_le (budget : Nat) (es : List (Entry κ ν)) :
    costOf (splitWithin budget es).1 ≤ budget := by
  induction es generalizing budget with
  | nil => simp [splitWithin]
  | cons e es ih =>
    unfold splitWithin
    split
    · have := ih (budget - e.cost)
      simp only [costOf] at this ⊢
      omega
    · simp [costOf]

/-- A list within the budget is kept whole. -/
theorem splitWithin_of_costOf_le {budget : Nat} {es : List (Entry κ ν)} (h : costOf es ≤ budget) :
    splitWithin budget es = (es, []) := by
  induction es generalizing budget with
  | nil => rfl
  | cons e es ih =>
    simp only [costOf_cons] at h
    rw [splitWithin, if_pos (by omega), ih (by omega)]

/-- **Eviction takes from the back.** When a list costs more than the budget, its last entry
is shed, and the front part kept is the one its other entries would keep. -/
theorem splitWithin_dropLast {budget : Nat} {es : List (Entry κ ν)} {e : Entry κ ν}
    (h : budget < costOf (es ++ [e])) :
    splitWithin budget (es ++ [e]) = ((splitWithin budget es).1, (splitWithin budget es).2 ++ [e]) := by
  induction es generalizing budget with
  | nil =>
    simp only [List.nil_append, costOf_cons, costOf_nil, Nat.add_zero] at h
    simp [splitWithin, Nat.not_le.2 h]
  | cons x es ih =>
    rw [List.cons_append, costOf_cons] at h
    rw [List.cons_append]
    by_cases hx : x.cost ≤ budget
    · simp only [splitWithin, if_pos hx, ih (show budget - x.cost < costOf (es ++ [e]) by omega)]
    · simp only [splitWithin, if_neg hx, List.cons_append]

/-- The front part kept is a prefix of the list. -/
theorem splitWithin_fst_sublist (budget : Nat) (es : List (Entry κ ν)) :
    (splitWithin budget es).1.Sublist es := by
  conv => rhs; rw [← splitWithin_append budget es]
  exact List.sublist_append_left _ _

/-- **Eviction stops as soon as the rest fits**: when an entry is shed, the kept part with that
entry back would cost more than the budget. -/
theorem splitWithin_minimal {budget : Nat} {es : List (Entry κ ν)} {d : Entry κ ν}
    {ds : List (Entry κ ν)} (h : (splitWithin budget es).2 = d :: ds) :
    budget < costOf ((splitWithin budget es).1 ++ [d]) := by
  induction es generalizing budget with
  | nil => cases h
  | cons e es ih =>
    unfold splitWithin at h ⊢
    by_cases he : e.cost ≤ budget
    · simp only [if_pos he] at h ⊢
      have := ih h
      simp only [List.cons_append, costOf_cons]
      omega
    · simp only [if_neg he, List.cons.injEq] at h ⊢
      obtain ⟨rfl, -⟩ := h
      simp only [List.nil_append, costOf_cons, costOf_nil]
      omega

variable [DecidableEq κ]

/-- An empty list with the given ceiling. -/
def empty (maxCost : Nat) : Recency κ ν := { maxCost }

/-- The sum of the costs of the entries. -/
def cost (c : Recency κ ν) : Nat := costOf c.entries

/-- The number of entries. -/
def size (c : Recency κ ν) : Nat := c.entries.length

/-- The keys, from the most to the least recently used. -/
def keys (c : Recency κ ν) : List κ := c.entries.map (·.key)

/-- The entry of a key. -/
def find? (c : Recency κ ν) (k : κ) : Option (Entry κ ν) := c.entries.find? (·.key = k)

/-- Whether a key is present. -/
def contains (c : Recency κ ν) (k : κ) : Bool := (c.find? k).isSome

/-- The value of a key, leaving the order alone. -/
def peek? (c : Recency κ ν) (k : κ) : Option ν := (c.find? k).map (·.value)

/-- The list without the entry of `k`. -/
def erase (c : Recency κ ν) (k : κ) : Recency κ ν :=
  { c with entries := c.entries.filter (·.key ≠ k) }

/-- The value of a key after applying `f` to it; the key becomes the most recently used. -/
def modify? (c : Recency κ ν) (k : κ) (f : ν → ν) : Option ν × Recency κ ν :=
  match c.find? k with
  | none => (none, c)
  | some e => (some (f e.value), { c with entries := { e with value := f e.value } :: (c.erase k).entries })

/-- The value of a key; the key becomes the most recently used. -/
def get? (c : Recency κ ν) (k : κ) : Option ν × Recency κ ν := c.modify? k id

/-- Removes a key, returning its value. -/
def remove? (c : Recency κ ν) (k : κ) : Option ν × Recency κ ν := (c.peek? k, c.erase k)

/-- Removes the least recently used entry. -/
def popLru? (c : Recency κ ν) : Option (κ × ν) × Recency κ ν :=
  match c.entries.getLast? with
  | none => (none, c)
  | some e => (some (e.key, e.value), { c with entries := c.entries.dropLast })

/-- Evicts from the least recent end until the entries cost at most `budget`; the evicted
pairs come in the order they leave. -/
def shed (c : Recency κ ν) (budget : Nat) : List (κ × ν) × Recency κ ν :=
  let r := splitWithin budget c.entries
  (r.2.reverse.map fun e => (e.key, e.value), { c with entries := r.1 })

/-- Inserts `v` under `k` at cost `w`. The room check adds the cost to what the other entries
cost, and that sum is a word: past `2^64` it is an overflow. -/
def insert (c : Recency κ ν) (k : κ) (v : ν) (w : Nat) : Except Overflow (Admit κ ν × Recency κ ν) :=
  if c.maxCost < w then .ok (.rejected v, c)
  else
    let rest := c.erase k
    match checkedAdd rest.cost w with
    | .error o => .error o
    | .ok _ =>
      let r := rest.shed (c.maxCost - w)
      .ok (.evicted r.1, { r.2 with entries := ⟨k, v, w⟩ :: r.2.entries })

/-- Removes every entry whose key satisfies `p`, returning how many went. -/
def removeWhere (c : Recency κ ν) (p : κ → Bool) : Nat × Recency κ ν :=
  ((c.entries.filter (p ·.key)).length, { c with entries := c.entries.filter (!p ·.key) })

/-- A new ceiling, evicting least recently used entries that no longer fit. -/
def setMaxCost (c : Recency κ ν) (m : Nat) : List (κ × ν) × Recency κ ν :=
  { c with maxCost := m }.shed m

/-- The list without entries. -/
def clear (c : Recency κ ν) : Recency κ ν := { c with entries := [] }

/-! ### A key's entry -/

/-- A key present once is found where it stands. -/
theorem find?_of_split {pes pos : List (Entry κ ν)} {e : Entry κ ν} {maxCost : Nat}
    (hpre : e.key ∉ pes.map (·.key)) :
    ({ maxCost, entries := pes ++ e :: pos } : Recency κ ν).find? e.key = some e := by
  simp only [find?, List.find?_append, List.find?_cons, decide_true]
  rw [List.find?_eq_none.2 (fun x hx => by simpa using fun h => hpre (List.mem_map.2 ⟨x, hx, h⟩))]
  rfl

/-- Erasing a key present once takes out its entry and nothing else. -/
theorem erase_of_split {pes pos : List (Entry κ ν)} {e : Entry κ ν} {maxCost : Nat}
    (hpre : e.key ∉ pes.map (·.key)) (hpos : e.key ∉ pos.map (·.key)) :
    ({ maxCost, entries := pes ++ e :: pos } : Recency κ ν).erase e.key =
      { maxCost, entries := pes ++ pos } := by
  have hkeep : ∀ l : List (Entry κ ν), e.key ∉ l.map (·.key) → l.filter (·.key ≠ e.key) = l :=
    fun l hl => List.filter_eq_self.2 fun x hx => by
      simpa using fun h => hl (List.mem_map.2 ⟨x, hx, h⟩)
  unfold erase
  dsimp only
  rw [List.filter_append, List.filter_cons_of_neg (by simp), hkeep pes hpre, hkeep pos hpos]

theorem find?_of_not_mem {c : Recency κ ν} {k : κ} (h : k ∉ c.keys) : c.find? k = none :=
  List.find?_eq_none.2 fun x hx => by simpa using fun hk => h (List.mem_map.2 ⟨x, hx, hk⟩)

theorem erase_of_not_mem {c : Recency κ ν} {k : κ} (h : k ∉ c.keys) : c.erase k = c := by
  unfold erase
  rw [List.filter_eq_self.2 fun x hx => by simpa using fun hk => h (List.mem_map.2 ⟨x, hx, hk⟩)]

/-! ### Each operation on a list cut at a key -/

section Split

variable {pes pos : List (Entry κ ν)} {e : Entry κ ν} {maxCost : Nat}

theorem peek?_of_split (hpre : e.key ∉ pes.map (·.key)) :
    ({ maxCost, entries := pes ++ e :: pos } : Recency κ ν).peek? e.key = some e.value := by
  simp [peek?, find?_of_split hpre]

theorem modify?_of_split (hpre : e.key ∉ pes.map (·.key)) (hpos : e.key ∉ pos.map (·.key))
    (f : ν → ν) :
    ({ maxCost, entries := pes ++ e :: pos } : Recency κ ν).modify? e.key f =
      (some (f e.value), { maxCost, entries := { e with value := f e.value } :: (pes ++ pos) }) := by
  unfold modify?
  rw [find?_of_split hpre, erase_of_split hpre hpos]

theorem remove?_of_split (hpre : e.key ∉ pes.map (·.key)) (hpos : e.key ∉ pos.map (·.key)) :
    ({ maxCost, entries := pes ++ e :: pos } : Recency κ ν).remove? e.key =
      (some e.value, { maxCost, entries := pes ++ pos }) := by
  unfold remove?
  rw [peek?_of_split hpre, erase_of_split hpre hpos]

end Split

section Absent

variable {c : Recency κ ν} {k : κ}

theorem peek?_of_not_mem (h : k ∉ c.keys) : c.peek? k = none := by
  simp [peek?, find?_of_not_mem h]

theorem modify?_of_not_mem (h : k ∉ c.keys) (f : ν → ν) : c.modify? k f = (none, c) := by
  unfold modify?
  rw [find?_of_not_mem h]

theorem remove?_of_not_mem (h : k ∉ c.keys) : c.remove? k = (none, c) := by
  unfold remove?
  rw [peek?_of_not_mem h, erase_of_not_mem h]

end Absent

theorem contains_iff {c : Recency κ ν} {k : κ} : c.contains k = true ↔ k ∈ c.keys := by
  simp [contains, find?, keys]

theorem not_mem_keys_erase (c : Recency κ ν) (k : κ) : k ∉ (c.erase k).keys := by
  simp [erase, keys]

/-- Once its old entry is dropped and the list shed, a key is nowhere in the list. -/
theorem not_mem_keys_shed_erase (c : Recency κ ν) (k : κ) (budget : Nat) :
    k ∉ ((c.erase k).shed budget).2.keys := fun hk =>
  not_mem_keys_erase c k (((splitWithin_fst_sublist _ _).map (·.key)).subset hk)

omit [DecidableEq κ] in
theorem popLru?_last {es : List (Entry κ ν)} {e : Entry κ ν} {maxCost : Nat} :
    ({ maxCost, entries := es ++ [e] } : Recency κ ν).popLru? =
      (some (e.key, e.value), { maxCost, entries := es }) := by
  simp [popLru?]

/-- **Removing keys one by one** keeps the entries whose key is not among them. -/
theorem foldl_remove? (ks : List κ) (c : Recency κ ν) :
    ks.foldl (fun c k => (c.remove? k).2) c = { c with entries := c.entries.filter (·.key ∉ ks) } := by
  induction ks generalizing c with
  | nil => rw [List.foldl_nil, List.filter_eq_self.2 fun _ _ => by simp]
  | cons k ks ih =>
    rw [List.foldl_cons, ih]
    simp only [remove?, erase, List.filter_filter, List.mem_cons, not_or]
    congr 2
    funext x
    simp [Bool.and_comm]

end Recency
end Cache
end Thumbnailer
