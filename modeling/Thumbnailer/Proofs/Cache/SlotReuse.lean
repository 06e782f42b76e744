import Thumbnailer.Proofs.Cache.RunningCost

/-!
# The slot arena of a cost-bounded map does not leak

A `CostLru` keeps its entries in the slots of an arena. In a well-formed arena every slot either
holds an entry of the recency list or is on the free list, never both, so the arena is exactly as
long as the map and the free list together (`Slots.length_slots`): no slot is lost.

Only one step lengthens the arena: a new entry written when no slot is free, and then it leaves no
slot free (`pushNew_arena`). An insert first drops the key's old entry and evicts, which only free
slots, and then writes (`insert_arena`); every other request frees slots, relinks them or empties
the arena, and never lengthens it (`serve_arena`). So after each request the arena either kept
its length or has no free slot and is exactly as long as the map. Along a run from a new map this
gives a point, since the last clear, at which the map held as many entries as the arena now has
slots (`arena_within_peak_size`).
-/

namespace Thumbnailer
namespace Cache

open Recency (Entry)

variable {κ ν : Type}

namespace MapOps

/-- A run that ends with one more request went through the others first. -/
theorem run_append_singleton {σ : Type} {o : MapOps κ ν σ} {s s' : σ}
    {qs : List (Request κ ν)} {q : Request κ ν} {as' : List (Answer κ ν)}
    (h : o.run s (qs ++ [q]) = .ok (as', s')) :
    ∃ as t a, o.run s qs = .ok (as, t) ∧ o.serve t q = .ok (a, s') := by
  induction qs generalizing s as' with
  | nil =>
    rcases hs : o.serve s q with e | ⟨a, t⟩
    · simp [run, hs] at h
    · simp only [List.nil_append, run, hs, Except.ok.injEq, Prod.mk.injEq] at h
      exact ⟨[], s, a, rfl, h.2 ▸ hs⟩
  | cons q₀ qs ih =>
    rw [List.cons_append] at h
    rcases hs : o.serve s q₀ with e | ⟨a₀, s₁⟩
    · simp [run, hs] at h
    · rcases hr : o.run s₁ (qs ++ [q]) with e | ⟨as₁, s₂⟩
      · simp [run, hs, hr] at h
      · simp only [run, hs, hr, Except.ok.injEq, Prod.mk.injEq] at h
        obtain ⟨rfl, rfl⟩ := h
        obtain ⟨as, t, a, h₁, h₂⟩ := ih hr
        exact ⟨a₀ :: as, t, a, by simp [run, hs, h₁], h₂⟩

end MapOps

namespace CostLru

/-- **Every slot of a well-formed arena holds an entry of the list or is free**, so the arena is
as long as the list and the free list together. -/
theorem Slots.length_slots {c : CostLru κ ν} {es : List (Entry κ ν)} {ix : List Nat}
    (h : Slots c es ix) : c.slots.length = es.length + c.free.length := by
  have hnd : (ix ++ c.free).Nodup := by
    refine List.nodup_append.2 ⟨h.nodup, h.free_nodup, fun a ha b hb hab => ?_⟩
    subst hab
    have hlive := (h.mem_live a).1 ha
    rw [(h.mem_free a).1 hb] at hlive
    cases hlive
  have hperm : (List.range c.slots.length).Perm (ix ++ c.free) := by
    refine (List.perm_ext_iff_of_nodup List.nodup_range hnd).2 fun i => ?_
    rw [List.mem_range, List.mem_append, h.mem_live, h.mem_free, ← length_occupancy]
    constructor
    · intro hi
      rw [List.getElem?_eq_getElem hi]
      cases c.occupancy[i] <;> simp
    · rintro (hi | hi) <;> exact (List.getElem?_eq_some_iff.1 hi).1
  rw [← List.length_range (n := c.slots.length), hperm.length_eq, List.length_append, h.length_eq]

/-! ### Which steps can lengthen the arena -/

theorem length_slots_unlink (c : CostLru κ ν) (i : Nat) :
    (c.unlink i).slots.length = c.slots.length := by
  rw [← length_occupancy, ← length_occupancy, (unlink_rest c i).2.2.2.2]

theorem length_slots_pushFront (c : CostLru κ ν) (i : Nat) :
    (c.pushFront i).slots.length = c.slots.length := by
  rw [← length_occupancy, ← length_occupancy, (pushFront_rest c i).2.2.2.2]

theorem length_slots_updateNode (c : CostLru κ ν) (i : Nat) (f : Node κ ν → Node κ ν) :
    (c.updateNode i f).slots.length = c.slots.length := by
  rw [← length_occupancy, ← length_occupancy, occupancy_updateNode]

/-- Freeing a slot empties it and keeps the arena's length. -/
theorem length_slots_takeSlot (c : CostLru κ ν) (i : Nat) :
    (c.takeSlot i).2.slots.length = c.slots.length := by
  unfold takeSlot
  dsimp only
  split
  · exact length_slots_unlink c i
  · rw [List.length_set, length_slots_unlink]

variable [DecidableEq κ]

/-- Popping the least recent entry frees its slot. -/
theorem length_slots_popLru? (c : CostLru κ ν) : c.popLru?.2.slots.length = c.slots.length := by
  unfold popLru?
  split
  · rfl
  · rename_i i _
    have h := length_slots_takeSlot c i
    split
    · rename_i c' hc
      rw [hc] at h
      exact h
    · rename_i c' hc
      rw [hc] at h
      exact h

/-- The eviction loop only frees slots. -/
theorem length_slots_evict (c : CostLru κ ν) (budget : Nat) :
    (c.evict budget).2.slots.length = c.slots.length := by
  fun_induction c.evict budget with
  | case1 c _ e c' hpop _ r ih =>
    have h := length_slots_popLru? c
    rw [hpop] at h
    exact ih.trans h
  | case2 c _ c' hpop =>
    have h := length_slots_popLru? c
    rw [hpop] at h
    exact h
  | case3 => rfl

/-- Removing a key frees its slot. -/
theorem length_slots_remove? (c : CostLru κ ν) (k : κ) :
    (c.remove? k).2.slots.length = c.slots.length := by
  unfold remove?
  split
  · rfl
  · exact length_slots_takeSlot _ _

/-- Reading a key relinks its slot. -/
theorem length_slots_modify? (c : CostLru κ ν) (k : κ) (f : ν → ν) :
    (c.modify? k f).2.slots.length = c.slots.length := by
  unfold modify?
  split
  · rfl
  · dsimp only
    rw [length_slots_updateNode, length_slots_pushFront, length_slots_unlink]

/-- Removing the keys a predicate picks frees their slots. -/
theorem length_slots_removeWhere (c : CostLru κ ν) (p : κ → Bool) :
    (c.removeWhere p).2.slots.length = c.slots.length := by
  unfold removeWhere
  dsimp only
  exact List.foldlRecOn (motive := fun d : CostLru κ ν => d.slots.length = c.slots.length) _ _ rfl
    fun d hd k _ => (length_slots_remove? d k).trans hd

/-- A new entry takes the most recently freed slot, and lengthens the arena only when no slot is
free, leaving none free. -/
theorem pushNew_arena (c : CostLru κ ν) (k : κ) (v : ν) (w : Nat) :
    (c.pushNew k v w).free = [] ∨ (c.pushNew k v w).slots.length = c.slots.length := by
  unfold pushNew
  dsimp only
  split
  · rename_i i rest hf
    refine .inr ?_
    show (CostLru.pushFront _ i).slots.length = _
    rw [length_slots_pushFront, List.length_set]
  · rename_i hf
    exact .inl ((pushFront_rest _ _).2.1.trans hf)

/-- An insert lengthens the arena only when it leaves no slot free: dropping the key's old
entry and evicting free slots before the new entry takes one. -/
theorem insert_arena {c c' : CostLru κ ν} {k : κ} {v : ν} {w : Nat} {a : Admit κ ν}
    (h : c.insert k v w = .ok (a, c')) : c'.free = [] ∨ c'.slots.length = c.slots.length := by
  unfold insert at h
  split at h
  · cases h
    exact .inr rfl
  · dsimp only at h
    split at h
    · cases h
    · cases h
      rcases pushNew_arena ((c.remove? k).2.evict ((c.remove? k).2.maxCost - w)).2 k v w with
        hf | hl
      · exact .inl hf
      · exact .inr (by rw [hl, length_slots_evict, length_slots_remove?])

/-- **A request lengthens the arena only when it leaves no slot free.** -/
theorem serve_arena {c c' : CostLru κ ν} {q : Request κ ν} {a : Answer κ ν}
    (h : CostLru.ops.serve c q = .ok (a, c')) :
    c'.free = [] ∨ c'.slots.length = c.slots.length := by
  cases q with
  | insert k v w =>
    simp only [MapOps.serve, CostLru.ops] at h
    split at h
    · cases h
    · rename_i a' c'' hi
      cases h
      exact insert_arena hi
  | get k => cases h; exact .inr (length_slots_modify? c k id)
  | modify k f => cases h; exact .inr (length_slots_modify? c k f)
  | peek k => cases h; exact .inr rfl
  | contains k => cases h; exact .inr rfl
  | remove k => cases h; exact .inr (length_slots_remove? c k)
  | popLru => cases h; exact .inr (length_slots_popLru? c)
  | removeWhere p => cases h; exact .inr (length_slots_removeWhere c p)
  | setMaxCost m => cases h; exact .inr (length_slots_evict _ m)
  | clear => cases h; exact .inl rfl

/-- A well-formed arena is as long as its map and its free list together. -/
theorem Refines.length_slots {c : CostLru κ ν} {r : Recency κ ν} (h : Refines c r) :
    c.slots.length = c.size + c.free.length := by
  obtain ⟨ix, hl⟩ := h.layout
  rw [hl.toSlots.length_slots, hl.size_eq]

/-- Every arena reached from an empty one lays out a recency list. -/
theorem reach_refines_list {m : Nat} {qs : List (Request κ ν)} {as : List (Answer κ ν)}
    {c : CostLru κ ν}
    (hrun : CostLru.ops.run (empty m) qs = .ok (as, c)) : ∃ r, Refines c r :=
  MapOps.run_keeps (I := fun c : CostLru κ ν => ∃ r, Refines c r) (Q := fun _ => True)
    (fun _ q _ _ ⟨_, h⟩ _ hs => (Agree.exists_of_ok (hs ▸ h.serve q)).imp fun _ h' => h'.2) qs
    ⟨_, refines_empty m⟩ (fun _ _ => trivial) hrun

/-- **The slot arena does not leak.** In every arena a run of requests reaches from an empty map,
each slot holds an entry or is free, so the arena is as long as the map and the free list
together; and there is a point of the run, since its last clear, at which the map held at least as
many entries as the arena has slots. -/
theorem arena_within_peak_size (m : Nat) (qs : List (Request κ ν)) {as : List (Answer κ ν)}
    {c : CostLru κ ν} (hrun : CostLru.ops.run (empty m) qs = .ok (as, c)) :
    c.slots.length = c.size + c.free.length ∧
    ∃ n ≤ qs.length, (∀ q ∈ qs.drop n, q ≠ .clear) ∧
      ∃ as' c', CostLru.ops.run (empty m) (qs.take n) = .ok (as', c') ∧
        c.slots.length ≤ c'.size := by
  refine ⟨(reach_refines_list hrun).elim fun _ h => h.length_slots, ?_⟩
  induction qs using List.reverseRecOn generalizing as c with
  | nil =>
    simp only [MapOps.run, Except.ok.injEq, Prod.mk.injEq] at hrun
    obtain ⟨rfl, rfl⟩ := hrun
    exact ⟨0, le_rfl, by simp, [], empty m, rfl, by simp [empty]⟩
  | append_singleton qs q ih =>
    obtain ⟨as₀, c₀, a, h₀, hq⟩ := MapOps.run_append_singleton hrun
    by_cases hfree : c.free = []
    · -- no slot is left free, so the arena is as long as the map is now
      obtain ⟨r, hr⟩ := reach_refines_list hrun
      refine ⟨qs.length + 1, by simp, by simp, as, c,
        by rw [List.take_of_length_le (by simp)]; exact hrun, ?_⟩
      rw [hr.length_slots, hfree, List.length_nil, Nat.add_zero]
    · -- the arena kept its length, and the request was no clear, which leaves no slot free
      have hlen := (serve_arena hq).resolve_left hfree
      have hq' : q ≠ .clear := by
        rintro rfl
        cases hq
        exact hfree rfl
      obtain ⟨n, hn, hclear, as', c', h', hle⟩ := ih h₀
      refine ⟨n, by simp; omega, fun q₁ h₁ => ?_, as', c', ?_, hlen ▸ hle⟩
      · rw [List.drop_append_of_le_length hn, List.mem_append, List.mem_singleton] at h₁
        rcases h₁ with h₁ | rfl
        · exact hclear q₁ h₁
        · exact hq'
      · rwa [List.take_append_of_le_length hn]

/-- A key stored, removed and another stored: the second entry takes the freed slot, so the arena
keeps one slot. -/
theorem arena_within_peak_size_of_reuse :
    let qs : List (Request Nat Unit) := [.insert 0 () 5, .remove 0, .insert 1 () 5]
    ∃ as c, CostLru.ops.run (empty 10) qs = .ok (as, c) ∧ c.slots.length = 1 ∧
      c.slots.length = c.size + c.free.length ∧
      ∃ n ≤ qs.length, (∀ q ∈ qs.drop n, q ≠ .clear) ∧
        ∃ as' c', CostLru.ops.run (empty 10) (qs.take n) = .ok (as', c') ∧
          c.slots.length ≤ c'.size := by
  intro qs
  obtain ⟨as, c, hrun, hlen⟩ :
      ∃ as c, CostLru.ops.run (empty 10) qs = .ok (as, c) ∧ c.slots.length = 1 := by
    simp [qs, MapOps.run, MapOps.serve, CostLru.ops, CostLru.insert, CostLru.remove?, CostLru.evict,
      checkedAdd, wordSize, CostLru.empty, CostLru.pushNew, CostLru.pushFront, CostLru.updateNode,
      CostLru.takeSlot, CostLru.unlink, CostLru.node?]
  exact ⟨as, c, hrun, hlen, arena_within_peak_size 10 qs hrun⟩

end CostLru
end Cache
end Thumbnailer
