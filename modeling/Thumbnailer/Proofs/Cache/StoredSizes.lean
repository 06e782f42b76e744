import Thumbnailer.Proofs.Cache.RunningCost
import Thumbnailer.Proofs.Cache.PoolAcquire

/-!
# What the compressed cache holds

A property `P` of an entry's key and stored size holds of the whole cache (`Holds P`) when the
entries stand for a recency list whose entries all satisfy it. Every request keeps it, provided
a lookup's hit (which only counts an access) keeps `P` and an insert stores only what satisfies
it: a lookup rewrites one entry, an insert puts one entry in front of a part of the others, and
the other requests keep a part of the entries. A lookup that hits decodes a bitmap of the size
stored under its key, so it answers with a size `P` allows.

The staging buffers a cache borrows from its pool keep the pool within the largest budget
(`PoolWithin`), so a lookup never stops on an overflow while the sizes stored are ones the codec
accepts (`lookup_isOk`).

Main statements: `Holds.lookup_hit`, `lookup_isOk`.
-/

namespace Thumbnailer
namespace Cache

variable {now : Instant}

/-! ### The recency list -/

namespace Recency

variable {κ ν : Type} [DecidableEq κ]

/-- A key found stands for one of the entries. -/
theorem mem_of_peek? {r : Recency κ ν} {k : κ} {v : ν} (h : r.peek? k = some v) :
    ∃ e ∈ r.entries, e.key = k ∧ e.value = v := by
  obtain ⟨e, hf, rfl⟩ := Option.map_eq_some_iff.1 h
  exact ⟨e, List.mem_of_find?_eq_some hf, by simpa using List.find?_some hf, rfl⟩

/-- After rewriting a key's value, each entry was there, or is an entry there rewritten. -/
theorem mem_modify? {r : Recency κ ν} {k : κ} {f : ν → ν} {e' : Entry κ ν}
    (he' : e' ∈ (r.modify? k f).2.entries) :
    e' ∈ r.entries ∨ ∃ e ∈ r.entries, e' = { e with value := f e.value } := by
  unfold modify? at he'
  split at he'
  · exact .inl he'
  · rename_i e hf
    rcases List.mem_cons.1 he' with rfl | he'
    · exact .inr ⟨e, List.mem_of_find?_eq_some hf, rfl⟩
    · exact .inl (List.mem_of_mem_filter he')

end Recency

/-- Borrowing a staging buffer keeps a pool within the largest budget. -/
theorem Pool.WithinCeiling.borrow {p p' : Pool} {w h : Nat} (hp : Pool.WithinCeiling p)
    (hb : p.borrow w h now = .ok p') : Pool.WithinCeiling p' := by
  unfold Pool.borrow at hb
  rcases hacq : p.acquire w h now with _ | ⟨r, q⟩
  · simp [hacq, bind, Except.bind] at hb
  · have hq := hp.acquired (Pool.acquired_of_acquire_eq_ok hacq)
    cases r <;> simp only [hacq, bind, Except.bind, pure, Except.pure, Except.ok.injEq] at hb <;> subst hb
    · exact hq
    · exact hq.release _ _

namespace Compressed

/-! ### A property of every entry -/

/-- Every entry satisfies `P` for its key. -/
def Holds (P : Key → Stored → Prop) (c : Compressed) : Prop :=
  ∃ rl, CostLru.Refines c.entries rl ∧ ∀ e ∈ rl.entries, P e.key e.value

section Holds

variable {P : Key → Stored → Prop}

theorem holds_create (capacity quality : Nat) (pool : Option Pool) : Holds P (create capacity quality pool) :=
  ⟨_, CostLru.refines_empty capacity, fun _ he => absurd he List.not_mem_nil⟩

theorem Holds.of_entries {c c' : Compressed} (hc : Holds P c) (he : c'.entries = c.entries) : Holds P c' := by
  rw [Holds, he]
  exact hc

/-- Keeping a part of a recency list keeps `P`. -/
theorem Holds.of_subset {c' : Compressed} {rl rl' : Recency Key Stored} (hall : ∀ e ∈ rl.entries, P e.key e.value)
    (hr : CostLru.Refines c'.entries rl') (hsub : ∀ e ∈ rl'.entries, e ∈ rl.entries) : Holds P c' :=
  ⟨rl', hr, fun e he => hall e (hsub e he)⟩

theorem Holds.invalidatePage {c : Compressed} (hc : Holds P c) (page : Nat) : Holds P (c.invalidatePage page).2 := by
  obtain ⟨rl, hr, hall⟩ := hc
  exact Holds.of_subset hall (hr.removeWhere _).2 fun e he => List.mem_of_mem_filter he

theorem Holds.clear {c : Compressed} (hc : Holds P c) : Holds P c.clear := by
  obtain ⟨rl, hr, -⟩ := hc
  exact ⟨_, hr.clear, fun _ he => absurd he List.not_mem_nil⟩

theorem Holds.setCapacity {c : Compressed} (hc : Holds P c) (capacity : Nat) : Holds P (c.setCapacity capacity) := by
  obtain ⟨rl, hr, hall⟩ := hc
  exact Holds.of_subset hall (hr.setMaxCost capacity).2 fun e he =>
    (Recency.splitWithin_fst_sublist capacity rl.entries).subset he

theorem Holds.setQuality {c : Compressed} (hc : Holds P c) (quality : Nat) : Holds P (c.setQuality quality) :=
  hc

/-- A lookup keeps `P` when a hit keeps it. -/
theorem Holds.lookup {c c' : Compressed} {k : Key} {o : Option Raster.Bitmap} (hP : ∀ k st, P k st → P k st.hit)
    (hc : Holds P c) (h : c.lookup k now = .ok (o, c')) : Holds P c' := by
  obtain ⟨rl, hr, hall⟩ := hc
  rcases lookup_eq_ok h with ⟨-, -, rfl⟩ | ⟨-, -, hentries, -⟩
  · exact ⟨rl, hr, hall⟩
  · rw [Holds, hentries]
    refine ⟨_, (hr.modify? k Stored.hit).2, fun e' he' => ?_⟩
    -- the entry found is rewritten by a hit; the others stay
    rcases Recency.mem_modify? he' with he' | ⟨e, he, rfl⟩
    · exact hall e' he'
    · exact hP _ _ (hall e he)

/-- A hit decodes a bitmap of the size stored under the key. -/
theorem lookup_eq_ok_some {c c' : Compressed} {k : Key} {bm : Raster.Bitmap}
    (h : c.lookup k now = .ok (some bm, c')) :
    ∃ st, (c.entries.modify? k Stored.hit).1 = some st ∧ bm = Raster.Bitmap.decodedOf st.width st.height := by
  unfold lookup at h
  split at h
  · simp [pure, Except.pure] at h
  · rename_i st es hm
    simp only [bind, Except.bind] at h
    split at h
    · cases h
    · simp only [pure, Except.pure, Except.ok.injEq, Prod.mk.injEq, Option.some.injEq] at h
      exact ⟨st, by rw [hm], h.1.symm⟩

/-- **A hit answers with a size `P` allows for the key.** A hit rewrites only the access count,
so the size decoded is the one stored. -/
theorem Holds.lookup_hit {c c' : Compressed} {k : Key} {bm : Raster.Bitmap}
    (hc : Holds P c) (h : c.lookup k now = .ok (some bm, c')) :
    ∃ st, P k st ∧ bm.width = st.width ∧ bm.height = st.height := by
  obtain ⟨rl, hr, hall⟩ := hc
  obtain ⟨st, hst, rfl⟩ := lookup_eq_ok_some h
  rw [(hr.modify? k Stored.hit).1, Recency.modify?_fst] at hst
  obtain ⟨v, hv, rfl⟩ := Option.map_eq_some_iff.1 hst
  obtain ⟨e, he, rfl, rfl⟩ := Recency.mem_of_peek? hv
  exact ⟨e.value, hall e he, rfl, rfl⟩

/-- An insert keeps `P` when what it would store satisfies it. -/
theorem Holds.insertWith {encode : Raster.Bitmap → Nat → Option Nat} {c c' : Compressed} {k : Key}
    {b : Raster.Bitmap} {res : Except InsertError Bool} (hc : Holds P c)
    (hnew : ∀ cost, encode b c.quality = some cost → P k ⟨b.width, b.height, 0⟩)
    (h : insertWith encode c k b now = .ok (res, c')) : Holds P c' := by
  obtain ⟨rl, hr, hall⟩ := hc
  obtain ⟨d, hde, -, hcases⟩ := insertWith_eq_ok h
  rcases hcases with ⟨-, -, rfl⟩ | ⟨-, -, -, -, rfl⟩ | ⟨cost, ev, es, henc, -, hins, -, rfl⟩
  · exact ⟨rl, hde ▸ hr, hall⟩
  · exact ⟨rl, hde ▸ hr, hall⟩
  · -- the new entry goes in front of a part of the rest
    have hagree := hr.insert k ⟨b.width, b.height, 0⟩ cost
    rw [hins] at hagree
    obtain ⟨rl₂, hrl₂, hr₂⟩ := Agree.exists_of_ok hagree
    obtain ⟨-, hentries, -⟩ := Recency.insert_eq_evicted hrl₂
    refine ⟨rl₂, hr₂, fun e he => ?_⟩
    rw [hentries] at he
    rcases List.mem_cons.1 he with rfl | he
    · exact hnew cost henc
    · exact hall e (List.mem_of_mem_filter ((Recency.splitWithin_fst_sublist _ _).subset he))

end Holds

/-! ### The pool the staging buffers come from -/

/-- The attached pool, if any, is within the largest budget. -/
def PoolWithin (c : Compressed) : Prop := ∀ p, c.pool = some p → Pool.WithinCeiling p

theorem PoolWithin.stage {c c' : Compressed} {w h : Nat} (hc : PoolWithin c) (hs : c.stage w h now = .ok c') :
    PoolWithin c' := by
  unfold Compressed.stage at hs
  split at hs
  · cases hs
    exact hc
  · rename_i p hpool
    rcases hb : p.borrow w h now with _ | p'
    · simp [hb, bind, Except.bind] at hs
    · simp only [hb, bind, Except.bind, pure, Except.pure, Except.ok.injEq] at hs
      subst hs
      intro q hq
      cases hq
      exact (hc p hpool).borrow hb

theorem PoolWithin.lookup {c c' : Compressed} {k : Key} {o : Option Raster.Bitmap} (hc : PoolWithin c)
    (h : c.lookup k now = .ok (o, c')) : PoolWithin c' := by
  unfold Compressed.lookup at h
  split at h
  · simp only [pure, Except.pure, Except.ok.injEq, Prod.mk.injEq] at h
    rw [← h.2]
    exact hc
  · simp only [bind, Except.bind] at h
    split at h
    · cases h
    · rename_i d hs
      simp only [pure, Except.pure, Except.ok.injEq, Prod.mk.injEq] at h
      rw [← h.2]
      refine PoolWithin.stage ?_ hs
      -- the hit changed the entries and the statistics only
      exact fun p hp => hc p hp

theorem PoolWithin.insertWith {encode : Raster.Bitmap → Nat → Option Nat} {c c' : Compressed} {k : Key}
    {b : Raster.Bitmap} {res : Except InsertError Bool} (hc : PoolWithin c)
    (h : insertWith encode c k b now = .ok (res, c')) : PoolWithin c' := by
  unfold Compressed.insertWith at h
  simp only [bind, Except.bind] at h
  split at h
  · cases h
  · rename_i d hs
    have hd := hc.stage hs
    -- after staging only the entries and the statistics change
    split at h
    · simp only [pure, Except.pure, Except.ok.injEq, Prod.mk.injEq] at h
      rw [← h.2]
      exact hd
    · split at h
      · cases h
      · split at h <;> simp only [pure, Except.pure, Except.ok.injEq, Prod.mk.injEq] at h <;> rw [← h.2] <;>
          exact hd

/-- **A staging buffer of at most 65535 × 65535 pixels is always granted** by a pool within the
largest budget: its bytes and what the pool reserves stay within the word. -/
theorem PoolWithin.stage_isOk {c : Compressed} (hpool : PoolWithin c) (now : Instant) {w h : Nat}
    (hw : w ≤ 65535) (hh : h ≤ 65535) : ∃ d, c.stage w h now = .ok d := by
  unfold Compressed.stage
  split
  · exact ⟨_, rfl⟩
  · rename_i p hp
    obtain ⟨-, hreserved⟩ := hpool p hp
    have hbytes : w * h * 4 ≤ 65535 * 65535 * 4 := Nat.mul_le_mul_right 4 (Nat.mul_le_mul hw hh)
    have hfit : p.reserved + w * h * 4 < wordSize := by
      simp only [mebibyte] at hreserved
      have : wordSize = 2 ^ 64 := rfl
      omega
    obtain ⟨out, hacq, -⟩ := Pool.acquire_spec p _ _ _ hfit
    unfold Pool.borrow
    rw [hacq]
    obtain ⟨r, q⟩ := out
    cases r <;> exact ⟨_, rfl⟩

/-- **A lookup never stops on an overflow** while the sizes stored are ones the codec accepts and
the pool is within the largest budget: the staging buffer of a hit is at most
`65535 · 65535 · 4` bytes. -/
theorem lookup_isOk {P : Key → Stored → Prop} (hsmall : ∀ k st, P k st → st.width ≤ 65535 ∧ st.height ≤ 65535)
    {c : Compressed} (hc : Holds P c) (hpool : PoolWithin c) (k : Key) (now : Instant) :
    ∃ o c', c.lookup k now = .ok (o, c') := by
  obtain ⟨rl, hr, hall⟩ := hc
  unfold lookup
  split
  · exact ⟨_, _, rfl⟩
  · rename_i st es hm
    -- the size found is one stored
    have hst : (c.entries.modify? k Stored.hit).1 = some st := by rw [hm]
    rw [(hr.modify? k Stored.hit).1, Recency.modify?_fst] at hst
    obtain ⟨v, hv, rfl⟩ := Option.map_eq_some_iff.1 hst
    obtain ⟨e, he, -, rfl⟩ := Recency.mem_of_peek? hv
    obtain ⟨hw, hh⟩ := hsmall _ _ (hall e he)
    -- a hit changes the entries and the statistics, not the pool
    have hpool' : PoolWithin ({ c with entries := es, stats := { c.stats with hits := c.stats.hits + 1 } } :
        Compressed) := fun p hp => hpool p hp
    obtain ⟨d, hd⟩ := hpool'.stage_isOk now (show (Stored.hit e.value).width ≤ 65535 from hw)
      (show (Stored.hit e.value).height ≤ 65535 from hh)
    simp only [bind, Except.bind]
    rw [hd]
    exact ⟨_, _, rfl⟩

/-- **An insert with room stores its entry**: when its staging buffer is granted, the codec takes
the bitmap, and the compressed size fits under the ceiling and, with what is cached, in the word,
the bitmap's size is stored under the key with no access yet. -/
theorem Synced.insertWith_stores {encode : Raster.Bitmap → Nat → Option Nat} {c : Compressed} {k : Key}
    {b : Raster.Bitmap} {cost : Nat} (hs : Synced c) (hstage : ∃ d, c.stage b.width b.height now = .ok d)
    (henc : encode b c.quality = some cost) (hcap : cost ≤ c.entries.maxCost)
    (hroom : c.entries.currentCost + cost < wordSize) :
    ∃ c', insertWith encode c k b now = .ok (.ok true, c') ∧ c'.entries.peek? k = some ⟨b.width, b.height, 0⟩ := by
  obtain ⟨r, hr⟩ := hs.refines
  obtain ⟨d, hd⟩ := hstage
  obtain ⟨he, -, hq⟩ := stage_eq_ok hd
  -- what the other entries cost is at most what all of them cost, so the sum stays in the word
  have hno : ¬ (cost ≤ c.entries.maxCost ∧ wordSize ≤ c.entries.currentCost - c.entries.keyCost k + cost) :=
    fun h => by omega
  obtain ⟨a, es, hins, -, -⟩ := hr.insert_completes k ⟨b.width, b.height, 0⟩ cost hno
  cases a with
  | rejected v => exact absurd (CostLru.lt_of_insert_eq_rejected hins) (Nat.not_lt.2 hcap)
  | evicted ev =>
    obtain ⟨r', hlist, hr'⟩ := Agree.exists_of_ok (hins ▸ hr.insert k ⟨b.width, b.height, 0⟩ cost)
    refine ⟨syncSizes { d with entries := es, stats := { d.stats with evictions := d.stats.evictions + ev.length } },
      ?_, ?_⟩
    · unfold insertWith
      simp only [bind, Except.bind, hd, hq, henc, he, hins, pure, Except.pure]
    · simp [syncSizes, hr'.peek?, (Recency.peek?_insert_evicted hr.keys_nodup hlist).1]

/-- A lookup finds what a peek finds, rewritten by the hit. -/
theorem Holds.modify?_fst {P : Key → Stored → Prop} {c : Compressed} (hc : Holds P c) (k : Key)
    (f : Stored → Stored) : (c.entries.modify? k f).1 = (c.entries.peek? k).map f := by
  obtain ⟨rl, hr, -⟩ := hc
  rw [(hr.modify? k f).1, Recency.modify?_fst, hr.peek?]

/-- A key that is not cached misses, and only the miss is counted. -/
theorem Holds.lookup_of_peek?_none {P : Key → Stored → Prop} {c : Compressed} {k : Key} (hc : Holds P c)
    (h : c.entries.peek? k = none) (now : Instant) :
    c.lookup k now = .ok (none, { c with stats := { c.stats with misses := c.stats.misses + 1 } }) := by
  have hm : (c.entries.modify? k Stored.hit).1 = none := by rw [hc.modify?_fst, h]; rfl
  unfold Compressed.lookup
  rcases hmod : c.entries.modify? k Stored.hit with ⟨_ | st, es⟩
  · rfl
  · rw [hmod] at hm
    cases hm

/-- **A key that is cached hits** and decodes to the size stored under it, while the sizes stored
are ones the codec accepts and the pool is within the largest budget. -/
theorem Holds.lookup_of_peek?_some {P : Key → Stored → Prop}
    (hsmall : ∀ k st, P k st → st.width ≤ 65535 ∧ st.height ≤ 65535) {c : Compressed} (hc : Holds P c)
    (hpool : PoolWithin c) {k : Key} {st : Stored} (h : c.entries.peek? k = some st) (now : Instant) :
    ∃ c', c.lookup k now = .ok (some (Raster.Bitmap.decodedOf st.width st.height), c') := by
  obtain ⟨o, c', hl⟩ := lookup_isOk hsmall hc hpool k now
  cases o with
  | none =>
    rcases lookup_eq_ok hl with ⟨hnone, -, -⟩ | ⟨-, hsome, -⟩
    · rw [hc.modify?_fst, h] at hnone
      cases hnone
    · cases hsome
  | some bm =>
    obtain ⟨found, hfound, rfl⟩ := lookup_eq_ok_some hl
    rw [hc.modify?_fst, h, Option.map_some, Option.some.injEq] at hfound
    subst hfound
    exact ⟨c', hl⟩

end Compressed
end Cache
end Thumbnailer
