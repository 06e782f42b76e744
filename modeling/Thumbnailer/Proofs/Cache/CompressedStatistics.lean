import Thumbnailer.Cache.Compressed
import Thumbnailer.Proofs.Cache.Refinement
import Mathlib

/-!
# The compressed cache's statistics summarise its requests

The codec is a parameter here: `insertWith encode` takes any encoder that gives the compressed
size of a bitmap at a quality, or refuses it; decoding a stored entry always succeeds. A
`Compressed.run` performs inserts, lookups, queries, page invalidations, clears, new capacities
and new qualities, and records each step between the states before and after it.

`Synced` is what every run keeps: the entries stand for a recency list (`CostLru.Refines`), and
the entry count, the bytes used and the capacity in the statistics are the entries' own. Each
request moves the counters by what it did (`Synced.step`): a lookup adds one hit or one miss, an
insert whose compressed form alone exceeds the capacity adds one rejection, and an insert or a
new capacity adds the entries it pushed out, those there before and gone after. Over a run the
counters are therefore the sums over its steps (`tally_run`).

The access counts are read through the recency list: a lookup raises its key's count, an insert
that stores its key starts the count afresh, and every other request keeps a count or drops its
entry. An insert that is refused or fails changes no entry at all.

Main statement: `stats_summarise_requests`.
-/

namespace Thumbnailer
namespace Cache

/-! ### The recency list -/

namespace Recency

variable {κ ν : Type} [DecidableEq κ]

/-- In a list with distinct keys, an entry is what its key finds. -/
theorem find?_of_mem {r : Recency κ ν} (hnd : r.keys.Nodup) {e : Entry κ ν} (he : e ∈ r.entries) :
    r.find? e.key = some e := by
  cases hf : r.find? e.key with
  | none => exact absurd (List.find?_eq_none.1 hf e he) (by simp)
  | some e' =>
    have hk : e'.key = e.key := by simpa using List.find?_some hf
    rw [List.inj_on_of_nodup_map hnd (List.mem_of_find?_eq_some hf) he hk]

/-- A key found in a list with distinct keys stands once in it. -/
theorem split_of_find? {r : Recency κ ν} (hnd : r.keys.Nodup) {k : κ} {e : Entry κ ν}
    (hf : r.find? k = some e) :
    ∃ pes pos, r.entries = pes ++ e :: pos ∧ e.key = k ∧ k ∉ pes.map (·.key) ∧ k ∉ pos.map (·.key) := by
  have hk : e.key = k := by simpa using List.find?_some hf
  obtain ⟨pes, pos, hes⟩ := List.mem_iff_append.1 (List.mem_of_find?_eq_some hf)
  have h := hnd
  rw [keys, hes, List.map_append, List.map_cons, List.nodup_middle, List.nodup_cons, hk] at h
  exact ⟨pes, pos, hes, hk, fun hp => h.1 (List.mem_append_left _ hp),
    fun hp => h.1 (List.mem_append_right _ hp)⟩

/-- A list kept in part finds each key where it was, or not at all. -/
theorem peek?_of_sublist {r r' : Recency κ ν} (hnd : r.keys.Nodup) (hs : r'.entries.Sublist r.entries)
    (k : κ) : r'.peek? k = r.peek? k ∨ r'.peek? k = none := by
  cases hf : r'.find? k with
  | none => exact .inr (by simp [peek?, hf])
  | some e =>
    have hk : e.key = k := by simpa using List.find?_some hf
    subst hk
    exact .inl (by simp [peek?, hf, find?_of_mem hnd (hs.subset (List.mem_of_find?_eq_some hf))])

/-- Rewriting a key's value moves its entry to the front, keeping the size and the cost. -/
theorem modify?_size_cost {r : Recency κ ν} (hnd : r.keys.Nodup) (k : κ) (f : ν → ν) :
    (r.modify? k f).2.size = r.size ∧ (r.modify? k f).2.cost = r.cost := by
  cases hf : r.find? k with
  | none => simp [modify?, hf]
  | some e =>
    obtain ⟨pes, pos, hes, rfl, hpre, hpos⟩ := split_of_find? hnd hf
    obtain ⟨m, es⟩ := r
    dsimp only at hes
    subst hes
    rw [modify?_of_split hpre hpos]
    simp only [size, cost, List.length_cons, List.length_append, costOf_cons, costOf_append]
    omega

/-- Erasing a key leaves what the other keys find. -/
theorem find?_erase_of_ne (r : Recency κ ν) {k k' : κ} (hne : k ≠ k') : (r.erase k).find? k' = r.find? k' := by
  simp only [find?, erase, List.find?_filter]
  congr 1
  funext x
  by_cases hx : x.key = k' <;> simp [hx, Ne.symm hne]

/-- Rewriting a key's value rewrites what that key finds and nothing else. -/
theorem peek?_modify? (r : Recency κ ν) (k k' : κ) (f : ν → ν) :
    (r.modify? k f).2.peek? k' = if k = k' then (r.peek? k).map f else r.peek? k' := by
  cases hf : r.find? k with
  | none =>
    rw [modify?, hf]
    dsimp only
    split
    · rename_i h
      subst h
      simp [peek?, hf]
    · rfl
  | some e =>
    have hk : e.key = k := by simpa using List.find?_some hf
    rw [modify?, hf]
    dsimp only
    split
    · rename_i h
      subst h
      rw [peek?, peek?, hf]
      simp [find?, hk]
    · rename_i hne
      -- the moved entry is not the one `k'` finds, and erasing `k` leaves `k'` in place
      rw [peek?, peek?, ← find?_erase_of_ne r hne]
      simp [find?, hk, hne]

/-- An insert that goes through evicts from the back of the rest and puts the new entry in front. -/
theorem insert_eq_evicted {r r' : Recency κ ν} {k : κ} {v : ν} {w : Nat} {ev : List (κ × ν)}
    (h : r.insert k v w = .ok (.evicted ev, r')) :
    ev.length = (splitWithin (r.maxCost - w) (r.erase k).entries).2.length ∧
      r'.entries = ⟨k, v, w⟩ :: (splitWithin (r.maxCost - w) (r.erase k).entries).1 ∧
      r'.maxCost = r.maxCost := by
  unfold insert at h
  split at h
  · cases h
  · dsimp only at h
    split at h
    · cases h
    · simp only [shed, Except.ok.injEq, Prod.mk.injEq, CostLru.Admit.evicted.injEq] at h
      obtain ⟨rfl, rfl⟩ := h
      exact ⟨by simp, rfl, rfl⟩

/-- What a part of the list leaves out of the whole, when the keys are distinct. -/
theorem keys_filter_not_mem {es ds : List (Entry κ ν)} (hnd : ((es ++ ds).map (·.key)).Nodup) :
    ((es ++ ds).map (·.key)).filter (· ∉ es.map (·.key)) = ds.map (·.key) := by
  rw [List.map_append, List.nodup_append] at hnd
  rw [List.map_append, List.filter_append, List.filter_eq_nil_iff.2 (fun x hx => by simpa using hx),
    List.filter_eq_self.2 (fun x hx => by simpa using fun h => hnd.2.2 x h x hx rfl), List.nil_append]

theorem modify?_maxCost (r : Recency κ ν) (k : κ) (f : ν → ν) : (r.modify? k f).2.maxCost = r.maxCost := by
  unfold modify?
  split <;> rfl

theorem modify?_fst (r : Recency κ ν) (k : κ) (f : ν → ν) : (r.modify? k f).1 = (r.peek? k).map f := by
  unfold modify?
  cases hf : r.find? k <;> simp [peek?, hf]

theorem contains_eq_isSome_peek? (r : Recency κ ν) (k : κ) : r.contains k = (r.peek? k).isSome := by
  simp [contains, peek?]

theorem peek?_cons_of_ne {m : Nat} {e : Entry κ ν} {es : List (Entry κ ν)} {k : κ} (hne : e.key ≠ k) :
    ({ maxCost := m, entries := e :: es } : Recency κ ν).peek? k = ({ maxCost := m, entries := es } : Recency κ ν).peek? k := by
  simp [peek?, find?, hne]

/-- An insert that goes through finds its value under its key, and each other key where it was,
or not at all. -/
theorem peek?_insert_evicted {r r' : Recency κ ν} (hnd : r.keys.Nodup) {k : κ} {v : ν} {w : Nat}
    {ev : List (κ × ν)} (h : r.insert k v w = .ok (.evicted ev, r')) :
    r'.peek? k = some v ∧ ∀ k', k' ≠ k → r'.peek? k' = r.peek? k' ∨ r'.peek? k' = none := by
  obtain ⟨-, hentries, -⟩ := insert_eq_evicted h
  obtain ⟨m, es⟩ := r'
  dsimp only at hentries
  subst hentries
  refine ⟨by simp [peek?, find?], fun k' hne => ?_⟩
  rw [peek?_cons_of_ne (Ne.symm hne)]
  -- what is kept is a part of the list
  have hsub : (splitWithin (r.maxCost - w) (r.erase k).entries).1.Sublist r.entries :=
    (splitWithin_fst_sublist _ _).trans List.filter_sublist
  exact peek?_of_sublist hnd (show ({ maxCost := m, entries := _ } : Recency κ ν).entries.Sublist _ from hsub) k'

/-- The entries an insert pushes out are those there before and gone after. -/
theorem length_gone_insert {r r' : Recency κ ν} (hnd : r.keys.Nodup) {k : κ} {v : ν} {w : Nat}
    {ev : List (κ × ν)} (h : r.insert k v w = .ok (.evicted ev, r')) :
    (r.keys.filter (· ∉ r'.keys)).length = ev.length := by
  obtain ⟨hlen, hentries, -⟩ := insert_eq_evicted h
  have hsplit := splitWithin_append (r.maxCost - w) (r.erase k).entries
  generalize splitWithin (r.maxCost - w) (r.erase k).entries = kd at hlen hentries hsplit
  obtain ⟨kept, dropped⟩ := kd
  dsimp only at hlen hentries hsplit
  -- the keys other than `k` are the rest's: what was kept and what was dropped
  have hrest : r.keys.filter (· ≠ k) = (kept ++ dropped).map (·.key) := by
    rw [hsplit]
    simp [keys, erase, List.filter_map, Function.comp_def]
  have hnd' : ((kept ++ dropped).map (·.key)).Nodup := hrest ▸ hnd.sublist List.filter_sublist
  have hkeys : r'.keys = k :: kept.map (·.key) := by simp [keys, hentries]
  calc (r.keys.filter (· ∉ r'.keys)).length
      = ((r.keys.filter (· ≠ k)).filter (· ∉ kept.map (·.key))).length := by
        rw [hkeys, List.filter_filter]
        congr 2
        funext x
        by_cases hx : x = k <;> simp [hx]
    _ = dropped.length := by rw [hrest, keys_filter_not_mem hnd', List.length_map]
    _ = ev.length := hlen.symm

/-- The entries a new ceiling pushes out are those there before and gone after. -/
theorem length_gone_setMaxCost {r : Recency κ ν} (hnd : r.keys.Nodup) (m : Nat) :
    (r.keys.filter (· ∉ (r.setMaxCost m).2.keys)).length = (r.setMaxCost m).1.length := by
  have hsplit := splitWithin_append m r.entries
  have hnd' : (((splitWithin m r.entries).1 ++ (splitWithin m r.entries).2).map (·.key)).Nodup := by
    rw [hsplit]
    exact hnd
  have hkept : (r.setMaxCost m).2.keys = (splitWithin m r.entries).1.map (·.key) := rfl
  have hev : (r.setMaxCost m).1.length = (splitWithin m r.entries).2.length := by
    simp [setMaxCost, shed]
  have hkeys : r.keys = ((splitWithin m r.entries).1 ++ (splitWithin m r.entries).2).map (·.key) := by
    rw [hsplit]
    rfl
  rw [hkept, hev, hkeys, keys_filter_not_mem hnd', List.length_map]

end Recency

/-! ### The arena -/

namespace CostLru

variable {κ ν : Type} [DecidableEq κ]

/-- An entry that alone costs more than the ceiling is refused and changes nothing. -/
theorem insert_of_lt (c : CostLru κ ν) (k : κ) (v : ν) {w : Nat} (h : c.maxCost < w) :
    c.insert k v w = .ok (.rejected v, c) := by
  simp [insert, h]

theorem lt_of_insert_eq_rejected {c c' : CostLru κ ν} {k : κ} {v v' : ν} {w : Nat}
    (h : c.insert k v w = .ok (.rejected v', c')) : c.maxCost < w := by
  by_contra hle
  unfold insert at h
  rw [if_neg hle] at h
  dsimp only at h
  split at h <;> simp at h

theorem Refines.keys_nodup {c : CostLru κ ν} {r : Recency κ ν} (h : Refines c r) : r.keys.Nodup :=
  let ⟨_, hl⟩ := h.layout
  hl.keys_nodup

theorem Refines.contains_eq_isSome_peek? {c : CostLru κ ν} {r : Recency κ ν} (h : Refines c r) (k : κ) :
    c.contains k = (c.peek? k).isSome := by
  rw [h.contains, h.peek?, Recency.contains_eq_isSome_peek?]

end CostLru

/-- An outcome that agrees with an answer is that answer. -/
theorem Agree.exists_of_ok {α σ τ : Type} {R : σ → τ → Prop} {a : α} {s : σ} {y : Except Overflow (α × τ)}
    (h : Agree R (.ok (a, s)) y) : ∃ t, y = .ok (a, t) ∧ R s t := by
  cases y with
  | error o => exact h.elim
  | ok p =>
    obtain ⟨b, t⟩ := p
    exact ⟨t, by rw [← h.1], h.2⟩

/-! ### One request -/

namespace Compressed

/-- The requests a caller makes of the cache. -/
inductive Op where
  | insert (k : Key) (b : Raster.Bitmap) (now : Instant)
  | lookup (k : Key) (now : Instant)
  | contains (k : Key)
  | accessCount (k : Key)
  | invalidatePage (page : Nat)
  | clear
  | setCapacity (capacity : Nat)
  | setQuality (quality : Nat)

/-- One request, with `encode` as the codec; it fails only on an arithmetic overflow. -/
def Op.step (encode : Raster.Bitmap → Nat → Option Nat) : Op → Compressed → Except Overflow Compressed
  | .insert k b now, c => Prod.snd <$> insertWith encode c k b now
  | .lookup k now, c => Prod.snd <$> c.lookup k now
  | .contains _, c => .ok c
  | .accessCount _, c => .ok c
  | .invalidatePage p, c => .ok (c.invalidatePage p).2
  | .clear, c => .ok c.clear
  | .setCapacity n, c => .ok (c.setCapacity n)
  | .setQuality q, c => .ok (c.setQuality q)

def Op.isLookup : Op → Bool
  | .lookup _ _ => true
  | _ => false

/-- An insert whose compressed form alone costs more than the cache holds. -/
def Op.oversized (op : Op) (encode : Raster.Bitmap → Nat → Option Nat) (c : Compressed) : Bool :=
  match op with
  | .insert _ b _ =>
    match encode b c.quality with
    | some cost => c.entries.maxCost < cost
    | none => false
  | _ => false

/-- The requests that push entries out to make room: inserts and new capacities. -/
def Op.evicts : Op → Bool
  | .insert _ _ _ => true
  | .setCapacity _ => true
  | _ => false

/-- One request of a run, between the states before and after it. -/
structure Step where
  before : Compressed
  op : Op
  after : Compressed

/-- The entries a step pushed out to make room: for an insert or a new capacity, the keys there
before and gone after. -/
def Step.evicted (s : Step) : Nat :=
  if s.op.evicts then (s.before.entries.keys.filter (· ∉ s.after.entries.keys)).length else 0

/-- A run of requests, stopping at the first overflow: its steps in order, and the last state. -/
def run (encode : Raster.Bitmap → Nat → Option Nat) (c : Compressed) :
    List Op → Except Overflow (List Step × Compressed)
  | [] => .ok ([], c)
  | op :: ops =>
    match op.step encode c with
    | .error e => .error e
    | .ok c' =>
      match run encode c' ops with
      | .error e => .error e
      | .ok (t, d) => .ok (⟨c, op, c'⟩ :: t, d)

/-! ### What each request does -/

variable {encode : Raster.Bitmap → Nat → Option Nat} {now : Instant}

/-- Staging a buffer changes the pool only. -/
theorem stage_eq_ok {c c' : Compressed} {w h : Nat} (hs : c.stage w h now = .ok c') :
    c'.entries = c.entries ∧ c'.stats = c.stats ∧ c'.quality = c.quality := by
  unfold stage at hs
  split at hs
  · cases hs
    exact ⟨rfl, rfl, rfl⟩
  · rename_i p _
    rcases hb : p.borrow w h now with _ | p'
    · simp [hb, bind, Except.bind] at hs
    · simp only [hb, bind, Except.bind, pure, Except.pure, Except.ok.injEq] at hs
      subst hs
      exact ⟨rfl, rfl, rfl⟩

/-- A lookup that misses counts a miss and changes nothing else; one that hits counts a hit and
keeps what `modify?` made of the entries. -/
theorem lookup_eq_ok {c c' : Compressed} {k : Key} {b : Option Raster.Bitmap} (h : c.lookup k now = .ok (b, c')) :
    ((c.entries.modify? k Stored.hit).1 = none ∧ b = none ∧
      c' = { c with stats := { c.stats with misses := c.stats.misses + 1 } }) ∨
    ((c.entries.modify? k Stored.hit).1.isSome ∧ b.isSome ∧ c'.entries = (c.entries.modify? k Stored.hit).2 ∧
      c'.stats = { c.stats with hits := c.stats.hits + 1 } ∧ c'.quality = c.quality) := by
  unfold lookup at h
  split at h
  · rename_i es hm
    simp only [pure, Except.pure, Except.ok.injEq, Prod.mk.injEq] at h
    obtain ⟨rfl, rfl⟩ := h
    exact .inl ⟨by rw [hm], rfl, rfl⟩
  · rename_i v es hm
    simp only [bind, Except.bind] at h
    split at h
    · cases h
    · rename_i d hs
      simp only [pure, Except.pure, Except.ok.injEq, Prod.mk.injEq] at h
      obtain ⟨rfl, rfl⟩ := h
      obtain ⟨he, hst, hq⟩ := stage_eq_ok hs
      exact .inr ⟨by rw [hm]; rfl, rfl, by rw [he, hm], hst, hq⟩

/-- What an insert does once its buffer is staged: it fails to encode and changes nothing else,
or refuses a compressed form larger than the capacity and counts it, or stores the entry and
counts the evictions. -/
theorem insertWith_eq_ok {c c' : Compressed} {k : Key} {b : Raster.Bitmap} {r : Except InsertError Bool}
    (h : insertWith encode c k b now = .ok (r, c')) :
    ∃ d : Compressed, d.entries = c.entries ∧ d.stats = c.stats ∧
      ((encode b c.quality = none ∧ r = .error (.encode b.width b.height) ∧ c' = d) ∨
        (∃ cost, encode b c.quality = some cost ∧ c.entries.maxCost < cost ∧ r = .ok false ∧
          c' = { d with stats := { d.stats with rejected := d.stats.rejected + 1 } }) ∨
        (∃ cost ev es, encode b c.quality = some cost ∧ cost ≤ c.entries.maxCost ∧
          c.entries.insert k ⟨b.width, b.height, 0⟩ cost = .ok (.evicted ev, es) ∧ r = .ok true ∧
          c' = syncSizes
            { d with entries := es, stats := { d.stats with evictions := d.stats.evictions + ev.length } })) := by
  unfold insertWith at h
  simp only [bind, Except.bind] at h
  split at h
  · cases h
  · rename_i d hs
    obtain ⟨he, hst, hq⟩ := stage_eq_ok hs
    refine ⟨d, he, hst, ?_⟩
    split at h
    · rename_i henc
      simp only [pure, Except.pure, Except.ok.injEq, Prod.mk.injEq] at h
      exact .inl ⟨hq ▸ henc, h.1.symm, h.2.symm⟩
    · rename_i cost henc
      split at h
      · cases h
      · rename_i p hins
        rw [he] at hins
        obtain ⟨_ | _, es⟩ := p
        · rename_i ev
          simp only [pure, Except.pure, Except.ok.injEq, Prod.mk.injEq] at h
          have hle : cost ≤ c.entries.maxCost := Nat.not_lt.1 fun hlt => by
            rw [CostLru.insert_of_lt _ _ _ hlt] at hins
            cases hins
          exact .inr (.inr ⟨cost, ev, es, hq ▸ henc, hle, hins, h.1.symm, h.2.symm⟩)
        · simp only [pure, Except.pure, Except.ok.injEq, Prod.mk.injEq] at h
          exact .inr (.inl ⟨cost, hq ▸ henc, CostLru.lt_of_insert_eq_rejected hins, h.1.symm, h.2.symm⟩)

/-! ### What every run keeps -/

/-- What every run keeps: the entries stand for a recency list, and the statistics hold the
entries' own count, bytes and capacity. -/
structure Synced (c : Compressed) : Prop where
  refines : ∃ r, CostLru.Refines c.entries r
  entries_eq : c.stats.entries = c.entries.size
  bytes_eq : c.stats.bytesUsed = c.entries.cost
  capacity_eq : c.stats.capacity = c.entries.maxCost

theorem synced_create (capacity quality : Nat) (pool : Option Pool) : Synced (create capacity quality pool) :=
  ⟨⟨_, CostLru.refines_empty capacity⟩, rfl, rfl, rfl⟩

theorem Synced.of_eq {c c' : Compressed} (hs : Synced c) (he : c'.entries = c.entries)
    (hst : c'.stats.entries = c.stats.entries ∧ c'.stats.bytesUsed = c.stats.bytesUsed ∧
      c'.stats.capacity = c.stats.capacity) : Synced c' := by
  obtain ⟨r, hr⟩ := hs.refines
  obtain ⟨h1, h2, h3⟩ := hst
  exact ⟨⟨r, he ▸ hr⟩, by rw [h1, he, hs.entries_eq], by rw [h2, he, hs.bytes_eq],
    by rw [h3, he, hs.capacity_eq]⟩

/-- What one step adds to the counters: one hit or miss for a lookup, one rejection for an
oversized insert, and the entries it pushed out for an insert or a new capacity. -/
structure Step.Tallied (encode : Raster.Bitmap → Nat → Option Nat) (s : Step) : Prop where
  lookups : s.after.stats.hits + s.after.stats.misses =
    s.before.stats.hits + s.before.stats.misses + if s.op.isLookup then 1 else 0
  rejected : s.after.stats.rejected = s.before.stats.rejected + if s.op.oversized encode s.before then 1 else 0
  evictions : s.after.stats.evictions = s.before.stats.evictions + s.evicted

theorem Step.evicted_of_entries_eq {s : Step} (h : s.after.entries = s.before.entries) : s.evicted = 0 := by
  unfold Step.evicted
  rw [h, List.filter_eq_nil_iff.2 fun x hx => by simpa using hx]
  simp

/-- A request that is no lookup, no oversized insert and evicts nothing leaves the counters. -/
theorem Step.tallied_of_counters {s : Step} (hl : s.op.isLookup = false)
    (ho : s.op.oversized encode s.before = false) (he : s.evicted = 0)
    (hh : s.after.stats.hits = s.before.stats.hits) (hm : s.after.stats.misses = s.before.stats.misses)
    (hr : s.after.stats.rejected = s.before.stats.rejected)
    (hev : s.after.stats.evictions = s.before.stats.evictions) : s.Tallied encode :=
  ⟨by rw [hl, hh, hm]; rfl, by rw [ho, hr]; rfl, by rw [he, hev]; rfl⟩

theorem Synced.lookup {c c' : Compressed} {k : Key} {b : Option Raster.Bitmap} (hs : Synced c)
    (h : c.lookup k now = .ok (b, c')) : Synced c' ∧ Step.Tallied encode ⟨c, .lookup k now, c'⟩ := by
  obtain ⟨r, hr⟩ := hs.refines
  have hev : Step.evicted ⟨c, .lookup k now, c'⟩ = 0 := by simp [Step.evicted, Op.evicts]
  rcases lookup_eq_ok h with ⟨-, -, rfl⟩ | ⟨-, -, he, hst, -⟩
  · refine ⟨hs.of_eq rfl ⟨rfl, rfl, rfl⟩, ⟨?_, by simp [Op.oversized], by rw [hev]; rfl⟩⟩
    simp only [Op.isLookup, if_true]
    omega
  · -- a hit moves the entry to the front: the size, the cost and the ceiling stay
    have hr' := (hr.modify? k Stored.hit).2
    obtain ⟨hsize, hcost⟩ := Recency.modify?_size_cost hr.keys_nodup k Stored.hit
    refine ⟨⟨⟨_, he ▸ hr'⟩, ?_, ?_, ?_⟩, ⟨?_, ?_, ?_⟩⟩
    · rw [hst, he, hr'.size_eq, hsize, ← hr.size_eq]
      exact hs.entries_eq
    · rw [hst, he, hr'.cost_eq, hcost, ← hr.cost_eq]
      exact hs.bytes_eq
    · rw [hst, he, hr'.maxCost_eq, Recency.modify?_maxCost, ← hr.maxCost_eq]
      exact hs.capacity_eq
    · simp only [hst, Op.isLookup, if_true]
      omega
    · simp [hst, Op.oversized]
    · rw [hev, hst]
      rfl

theorem Synced.insert {c c' : Compressed} {k : Key} {b : Raster.Bitmap} {r : Except InsertError Bool}
    (hs : Synced c) (h : insertWith encode c k b now = .ok (r, c')) :
    Synced c' ∧ Step.Tallied encode ⟨c, .insert k b now, c'⟩ := by
  obtain ⟨r₀, hr⟩ := hs.refines
  obtain ⟨d, he, hst, ⟨henc, -, rfl⟩ | ⟨cost, henc, hbig, -, rfl⟩ | ⟨cost, ev, es, henc, hle, hins, -, rfl⟩⟩ :=
    insertWith_eq_ok h
  · -- the codec refused the bitmap
    refine ⟨hs.of_eq he (by simp [hst]), Step.tallied_of_counters rfl (by simp [Op.oversized, henc])
      (Step.evicted_of_entries_eq he) ?_ ?_ ?_ ?_⟩ <;> simp [hst]
  · -- the compressed form alone is over the capacity
    refine ⟨hs.of_eq he (by simp [hst]), ⟨by simp [hst, Op.isLookup], ?_, ?_⟩⟩
    · simp [hst, Op.oversized, henc, hbig]
    · rw [Step.evicted_of_entries_eq he]
      simp [hst]
  · -- stored: the arena did what the list does
    obtain ⟨r', hlist, hr'⟩ := Agree.exists_of_ok (hins ▸ hr.insert k ⟨b.width, b.height, 0⟩ cost)
    have hmax : es.maxCost = c.entries.maxCost := by
      rw [hr'.maxCost_eq, hr.maxCost_eq]
      exact (Recency.insert_eq_evicted hlist).2.2
    refine ⟨⟨⟨r', hr'⟩, rfl, rfl, by simp [syncSizes, hst, hmax, hs.capacity_eq]⟩, ⟨?_, ?_, ?_⟩⟩
    · simp [syncSizes, hst, Op.isLookup]
    · simp [syncSizes, hst, Op.oversized, henc, Nat.not_lt.2 hle]
    · -- the evictions counted are the keys there before and gone after
      have hgone := Recency.length_gone_insert hr.keys_nodup hlist
      simp only [Step.evicted, Op.evicts, if_true, syncSizes, hst]
      rw [hr.keys_eq, hr'.keys_eq, hgone]

theorem Synced.invalidatePage {c : Compressed} (hs : Synced c) (p : Nat) :
    Synced (c.invalidatePage p).2 ∧ Step.Tallied encode ⟨c, .invalidatePage p, (c.invalidatePage p).2⟩ := by
  obtain ⟨r, hr⟩ := hs.refines
  have hr' := (hr.removeWhere (·.page = p)).2
  -- removing entries keeps the ceiling
  have hmax : (c.entries.removeWhere (·.page = p)).2.maxCost = c.entries.maxCost := by
    rw [hr'.maxCost_eq, hr.maxCost_eq]
    rfl
  exact ⟨⟨⟨_, hr'⟩, rfl, rfl, hmax.symm ▸ hs.capacity_eq⟩,
    Step.tallied_of_counters rfl rfl (by simp [Step.evicted, Op.evicts]) rfl rfl rfl rfl⟩

theorem Synced.clear {c : Compressed} (hs : Synced c) :
    Synced c.clear ∧ Step.Tallied encode ⟨c, .clear, c.clear⟩ := by
  obtain ⟨r, hr⟩ := hs.refines
  exact ⟨⟨⟨_, hr.clear⟩, rfl, rfl, hs.capacity_eq⟩,
    Step.tallied_of_counters rfl rfl (by simp [Step.evicted, Op.evicts]) rfl rfl rfl rfl⟩

theorem Synced.setCapacity {c : Compressed} (hs : Synced c) (n : Nat) :
    Synced (c.setCapacity n) ∧ Step.Tallied encode ⟨c, .setCapacity n, c.setCapacity n⟩ := by
  obtain ⟨r, hr⟩ := hs.refines
  obtain ⟨hev, hr'⟩ := hr.setMaxCost n
  have hmax : (c.entries.setMaxCost n).2.maxCost = n := by
    rw [hr'.maxCost_eq]
    rfl
  refine ⟨⟨⟨_, hr'⟩, rfl, rfl, hmax.symm⟩, ⟨rfl, rfl, ?_⟩⟩
  -- the evictions counted are the keys there before and gone after
  have hgone := Recency.length_gone_setMaxCost hr.keys_nodup n
  show c.stats.evictions + (c.entries.setMaxCost n).1.length =
    c.stats.evictions + ((c.entries.keys.filter (· ∉ (c.entries.setMaxCost n).2.keys)).length)
  rw [hr.keys_eq, hr'.keys_eq, hgone, hev]

theorem Synced.setQuality {c : Compressed} (hs : Synced c) (q : Nat) :
    Synced (c.setQuality q) ∧ Step.Tallied encode ⟨c, .setQuality q, c.setQuality q⟩ :=
  ⟨hs.of_eq rfl ⟨rfl, rfl, rfl⟩,
    Step.tallied_of_counters rfl rfl (Step.evicted_of_entries_eq rfl) rfl rfl rfl rfl⟩

/-- **Every request keeps the statistics in step with the entries**, and moves the counters by
what it did. -/
theorem Synced.step {c c' : Compressed} (hs : Synced c) :
    (op : Op) → op.step encode c = .ok c' → Synced c' ∧ Step.Tallied encode ⟨c, op, c'⟩
  | .insert k b now, hop => by
    rcases hins : insertWith encode c k b now with _ | ⟨r, c₁⟩
    · simp [Op.step, hins, Functor.map, Except.map] at hop
    · simp only [Op.step, hins, Functor.map, Except.map, Except.ok.injEq] at hop
      exact hop ▸ hs.insert hins
  | .lookup k now, hop => by
    rcases hl : c.lookup k now with _ | ⟨b, c₁⟩
    · simp [Op.step, hl, Functor.map, Except.map] at hop
    · simp only [Op.step, hl, Functor.map, Except.map, Except.ok.injEq] at hop
      exact hop ▸ hs.lookup hl
  | .contains _, hop => by
    cases hop
    exact ⟨hs, Step.tallied_of_counters rfl rfl (Step.evicted_of_entries_eq rfl) rfl rfl rfl rfl⟩
  | .accessCount _, hop => by
    cases hop
    exact ⟨hs, Step.tallied_of_counters rfl rfl (Step.evicted_of_entries_eq rfl) rfl rfl rfl rfl⟩
  | .invalidatePage p, hop => by
    cases hop
    exact hs.invalidatePage p
  | .clear, hop => by
    cases hop
    exact hs.clear
  | .setCapacity n, hop => by
    cases hop
    exact hs.setCapacity n
  | .setQuality q, hop => by
    cases hop
    exact hs.setQuality q

/-- **Over a run the counters are the sums over its steps**: the lookups made, the oversized
inserts, and the entries pushed out. -/
theorem tally_run {c d : Compressed} {ops : List Op} {t : List Step} (hs : Synced c)
    (h : run encode c ops = .ok (t, d)) :
    Synced d ∧ d.stats.hits + d.stats.misses = c.stats.hits + c.stats.misses + ops.countP Op.isLookup ∧
      d.stats.rejected = c.stats.rejected + t.countP (fun s => s.op.oversized encode s.before) ∧
      d.stats.evictions = c.stats.evictions + (t.map Step.evicted).sum := by
  induction ops generalizing c t with
  | nil =>
    simp only [run, Except.ok.injEq, Prod.mk.injEq] at h
    obtain ⟨rfl, rfl⟩ := h
    simp [hs]
  | cons op ops ih =>
    unfold run at h
    split at h
    · cases h
    · rename_i c₁ hop
      split at h
      · cases h
      · rename_i t₁ d₁ hrun
        simp only [Except.ok.injEq, Prod.mk.injEq] at h
        obtain ⟨rfl, rfl⟩ := h
        obtain ⟨hs₁, hstep⟩ := hs.step op hop
        obtain ⟨hd, hlk, hrej, hev⟩ := ih hs₁ hrun
        have h1 := hstep.lookups
        have h2 := hstep.rejected
        have h3 := hstep.evictions
        dsimp only at h1 h2 h3
        refine ⟨hd, ?_, ?_, ?_⟩
        · rw [List.countP_cons]
          omega
        · rw [List.countP_cons]
          dsimp only
          omega
        · rw [List.map_cons, List.sum_cons]
          omega

/-! ### Access counts, refusals and invalidation -/

/-- Entries kept in part keep each key's access count, or drop it. -/
theorem accessCount_of_sublist {c c' : Compressed} {r r' : Recency Key Stored}
    (hr : CostLru.Refines c.entries r) (hr' : CostLru.Refines c'.entries r') (hs : r'.entries.Sublist r.entries)
    (k : Key) : c'.accessCount k = c.accessCount k ∨ c'.accessCount k = none := by
  rcases Recency.peek?_of_sublist hr.keys_nodup hs k with h | h
  · exact .inl (by simp [accessCount, hr.peek?, hr'.peek?, h])
  · exact .inr (by simp [accessCount, hr'.peek?, h])

/-- **A lookup hits exactly the cached keys**, and raises the access count of its own key by one,
up to the largest 32-bit word; the other counts stay. -/
theorem Synced.lookup_counts {c c' : Compressed} {k : Key} {b : Option Raster.Bitmap} (hs : Synced c)
    (h : c.lookup k now = .ok (b, c')) :
    b.isSome = c.contains k ∧ c'.accessCount k = (c.accessCount k).map (fun n => min (n + 1) u32Max) ∧
      ∀ k', k' ≠ k → c'.accessCount k' = c.accessCount k' := by
  obtain ⟨r, hr⟩ := hs.refines
  have hfst : (c.entries.modify? k Stored.hit).1 = (c.entries.peek? k).map Stored.hit := by
    rw [(hr.modify? k Stored.hit).1, Recency.modify?_fst, hr.peek?]
  have hpeek : ∀ k', (c.entries.modify? k Stored.hit).2.peek? k' =
      if k = k' then (c.entries.peek? k).map Stored.hit else c.entries.peek? k' := by
    intro k'
    rw [(hr.modify? k Stored.hit).2.peek?, Recency.peek?_modify?, hr.peek?, hr.peek?]
  have hcontains : c.contains k = (c.entries.peek? k).isSome := hr.contains_eq_isSome_peek? k
  rcases lookup_eq_ok h with ⟨hnone, rfl, rfl⟩ | ⟨hsome, hb, he, -, -⟩
  · -- a miss: nothing is cached under the key
    rw [hfst, Option.map_eq_none_iff] at hnone
    exact ⟨by simp [hcontains, hnone], by simp [accessCount, hnone], fun _ _ => rfl⟩
  · rw [hfst, Option.isSome_map] at hsome
    refine ⟨by rw [hb, hcontains, hsome], ?_, fun k' hne => ?_⟩
    · rw [accessCount, accessCount, he, hpeek, if_pos rfl, Option.map_map, Option.map_map]
      rfl
    · rw [accessCount, accessCount, he, hpeek, if_neg (Ne.symm hne)]

/-- **An insert that stores its key starts the key's access count at zero**, and keeps each other
count or drops its entry. -/
theorem Synced.insert_counts {c c' : Compressed} {k : Key} {b : Raster.Bitmap} (hs : Synced c)
    (h : insertWith encode c k b now = .ok (.ok true, c')) :
    c'.accessCount k = some 0 ∧
      ∀ k', k' ≠ k → c'.accessCount k' = c.accessCount k' ∨ c'.accessCount k' = none := by
  obtain ⟨r, hr⟩ := hs.refines
  obtain ⟨d, -, -, ⟨-, hres, -⟩ | ⟨-, -, -, hres, -⟩ | ⟨cost, ev, es, -, -, hins, -, rfl⟩⟩ :=
    insertWith_eq_ok h
  · cases hres
  · cases hres
  · obtain ⟨r', hlist, hr'⟩ := Agree.exists_of_ok (hins ▸ hr.insert k ⟨b.width, b.height, 0⟩ cost)
    obtain ⟨hk, hother⟩ := Recency.peek?_insert_evicted hr.keys_nodup hlist
    refine ⟨by simp [accessCount, syncSizes, hr'.peek?, hk], fun k' hne => ?_⟩
    rcases hother k' hne with h' | h'
    · exact .inl (by simp [accessCount, syncSizes, hr'.peek?, h', hr.peek?])
    · exact .inr (by simp [accessCount, syncSizes, hr'.peek?, h'])

/-- **An insert that is refused or fails changes no entry**, nor its recency, nor its access
count, even when its key was cached. -/
theorem insertWith_keeps_entries {c c' : Compressed} {k : Key} {b : Raster.Bitmap}
    {r : Except InsertError Bool} (h : insertWith encode c k b now = .ok (r, c')) (hr : r ≠ .ok true) :
    c'.entries = c.entries := by
  obtain ⟨d, he, -, ⟨-, -, rfl⟩ | ⟨-, -, -, -, rfl⟩ | ⟨-, -, -, -, -, -, hres, -⟩⟩ := insertWith_eq_ok h
  · exact he
  · exact he
  · exact absurd hres hr

/-- Every request other than a lookup or an insert of a key keeps the key's access count, or
drops its entry. -/
theorem Synced.keeps_counts {c c' : Compressed} (hs : Synced c) {op : Op} (hop : op.step encode c = .ok c')
    {k : Key} (hl : ∀ now, op ≠ .lookup k now) (hi : ∀ b now, op ≠ .insert k b now) :
    c'.accessCount k = c.accessCount k ∨ c'.accessCount k = none := by
  obtain ⟨r, hr⟩ := hs.refines
  cases op with
  | insert k₁ b now =>
    have hne : k ≠ k₁ := fun h => hi b now (by rw [h])
    rcases hins : insertWith encode c k₁ b now with _ | ⟨res, c₁⟩
    · simp [Op.step, hins, Functor.map, Except.map] at hop
    · simp only [Op.step, hins, Functor.map, Except.map, Except.ok.injEq] at hop
      subst hop
      by_cases hres : res = .ok true
      · subst hres
        exact (hs.insert_counts hins).2 k hne
      · exact .inl (by rw [accessCount, accessCount, insertWith_keeps_entries hins hres])
  | lookup k₁ now =>
    have hne : k ≠ k₁ := fun h => hl now (by rw [h])
    rcases hlk : c.lookup k₁ now with _ | ⟨b, c₁⟩
    · simp [Op.step, hlk, Functor.map, Except.map] at hop
    · simp only [Op.step, hlk, Functor.map, Except.map, Except.ok.injEq] at hop
      subst hop
      exact .inl ((hs.lookup_counts hlk).2.2 k hne)
  | contains _ =>
    cases hop
    exact .inl rfl
  | accessCount _ =>
    cases hop
    exact .inl rfl
  | invalidatePage p =>
    cases hop
    exact accessCount_of_sublist hr (hr.removeWhere _).2 List.filter_sublist k
  | clear =>
    cases hop
    refine .inr ?_
    show (c.entries.clear.peek? k).map (·.accessCount) = none
    rw [hr.clear.peek?]
    simp [Recency.clear, Recency.peek?, Recency.find?]
  | setCapacity n =>
    cases hop
    exact accessCount_of_sublist hr (hr.setMaxCost n).2 (Recency.splitWithin_fst_sublist _ _) k
  | setQuality q =>
    cases hop
    exact .inl rfl

/-- **Invalidating a page removes exactly the entries of that page**, keeping the others in their
order, and returns how many it removed. -/
theorem Synced.invalidatePage_keys {c : Compressed} (hs : Synced c) (p : Nat) :
    (c.invalidatePage p).2.entries.keys = c.entries.keys.filter (fun k => k.page ≠ p) ∧
      (c.invalidatePage p).1 = (c.entries.keys.filter (fun k => k.page = p)).length := by
  obtain ⟨r, hr⟩ := hs.refines
  obtain ⟨hn, hr'⟩ := hr.removeWhere (·.page = p)
  refine ⟨?_, ?_⟩
  · show (c.entries.removeWhere (·.page = p)).2.keys = _
    rw [hr'.keys_eq, hr.keys_eq]
    simp [Recency.removeWhere, Recency.keys, List.filter_map, Function.comp_def]
  · show (c.entries.removeWhere (·.page = p)).1 = _
    rw [hn, hr.keys_eq]
    simp [Recency.removeWhere, Recency.keys, List.filter_map, Function.comp_def]

/-! ### The statistics over a run -/

/-- **The statistics summarise the requests**, over every run from a new cache and with any
encoder. The entry count, the bytes used and the capacity in the statistics are the entries' own,
and the bytes are within the capacity. Hits and misses add up to the lookups made; rejections
count the inserts whose compressed form alone exceeded the capacity at the time; evictions count
the entries that inserts and new capacities pushed out. From the state reached, a lookup hits
exactly the cached keys and raises the access count of its key alone, saturating; an insert that
stores its key starts that count at zero; every other request keeps each count or drops its
entry; an insert that is refused or fails changes no entry; and invalidating a page removes
exactly that page's entries and counts them. -/
theorem stats_summarise_requests (encode : Raster.Bitmap → Nat → Option Nat) (capacity quality : Nat)
    (pool : Option Pool) (ops : List Op) {t : List Step} {c : Compressed}
    (h : run encode (create capacity quality pool) ops = .ok (t, c)) :
    (c.stats.entries = c.size ∧ c.stats.bytesUsed = c.entries.cost ∧ c.entries.cost ≤ c.entries.maxCost ∧
      c.stats.capacity = c.entries.maxCost) ∧
    (c.stats.hits + c.stats.misses = ops.countP Op.isLookup ∧
      (∀ k now b c', c.lookup k now = .ok (b, c') → b.isSome = c.contains k ∧
        c'.accessCount k = (c.accessCount k).map (fun n => min (n + 1) u32Max) ∧
        ∀ k', k' ≠ k → c'.accessCount k' = c.accessCount k') ∧
      (∀ k b now c', insertWith encode c k b now = .ok (.ok true, c') → c'.accessCount k = some 0) ∧
      (∀ (op : Op) c', op.step encode c = .ok c' → ∀ k, (∀ now, op ≠ .lookup k now) →
        (∀ b now, op ≠ .insert k b now) →
        c'.accessCount k = c.accessCount k ∨ c'.accessCount k = none)) ∧
    (c.stats.rejected = t.countP (fun s => s.op.oversized encode s.before) ∧
      c.stats.evictions = (t.map Step.evicted).sum) ∧
    (∀ k b now r c', insertWith encode c k b now = .ok (r, c') → r ≠ .ok true → c'.entries = c.entries) ∧
    (∀ p, (c.invalidatePage p).2.entries.keys = c.entries.keys.filter (fun k => k.page ≠ p) ∧
      (c.invalidatePage p).1 = (c.entries.keys.filter (fun k => k.page = p)).length) := by
  -- a new cache has counted nothing
  obtain ⟨hs, hlookups, hrejected, hevictions⟩ := tally_run (synced_create capacity quality pool) h
  obtain ⟨r, hr⟩ := hs.refines
  refine ⟨⟨hs.entries_eq, hs.bytes_eq, hr.cost_le, hs.capacity_eq⟩,
    ⟨by simpa [create] using hlookups, fun _ _ _ _ hl => hs.lookup_counts hl,
      fun _ _ _ _ hi => (hs.insert_counts hi).1, fun _ _ hop _ hl hi => hs.keeps_counts hop hl hi⟩,
    ⟨by simpa [create] using hrejected, by simpa [create] using hevictions⟩,
    fun _ _ _ _ _ hi hres => insertWith_keeps_entries hi hres, hs.invalidatePage_keys⟩

/-- A stored entry, a hit, a miss, an insert too large for the cache, and a capacity below the
stored entry's size: one rejection and one eviction, as the steps say. -/
theorem stats_summarise_requests_of_rejection_and_eviction :
    ∃ t c, run codec.encode (create 100000 80)
        [.insert ⟨0, 40, 60, 720, 80⟩ (Raster.Bitmap.decodedOf 40 60) (Instant.tick 1),
          .lookup ⟨0, 40, 60, 720, 80⟩ (Instant.tick 2), .lookup ⟨1, 40, 60, 720, 80⟩ (Instant.tick 3),
          .insert ⟨1, 40, 60, 720, 80⟩ (Raster.Bitmap.decodedOf 2000 2000) (Instant.tick 4),
          .setCapacity 700] = .ok (t, c) ∧
      c.stats.rejected = t.countP (fun s => s.op.oversized codec.encode s.before) ∧
      c.stats.evictions = (t.map Step.evicted).sum := by
  have hok : (run codec.encode (create 100000 80)
      [.insert ⟨0, 40, 60, 720, 80⟩ (Raster.Bitmap.decodedOf 40 60) (Instant.tick 1),
        .lookup ⟨0, 40, 60, 720, 80⟩ (Instant.tick 2), .lookup ⟨1, 40, 60, 720, 80⟩ (Instant.tick 3),
        .insert ⟨1, 40, 60, 720, 80⟩ (Raster.Bitmap.decodedOf 2000 2000) (Instant.tick 4),
        .setCapacity 700]).isOk = true := by
    decide +kernel
  cases hr : run codec.encode (create 100000 80)
      [.insert ⟨0, 40, 60, 720, 80⟩ (Raster.Bitmap.decodedOf 40 60) (Instant.tick 1),
        .lookup ⟨0, 40, 60, 720, 80⟩ (Instant.tick 2), .lookup ⟨1, 40, 60, 720, 80⟩ (Instant.tick 3),
        .insert ⟨1, 40, 60, 720, 80⟩ (Raster.Bitmap.decodedOf 2000 2000) (Instant.tick 4),
        .setCapacity 700] with
  | error e =>
    rw [hr] at hok
    cases hok
  | ok p =>
    obtain ⟨t, c⟩ := p
    exact ⟨t, c, rfl, (stats_summarise_requests codec.encode 100000 80 none _ hr).2.2.1⟩

end Compressed
end Cache
end Thumbnailer
