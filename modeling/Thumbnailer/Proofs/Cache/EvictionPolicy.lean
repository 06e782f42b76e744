import Thumbnailer.Proofs.Cache.PageCacheBounds

/-!
# Sweeps follow the eviction policy

While the page cache exceeds a bound, a sweep evicts in rounds. Each round ranks the entries it
may evict, all but the protected page, by the policy in force (`PageCache.policy`):

* `lru`: least recently accessed first;
* `lfu`: fewest accesses first, then least recently accessed;
* `largestFirst`: most bytes first, then least recently accessed;

and the `adaptive` strategy is `lru` while more than 70% of lookups hit and `lfu` otherwise.
`Policy.Before` states each ranking by the keys it compares. A round (`Round`) evicts the first
`⌈n/4⌉` of the ranked entries, at least one, where `n` counts every entry, the protected one
included: the victims and the entries left make up the candidates, no entry left ranks before
a victim (`FirstRanked`), each victim is counted as an eviction, and nothing else changes.
`Sweeps` strings rounds together while a bound is exceeded and some unprotected entry is left.

The implementation sorts the candidates by lists of integers compared lexicographically
(`rankLt_iff`), a linear order whose strict part is `Policy.Before` (`rank_lt_rank`), and evicts
the head of the sorted list; so each of its rounds is a `Round` (`evictRound_round`) and each of
its sweeps a `Sweeps` (`sweep_sweeps`). The main statement, `eviction_follows_policy`, says so
of every call that sweeps, in every cache a run reaches, together with what a lookup changes: a
hit counts, bumps the page's access count and stamps it with the lookup's instant, after every
other entry's last access when the calls come in time order; a miss counts and changes no entry;
a peek changes nothing.
-/

namespace Thumbnailer
namespace Cache

/-- Whether `a` ranks strictly before `b` under a policy: by last access for `lru`, by access
count and then last access for `lfu`, by size (largest first) and then last access for
`largestFirst`. -/
def Policy.Before : Policy → PageCache.Entry → PageCache.Entry → Prop
  | .lru, a, b => a.lastAccessed.before b.lastAccessed = true
  | .lfu, a, b => a.accessCount < b.accessCount ∨
      (a.accessCount = b.accessCount ∧ a.lastAccessed.before b.lastAccessed = true)
  | .largestFirst, a, b => b.bytes < a.bytes ∨
      (a.bytes = b.bytes ∧ a.lastAccessed.before b.lastAccessed = true)

namespace PageCache

/-! ### Ranks -/

/-- The rank comparison is the lexicographic order on lists of integers. -/
theorem rankLt_iff (a b : List Int) : rankLt a b = true ↔ a < b := by
  induction a generalizing b with
  | nil => cases b <;> simp [rankLt, List.nil_lt_cons]
  | cons x xs ih =>
    cases b with
    | nil => simp [rankLt, List.not_lt_nil]
    | cons y ys => simp [rankLt, List.cons_lt_cons_iff, ih]

/-- **The ranks order entries as the policy says.** -/
theorem rank_lt_rank (p : Policy) (a b : Entry) : rank p a < rank p b ↔ p.Before a b := by
  cases p <;> simp [rank, List.cons_lt_cons_iff, Policy.Before, Instant.before]

/-- The order a round sorts its candidates by: `a` goes no later than `b`. -/
def rankLe (p : Policy) (a b : Entry) : Bool := !rankLt (rank p b) (rank p a)

theorem rankLe_iff (p : Policy) (a b : Entry) : rankLe p a b = true ↔ ¬ p.Before b a := by
  rw [← rank_lt_rank, ← rankLt_iff]
  simp [rankLe]

theorem rankLe_trans (p : Policy) (a b c : Entry) (h₁ : rankLe p a b = true)
    (h₂ : rankLe p b c = true) : rankLe p a c = true := by
  simp only [rankLe, Bool.not_eq_eq_eq_not, Bool.not_true, Bool.eq_false_iff, ne_eq, rankLt_iff,
    not_lt] at h₁ h₂ ⊢
  exact le_trans h₁ h₂

theorem rankLe_total (p : Policy) (a b : Entry) : (rankLe p a b || rankLe p b a) = true := by
  simp only [rankLe, Bool.or_eq_true, Bool.not_eq_eq_eq_not, Bool.not_true, Bool.eq_false_iff,
    ne_eq, rankLt_iff, not_lt]
  exact le_total _ _

/-! ### The reference rounds -/

/-- `victims` are the first `k` of `cands` ranked by `p`, or all of them when there are fewer:
with the entries left they make up the candidates, and no entry left ranks before a victim. -/
def FirstRanked (p : Policy) (k : Nat) (cands victims : List Entry) : Prop :=
  ∃ rest, (victims ++ rest).Perm cands ∧ victims.length = min k cands.length ∧
    ∀ v ∈ victims, ∀ w ∈ rest, ¬ p.Before w v

/-- **One round as the policy describes it.** Of the entries other than the protected page,
ranked by the policy in force, the first quarter of all the entries (rounded up, at least one)
are evicted, each counted as an eviction; the byte counter loses their sizes and nothing else
changes. -/
def Round (protect : Option Nat) (c c' : PageCache) : Prop :=
  ∃ victims,
    FirstRanked c.policy (max ((c.entries.length + 3) / 4) 1) (c.unprotected protect) victims ∧
    c' = { c with entries := c.entries.filter (·.page ∉ victims.map (·.page)),
                  bytesUsed := c.bytesUsed - (victims.map (·.bytes)).sum,
                  evictions := c.evictions + victims.length }

/-- **A sweep as the policy describes it**: rounds follow one another while a bound is exceeded
and some entry other than the protected page is left. -/
inductive Sweeps (protect : Option Nat) : PageCache → PageCache → Prop
  | done {c : PageCache} : c.overLimit = false ∨ c.unprotected protect = [] → Sweeps protect c c
  | round {c c' c'' : PageCache} : c.overLimit = true → c.unprotected protect ≠ [] →
      Round protect c c' → Sweeps protect c' c'' → Sweeps protect c c''

/-! ### The implementation's rounds -/

/-- Sorting by rank and taking the head of the list takes the first ranked candidates. -/
theorem firstRanked_take (p : Policy) (k : Nat) (cands : List Entry) :
    FirstRanked p k cands ((cands.mergeSort (rankLe p)).take k) := by
  have hsorted := List.pairwise_mergeSort (rankLe_trans p) (rankLe_total p) cands
  rw [← List.take_append_drop k (cands.mergeSort (rankLe p)), List.pairwise_append] at hsorted
  refine ⟨(cands.mergeSort (rankLe p)).drop k, ?_, ?_, fun v hv w hw => ?_⟩
  · rw [List.take_append_drop]
    exact List.mergeSort_perm _ _
  · rw [List.length_take, List.length_mergeSort]
  · exact (rankLe_iff p v w).1 (hsorted.2.2 v hv w hw)

/-- Taking a page out drops its entries and the size of the one `find?` returns. -/
theorem take_eq (c : PageCache) (page : Nat) :
    (c.take page).2 =
      { c with entries := c.entries.filter (·.page ≠ page),
               bytesUsed := c.bytesUsed - ((c.entries.find? (·.page = page)).map (·.bytes)).getD 0 } := by
  unfold take
  split
  · rename_i h
    have hf : c.entries.filter (·.page ≠ page) = c.entries :=
      List.filter_eq_self.2 fun e he => by simpa using List.find?_eq_none.1 h e he
    rw [hf, h]
    rfl
  · rename_i e h
    simp [h]

/-- **Evicting entries of distinct pages** drops exactly them, subtracts their sizes and counts
each. -/
theorem Tallied.evictPages_eq {c : PageCache} (h : Tallied c) {victims : List Entry}
    (hmem : ∀ v ∈ victims, v ∈ c.entries) (hnd : (victims.map (·.page)).Nodup) :
    c.evictPages (victims.map (·.page)) =
      { c with entries := c.entries.filter (·.page ∉ victims.map (·.page)),
               bytesUsed := c.bytesUsed - (victims.map (·.bytes)).sum,
               evictions := c.evictions + victims.length } := by
  induction victims generalizing c with
  | nil => simp [PageCache.evictPages]
  | cons v vs ih =>
    rw [List.map_cons, List.nodup_cons] at hnd
    -- `v` is its page's only entry, so taking the page takes `v`
    have hfind : c.entries.find? (·.page = v.page) = some v :=
      find?_of_only (hmem v List.mem_cons_self) rfl fun x hx hp =>
        List.inj_on_of_nodup_map h.nodup hx (hmem v List.mem_cons_self) hp
    let c₁ : PageCache := { (c.take v.page).2 with evictions := c.evictions + 1 }
    have hc₁ : c₁ = { c with entries := c.entries.filter (·.page ≠ v.page),
                             bytesUsed := c.bytesUsed - v.bytes, evictions := c.evictions + 1 } := by
      simp only [c₁, take_eq, hfind, Option.map_some, Option.getD_some]
    have ht₁ : Tallied c₁ := (h.take v.page).congr rfl rfl
    have hmem₁ : ∀ x ∈ vs, x ∈ c₁.entries := fun x hx => by
      rw [hc₁]
      refine List.mem_filter.2 ⟨hmem x (List.mem_cons_of_mem _ hx), ?_⟩
      have hne : x.page ≠ v.page := fun he => hnd.1 (he ▸ List.mem_map_of_mem hx)
      simpa using hne
    have hstep :
        c.evictPages (v.page :: vs.map (·.page)) = c₁.evictPages (vs.map (·.page)) := rfl
    rw [List.map_cons, hstep, ih ht₁ hmem₁ hnd.2, hc₁]
    simp only [List.filter_filter, List.map_cons, List.sum_cons, List.length_cons, Nat.sub_sub,
      List.mem_cons, not_or]
    congr 1
    · exact List.filter_congr fun e _ => by simp [Bool.and_comm]
    · omega

/-- **Each round of the implementation is a round of the policy.** -/
theorem evictRound_round {c c' : PageCache} {protect : Option Nat} (h : Tallied c)
    (hr : c.evictRound protect = some c') : Round protect c c' := by
  unfold evictRound at hr
  dsimp only at hr
  split at hr
  · cases hr
  · cases hr
    let victims := ((c.unprotected protect).mergeSort (rankLe c.policy)).take
      (max ((c.entries.length + 3) / 4) 1)
    have hsub : victims.Sublist ((c.unprotected protect).mergeSort (rankLe c.policy)) :=
      List.take_sublist _ _
    have hmem : ∀ v ∈ victims, v ∈ c.entries := fun v hv =>
      List.mem_of_mem_filter (List.mem_mergeSort.1 (hsub.subset hv))
    -- the candidates are entries, whose pages are distinct
    have hnd : (victims.map (·.page)).Nodup :=
      (h.nodup.sublist (List.filter_sublist.map _)).perm
        ((List.mergeSort_perm _ _).map _).symm |>.sublist (hsub.map _)
    refine ⟨victims, firstRanked_take _ _ _, ?_⟩
    exact h.evictPages_eq hmem hnd

/-- **Every sweep of the implementation is a sweep of the policy.** Each round evicts an
unprotected entry, so the rounds the implementation allows always cover the unprotected entries
and it stops only by its own test. -/
theorem sweep_sweeps {c : PageCache} (h : Tallied c) (protect : Option Nat) :
    Sweeps protect c (c.sweep protect) := by
  suffices H : ∀ fuel (d : PageCache), Tallied d → (d.unprotected protect).length ≤ fuel →
      Sweeps protect d (sweep.go protect fuel d) from
    H _ c h (List.length_filter_le _ _)
  intro fuel
  induction fuel with
  | zero =>
    intro d _ hd
    exact .done (.inr (List.eq_nil_of_length_eq_zero (Nat.le_zero.1 hd)))
  | succ fuel ih =>
    intro d hd hlen
    simp only [sweep.go]
    split
    · rename_i hover
      exact .done (.inl (by simpa using hover))
    · rename_i hover
      split
      · rename_i hnone
        exact .done (.inr (evictRound_eq_none hnone))
      · rename_i d' hsome
        obtain ⟨victims, -, ⟨e, he, -⟩, hd'⟩ := evictRound_eq_some hsome
        have hlt := evictRound_unprotected_lt hsome
        refine .round (by simpa using hover) (List.ne_nil_of_mem he) (evictRound_round hd hsome)
          (ih _ (hd' ▸ hd.evictPages victims) (by omega))

/-! ### What a call sweeps -/

/-- The cache a storing insert at `now` sweeps: the page's old entry taken out, the new one
appended with the instant and one access, and its size counted. -/
def stored (c : PageCache) (page : Nat) (b : Raster.Bitmap) (now : Instant) : PageCache :=
  let e : Entry := { page, bitmap := b, bytes := b.byteSize, lastAccessed := now, accessCount := 1 }
  { (c.take page).2 with entries := (c.take page).2.entries ++ [e],
                         bytesUsed := (c.take page).2.bytesUsed + b.byteSize }

/-- **What a storing insert sweeps.** -/
theorem insert_eq_stored {c c' : PageCache} {page : Nat} {b : Raster.Bitmap} {now : Instant}
    (h : c.insert page b now = .ok (true, c')) : c' = (c.stored page b now).sweep (some page) := by
  unfold insert at h
  dsimp only at h
  split at h
  · cases h
  · rcases hadd : checkedAdd (c.take page).2.bytesUsed b.byteSize with _ | used
    · simp [hadd, bind, Except.bind] at h
    · simp only [hadd, bind, Except.bind, pure, Except.pure, Except.ok.injEq, Prod.mk.injEq] at h
      obtain ⟨-, rfl⟩ := h
      rw [eq_add_of_checkedAdd_eq_ok hadd]
      rfl

/-! ### Access stamps -/

/-- The instant a call stamps an entry with: an insert's and a lookup's. -/
def Op.instant? : Op → Option Instant
  | .insert _ _ now => some now
  | .get _ now => some now
  | _ => none

/-- Every entry's last access is one of the instants `ts`. -/
def Stamped (ts : List Instant) (c : PageCache) : Prop :=
  ∀ e ∈ c.entries, e.lastAccessed ∈ ts

/-- The stamps read only the entries; dropping entries or adding instants keeps them. -/
theorem Stamped.shrink {ts ts' : List Instant} {c c' : PageCache} (h : Stamped ts c)
    (hsub : ∀ e ∈ c'.entries, e ∈ c.entries) (hts : ts ⊆ ts') : Stamped ts' c' := fun e he =>
  hts (h e (hsub e he))

/-- An instant after every one of `ts` comes after every entry's last access. -/
theorem Stamped.before {ts : List Instant} {c : PageCache} (h : Stamped ts c) {now : Instant}
    (hnow : ∀ t ∈ ts, t.before now = true) : ∀ e ∈ c.entries, e.lastAccessed.before now = true :=
  fun e he => hnow _ (h e he)

theorem Stamped.sweep {ts : List Instant} {c : PageCache} (h : Stamped ts c) (protect : Option Nat) :
    Stamped ts (c.sweep protect) :=
  h.shrink (fun _ he => (sweep_entries_sublist c protect).subset he) (List.Subset.refl _)

theorem Stamped.insert {ts : List Instant} {c c' : PageCache} {page : Nat} {b : Raster.Bitmap}
    {now : Instant} {stored : Bool} (h : Stamped ts c) (hi : c.insert page b now = .ok (stored, c')) :
    Stamped (ts ++ [now]) c' := by
  cases stored
  · rcases insert_eq_ok hi with ⟨-, -, rfl⟩ | ⟨-, hs, -⟩
    · exact h.shrink (fun _ he => he) (List.subset_append_left _ _)
    · cases hs
  · rw [insert_eq_stored hi]
    refine Stamped.sweep (fun e he => ?_) _
    simp only [stored] at he
    rcases List.mem_append.1 he with he | he
    · rw [take_entries] at he
      exact List.mem_append_left _ (h e (List.mem_of_mem_filter he))
    · rw [List.mem_singleton.1 he]
      exact List.mem_append_right _ List.mem_cons_self

/-- An entry after a hit on `page` at instant `t`: the page's entry gets the instant and one
more access, stopping at the largest 32-bit word; any other entry stays. -/
def touched (page : Nat) (t : Instant) (e : Entry) : Entry :=
  if e.page = page then { e with lastAccessed := t, accessCount := min (e.accessCount + 1) u32Max }
  else e

/-- **What a lookup does.** A page present counts a hit and stamps the page's entry with the
lookup's instant and one more access (stopping at the largest 32-bit word), leaving every other
entry as it is; an absent page counts a miss and changes nothing else. -/
theorem get_eq_hit {c : PageCache} {page : Nat} (h : c.contains page = true) (now : Instant) :
    (c.get page now).2 = { c with entries := c.entries.map (touched page now), hits := c.hits + 1 } := by
  unfold get
  unfold contains at h
  split
  · rename_i hn
    rw [hn] at h
    cases h
  · rfl

theorem get_eq_miss {c : PageCache} {page : Nat} (h : c.contains page = false) (now : Instant) :
    (c.get page now).2 = { c with misses := c.misses + 1 } := by
  unfold get
  unfold contains at h
  split
  · rfl
  · rename_i e he
    rw [he] at h
    cases h

theorem Stamped.get {ts : List Instant} {c : PageCache} (h : Stamped ts c) (page : Nat) (now : Instant) :
    Stamped (ts ++ [now]) (c.get page now).2 := by
  cases hc : c.contains page
  · rw [get_eq_miss hc]
    exact h.shrink (fun _ he => he) (List.subset_append_left _ _)
  · rw [get_eq_hit hc]
    intro e he
    obtain ⟨x, hx, rfl⟩ := List.mem_map.1 he
    unfold touched
    split
    · exact List.mem_append_right _ List.mem_cons_self
    · exact List.mem_append_left _ (h x hx)

/-- **Every call keeps the stamps**, adding its own instant when it has one. -/
theorem Stamped.step {ts : List Instant} {c c' : PageCache} (h : Stamped ts c) (op : Op)
    (hs : op.step c = .ok c') : Stamped (ts ++ op.instant?.toList) c' := by
  have hkeep : ts ⊆ ts ++ op.instant?.toList := List.subset_append_left _ _
  cases op with
  | insert page b now =>
    simp only [Op.step] at hs
    rcases hi : c.insert page b now with e | ⟨stored, d⟩
    · simp [hi, Functor.map, Except.map] at hs
    · simp only [hi, Functor.map, Except.map, Except.ok.injEq] at hs
      exact hs ▸ h.insert hi
  | get page now => cases hs; exact h.get page now
  | peek page => cases hs; exact h.shrink (fun _ he => he) hkeep
  | remove page =>
    cases hs
    exact h.shrink (fun e he => by
      rw [PageCache.remove, take_entries] at he
      exact List.mem_of_mem_filter he) hkeep
  | clear => cases hs; exact h.shrink (fun _ he => absurd he List.not_mem_nil) hkeep
  | setMaxItems n =>
    cases hs
    exact (Stamped.sweep (c := { c with maxItems := max n 1 }) h none).shrink (fun _ he => he) hkeep
  | setMaxBytes n =>
    cases hs
    exact (Stamped.sweep (c := { c with maxBytes := max n mebibyte }) h none).shrink (fun _ he => he) hkeep
  | setStrategy s => cases hs; exact h.shrink (fun _ he => he) hkeep
  | cleanupAt now =>
    cases hs
    rcases cleanupAt_eq c now with heq | ⟨pages, heq⟩
    · rw [heq]
      exact h.shrink (fun _ he => he) hkeep
    · rw [heq]
      exact h.shrink (fun e he => by
        rw [evictPages_entries] at he
        exact List.mem_of_mem_filter he) hkeep

/-- Along a run every entry's last access is the instant of one of its inserts or lookups. -/
theorem Stamped.run {ts : List Instant} {c c' : PageCache} (h : Stamped ts c) (ops : List Op)
    (hrun : c.run ops = .ok c') : Stamped (ts ++ ops.filterMap Op.instant?) c' := by
  induction ops generalizing ts c with
  | nil =>
    simp only [PageCache.run, Except.ok.injEq] at hrun
    subst hrun
    simpa using h
  | cons op ops ih =>
    unfold PageCache.run at hrun
    split at hrun
    · cases hrun
    · rename_i c₁ hop
      have := ih (h.step op hop) hrun
      rcases hi : op.instant? with _ | t <;> simpa [List.filterMap_cons, hi] using this

theorem stamped_run (maxItems maxBytes : Nat) (ops : List Op) {c : PageCache}
    (h : (create maxItems maxBytes).run ops = .ok c) : Stamped (ops.filterMap Op.instant?) c := by
  have h₀ : Stamped [] (create maxItems maxBytes) := fun _ he => absurd he List.not_mem_nil
  simpa using h₀.run ops h

/-! ### The policy in every reachable cache -/

/-- **Eviction follows its reference policy.** In every cache a run reaches: a stored insert is
followed by a sweep protecting the page just stored, and a new item or byte bound by a sweep
protecting nothing, each a chain of policy rounds: while a bound is exceeded and some unprotected
entry is left, the first quarter of the entries (rounded up, at least one) among the unprotected
ones, ranked by the policy in force, are evicted and counted, and nothing else is removed. Under
the adaptive strategy the policy is `lru` exactly when the hit rate exceeds 0.7, which it is
taken to do before any lookup. A lookup of a present page counts a hit and stamps only that
page's entry, with one more access and its own instant, which comes after every entry's last
access when the lookup comes after every call of the run; a lookup of an absent page counts a
miss and changes nothing else; a peek changes nothing. -/
theorem eviction_follows_policy (maxItems maxBytes : Nat) (ops : List Op) {c : PageCache}
    (h : (create maxItems maxBytes).run ops = .ok c) :
    (∀ page b now c', c.insert page b now = .ok (true, c') →
      Sweeps (some page) (c.stored page b now) c') ∧
    (∀ n, Sweeps none { c with maxItems := max n 1 } (c.setMaxItems n)) ∧
    (∀ n, Sweeps none { c with maxBytes := max n mebibyte } (c.setMaxBytes n)) ∧
    (c.strategy = .adaptive → (c.policy = .lru ↔ c.hitRate > 0.7)) ∧
    (c.hits + c.misses = 0 → c.hitRate = 1) ∧
    (∀ page now, c.contains page = true →
      ((∀ t ∈ ops.filterMap Op.instant?, t.before now = true) →
        ∀ e ∈ c.entries, e.lastAccessed.before now = true) ∧
      (c.get page now).2 = { c with entries := c.entries.map (touched page now), hits := c.hits + 1 }) ∧
    (∀ page now, c.contains page = false → (c.get page now).2 = { c with misses := c.misses + 1 }) ∧
    (∀ page, (Op.peek page).step c = .ok c) := by
  have ht := (bounded_run maxItems maxBytes ops h).tallied
  have hst := stamped_run maxItems maxBytes ops h
  refine ⟨fun page b now c' hi => ?_, fun n => ?_, fun n => ?_, fun hs => ?_, fun h0 => ?_,
    fun page now hc => ⟨fun hnow => hst.before hnow, get_eq_hit hc now⟩,
    fun page now hc => get_eq_miss hc now, fun _ => rfl⟩
  · rw [insert_eq_stored hi]
    exact sweep_sweeps (ht.store (d := c.stored page b now) rfl rfl) _
  · exact sweep_sweeps (c := { c with maxItems := max n 1 }) (ht.congr rfl rfl) none
  · exact sweep_sweeps (c := { c with maxBytes := max n mebibyte }) (ht.congr rfl rfl) none
  · simp only [policy, hs]
    split <;> simp_all
  · simp [hitRate, h0]

/-- A one-item cache holding page 0 stores page 1 and sweeps page 0 out by the policy. -/
theorem eviction_follows_policy_after_one_insert :
    ∃ c c', (create 1 mebibyte).run [.insert 0 (Raster.Bitmap.decodedOf 2 2) (Instant.tick 1)] = .ok c ∧
      c.insert 1 (Raster.Bitmap.decodedOf 2 2) (Instant.tick 2) = .ok (true, c') ∧
      Sweeps (some 1) (c.stored 1 (Raster.Bitmap.decodedOf 2 2) (Instant.tick 2)) c' :=
  ⟨_, _, rfl, rfl,
    (eviction_follows_policy 1 mebibyte [.insert 0 (Raster.Bitmap.decodedOf 2 2) (Instant.tick 1)] rfl).1
      1 _ _ _ rfl⟩

end PageCache
end Cache
end Thumbnailer
