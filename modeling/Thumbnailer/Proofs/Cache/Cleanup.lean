import Thumbnailer.Proofs.Cache.EvictionPolicy

/-!
# The page cache's cleanup is throttled and selective

A cleanup at `now` first looks at the last cleanup that ran. If less than thirty seconds have
passed since (`Instant.elapsedUnder`, the difference stopping at zero), it returns 0 and changes
nothing, not even the instant of the last cleanup (`cleanupAt_of_elapsedUnder`). Otherwise it
records `now` and drops the entries that are cold and idle: accessed fewer than twice, and last
accessed more than five minutes before `now`. It counts each as an eviction and returns how many
went. In a cache where no page is cached twice, which every run keeps (`Tallied`), it drops
exactly those entries and their bytes (`Tallied.cleanupAt_eq`).

The instant of the last cleanup only ever becomes the instant of a cleanup that ran
(`cleanupAt_lastCleanup`). Along cleanups at instants that never go back, it therefore never
moves before a cleanup that ran (`cleanupsAt_lastCleanup_not_before`), and two cleanups that run
are thirty seconds apart or more (`cleanupsAt_run_apart`).
-/

namespace Thumbnailer

namespace Instant

/-- Measured from an earlier instant, at least as much time has passed. -/
theorem elapsedUnder_eq_false_of_le {now a r : Instant} {limit : Nat} (har : r.before a = false)
    (h : now.elapsedUnder r limit = false) : now.elapsedUnder a limit = false := by
  simp only [before, Bool.or_eq_false_iff, Bool.and_eq_false_iff, decide_eq_false_iff_not] at har
  simp only [elapsedUnder, Bool.or_eq_false_iff, Bool.and_eq_false_iff,
    decide_eq_false_iff_not] at h ⊢
  omega

theorem before_self (a : Instant) : a.before a = false := by
  simp [before]

end Instant

namespace Cache
namespace PageCache

/-- The cache after cleanups at the given instants, one after another. -/
def cleanupsAt (c : PageCache) (ts : List Instant) : PageCache :=
  ts.foldl (fun c t => (c.cleanupAt t).2) c

/-- A run of cleanups splits at any call. -/
theorem cleanupsAt_append_cons (c : PageCache) (xs ys : List Instant) (a : Instant) :
    c.cleanupsAt (xs ++ a :: ys) = ((c.cleanupsAt xs).cleanupAt a).2.cleanupsAt ys := by
  simp [cleanupsAt, List.foldl_append]

/-- Evictions keep the instant of the last cleanup. -/
theorem evictPages_lastCleanup (c : PageCache) (pages : List Nat) :
    (c.evictPages pages).lastCleanup = c.lastCleanup := by
  induction pages generalizing c with
  | nil => rfl
  | cons p ps ih =>
    show (evictPages { (c.take p).2 with evictions := c.evictions + 1 } ps).lastCleanup =
      c.lastCleanup
    rw [ih, take_eq]

/-- A cleanup under thirty seconds after the last one that ran does nothing. -/
theorem cleanupAt_of_elapsedUnder {c : PageCache} {now : Instant}
    (h : now.elapsedUnder c.lastCleanup 30 = true) : c.cleanupAt now = (0, c) := by
  simp [cleanupAt, h]

/-- A cleanup that runs evicts the stale entries' pages after stamping the cache with `now`. -/
theorem cleanupAt_of_not_elapsedUnder {c : PageCache} {now : Instant}
    (h : now.elapsedUnder c.lastCleanup 30 = false) :
    c.cleanupAt now =
      let stale := c.entries.filter fun e => e.accessCount < 2 && now.elapsedOver e.lastAccessed 300
      (stale.length, { c with lastCleanup := now }.evictPages (stale.map Entry.page)) := by
  simp only [cleanupAt, h, Bool.false_eq_true, if_false, evictPages, List.foldl_map]

/-- The last cleanup that ran: `now` if this one runs, the old one otherwise. -/
theorem cleanupAt_lastCleanup (c : PageCache) (now : Instant) :
    (c.cleanupAt now).2.lastCleanup =
      if now.elapsedUnder c.lastCleanup 30 then c.lastCleanup else now := by
  cases h : now.elapsedUnder c.lastCleanup 30
  · rw [cleanupAt_of_not_elapsedUnder h]
    simp [evictPages_lastCleanup]
  · rw [cleanupAt_of_elapsedUnder h]
    rfl

/-- **A cleanup that runs drops exactly the stale entries**, when no page is cached twice. -/
theorem Tallied.cleanupAt_eq {c : PageCache} (ht : Tallied c) {now : Instant}
    (h : now.elapsedUnder c.lastCleanup 30 = false) :
    let stale := c.entries.filter fun e => e.accessCount < 2 && now.elapsedOver e.lastAccessed 300
    c.cleanupAt now = (stale.length, { c with
      lastCleanup := now,
      entries :=
        c.entries.filter fun e => !(e.accessCount < 2 && now.elapsedOver e.lastAccessed 300),
      bytesUsed := c.bytesUsed - (stale.map (·.bytes)).sum,
      evictions := c.evictions + stale.length }) := by
  intro stale
  have ht' : Tallied { c with lastCleanup := now } := ht.congr rfl rfl
  have hsub : stale.Sublist c.entries := List.filter_sublist
  rw [cleanupAt_of_not_elapsedUnder h]
  dsimp only
  rw [ht'.evictPages_eq (fun v hv => hsub.subset hv) (ht.nodup.sublist (hsub.map _))]
  -- an entry's page is a stale page exactly when the entry is stale, as no page is cached twice
  have hkeep : (c.entries.filter fun e => e.page ∉ stale.map (·.page)) =
      c.entries.filter fun e => !(e.accessCount < 2 && now.elapsedOver e.lastAccessed 300) := by
    refine List.filter_congr fun e he => ?_
    have hiff : e.page ∈ stale.map (·.page) ↔ e ∈ stale := by
      constructor
      · rintro hm
        obtain ⟨s, hs, hp⟩ := List.mem_map.1 hm
        rw [← List.inj_on_of_nodup_map ht.nodup (hsub.subset hs) he hp]
        exact hs
      · exact List.mem_map_of_mem
    simp only [hiff, stale, List.mem_filter, he, true_and]
    cases e.accessCount < 2 && now.elapsedOver e.lastAccessed 300 <;> rfl
  rw [hkeep]

/-- Cleanups at instants no earlier than `a` keep the last cleanup that ran no earlier than `a`. -/
theorem cleanupsAt_lastCleanup_not_before {a : Instant} (ts : List Instant)
    (hts : ∀ t ∈ ts, t.before a = false) :
    ∀ {c : PageCache}, c.lastCleanup.before a = false →
      (c.cleanupsAt ts).lastCleanup.before a = false := by
  induction ts with
  | nil => exact fun hc => hc
  | cons t ts ih =>
    intro c hc
    -- a cleanup keeps the last instant or records its own, and neither is before `a`
    refine ih (fun s hs => hts s (List.mem_cons_of_mem _ hs)) ?_
    rw [cleanupAt_lastCleanup]
    split
    · exact hc
    · exact hts t List.mem_cons_self

/-- **Cleanups that run are thirty seconds apart or more**, along any run of cleanups at
instants that do not go back. -/
theorem cleanupsAt_run_apart (c : PageCache) (xs ys : List Instant) (a b : Instant)
    (hmono : (xs ++ a :: ys ++ [b]).Pairwise fun s t => t.before s = false)
    (ha : a.elapsedUnder (c.cleanupsAt xs).lastCleanup 30 = false)
    (hb : b.elapsedUnder (c.cleanupsAt (xs ++ a :: ys)).lastCleanup 30 = false) :
    b.elapsedUnder a 30 = false := by
  have hlater : ∀ t ∈ ys, t.before a = false :=
    (List.pairwise_cons.1 (hmono.sublist
      ((List.sublist_append_right xs (a :: ys)).trans (List.sublist_append_left _ [b])))).1
  -- the cleanup at `a` runs and records `a`, and the later ones never record an earlier instant
  have hrec : ((c.cleanupsAt xs).cleanupAt a).2.lastCleanup = a := by
    rw [cleanupAt_lastCleanup, ha]
    rfl
  rw [cleanupsAt_append_cons] at hb
  refine Instant.elapsedUnder_eq_false_of_le ?_ hb
  refine cleanupsAt_lastCleanup_not_before ys hlater ?_
  rw [hrec]
  exact Instant.before_self a

/-- **The page cache's cleanup is throttled and selective.** In every cache a run from a new one
reaches: a cleanup under thirty seconds after the last one that ran (the difference stopping at
zero) returns 0 and changes nothing; any other records `now` as the last cleanup, drops exactly
the entries accessed fewer than twice and idle for more than five minutes, with their bytes,
counts each as an eviction and returns how many went. Along cleanups at instants that never go
back, two that run are thirty seconds apart or more. -/
theorem cleanup_is_throttled_and_selective (maxItems maxBytes : Nat) (ops : List Op) {c : PageCache}
    (h : (create maxItems maxBytes).run ops = .ok c) (now : Instant) :
    (now.elapsedUnder c.lastCleanup 30 = true → c.cleanupAt now = (0, c)) ∧
    (now.elapsedUnder c.lastCleanup 30 = false →
      let stale := c.entries.filter fun e => e.accessCount < 2 && now.elapsedOver e.lastAccessed 300
      c.cleanupAt now = (stale.length, { c with
        lastCleanup := now,
        entries :=
          c.entries.filter fun e => !(e.accessCount < 2 && now.elapsedOver e.lastAccessed 300),
        bytesUsed := c.bytesUsed - (stale.map (·.bytes)).sum,
        evictions := c.evictions + stale.length })) ∧
    (∀ (xs ys : List Instant) (a b : Instant),
      (xs ++ a :: ys ++ [b]).Pairwise (fun s t => t.before s = false) →
      a.elapsedUnder (c.cleanupsAt xs).lastCleanup 30 = false →
      b.elapsedUnder (c.cleanupsAt (xs ++ a :: ys)).lastCleanup 30 = false →
      b.elapsedUnder a 30 = false) :=
  ⟨cleanupAt_of_elapsedUnder, (bounded_run maxItems maxBytes ops h).tallied.cleanupAt_eq,
    cleanupsAt_run_apart c⟩

/-- Pages 0 and 1 stored, page 1 read once more: ten seconds after creation the cleanup does
nothing, and six minutes after it drops page 0 alone, as in the program's own test. -/
theorem cleanup_is_throttled_and_selective_of_cold_page :
    let ops : List Op :=
      [.insert 0 (Raster.Bitmap.decodedOf 2 2) (Instant.tick 1), .insert 1 (Raster.Bitmap.decodedOf 2 2) (Instant.tick 2),
        .get 1 (Instant.tick 3)]
    ∃ c, (create 10 mebibyte).run ops = .ok c ∧
      (Instant.atSecs 10).elapsedUnder c.lastCleanup 30 = true ∧
      c.cleanupAt (Instant.atSecs 10) = (0, c) ∧
      (Instant.atSecs 360).elapsedUnder c.lastCleanup 30 = false ∧
      (c.cleanupAt (Instant.atSecs 360)).1 = 1 := by
  intro ops
  exact ⟨_, rfl, by decide,
    (cleanup_is_throttled_and_selective 10 mebibyte ops rfl _).1 (by decide), by decide,
    by decide⟩

end PageCache
end Cache
end Thumbnailer
