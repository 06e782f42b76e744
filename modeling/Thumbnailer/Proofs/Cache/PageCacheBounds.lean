import Thumbnailer.Cache.PageCache
import Mathlib

/-!
# The page cache keeps its bounds

A page cache counts the bytes of its bitmaps in `bytesUsed` and is to hold no more than
`maxItems` entries and `maxBytes` bytes. Every run from a new cache keeps it so.

`Tallied` is the bookkeeping: no page is cached twice, each entry's size is its bitmap's, and the
counter is the sum of the sizes. Taking a page out keeps it (`Tallied.take`), because the entry
found is the only one of its page, so the subtraction removes exactly what the entries lose; a
batch of evictions keeps it too (`Tallied.evictPages`).

A sweep evicts in rounds, and each round takes at least one entry other than the protected page
(`evictRound_eq_some`). The unprotected entries therefore bound the rounds, and the sweep stops
only when both bounds hold or nothing unprotected is left (`sweep_exits`). In the second case at
most the protected page is left (`length_le_one_of_protected`), and an insert has checked its
size against the byte bound, so after a sweep the cache is within both bounds
(`sweep_bounded`). One lemma per call gives `Bounded.step`, and every run from a new cache stays
`Bounded` (`bounded_run`). An insert that stores a page leaves it cached with its bitmap and one
access, since a sweep never evicts the page it protects (`insert_caches_page`).
-/

namespace Thumbnailer
namespace Cache
namespace PageCache

/-! ### Runs -/

/-- A call on the page cache. -/
inductive Op where
  | insert (page : Nat) (bitmap : Raster.Bitmap) (now : Instant)
  | get (page : Nat) (now : Instant)
  | peek (page : Nat)
  | remove (page : Nat)
  | clear
  | setMaxItems (n : Nat)
  | setMaxBytes (n : Nat)
  | setStrategy (s : Strategy)
  | cleanupAt (now : Instant)

/-- Performs a call; only an insert can overflow. -/
def Op.step : Op → PageCache → Except Overflow PageCache
  | .insert page b now, c => Prod.snd <$> c.insert page b now
  | .get page now, c => .ok (c.get page now).2
  | .peek _, c => .ok c
  | .remove page, c => .ok (c.remove page).2
  | .clear, c => .ok c.clear
  | .setMaxItems n, c => .ok (c.setMaxItems n)
  | .setMaxBytes n, c => .ok (c.setMaxBytes n)
  | .setStrategy s, c => .ok (c.setStrategy s)
  | .cleanupAt now, c => .ok (c.cleanupAt now).2

/-- The state after a sequence of calls; the first overflow stops the run. -/
def run (c : PageCache) : List Op → Except Overflow PageCache
  | [] => .ok c
  | op :: ops =>
    match op.step c with
    | .error e => .error e
    | .ok c => run c ops

/-- **What every call keeps holds after every run.** -/
theorem run_induction {P : PageCache → Prop}
    (hstep : ∀ (c c' : PageCache) (op : Op), P c → op.step c = .ok c' → P c') (ops : List Op) :
    ∀ {c c' : PageCache}, P c → c.run ops = .ok c' → P c' := by
  induction ops with
  | nil =>
    intro c c' hc h
    simp only [run, Except.ok.injEq] at h
    exact h ▸ hc
  | cons op ops ih =>
    intro c c' hc h
    unfold run at h
    split at h
    · cases h
    · rename_i d hd
      exact ih (hstep c d op hc hd) h

/-! ### The byte counter -/

/-- The bookkeeping of a page cache: no page twice, each entry's size is its bitmap's, and the
counter adds the sizes up. -/
structure Tallied (c : PageCache) : Prop where
  nodup : (c.entries.map (·.page)).Nodup
  sized : ∀ e ∈ c.entries, e.bytes = e.bitmap.byteSize
  counted : c.bytesUsed = (c.entries.map (·.bytes)).sum

/-- The bookkeeping reads only the entries and the counter. -/
theorem Tallied.congr {c c' : PageCache} (h : Tallied c) (he : c'.entries = c.entries)
    (hb : c'.bytesUsed = c.bytesUsed) : Tallied c' :=
  ⟨he ▸ h.nodup, he ▸ h.sized, by rw [he, hb, h.counted]⟩

/-- In a list with no page twice, dropping a page's entries drops the size of the entry that
`find?` returns for it, and nothing more. -/
theorem sum_bytes_filter {l : List Entry} (hnd : (l.map (·.page)).Nodup) (page : Nat) :
    (l.map (·.bytes)).sum =
      ((l.filter (·.page ≠ page)).map (·.bytes)).sum + ((l.find? (·.page = page)).map (·.bytes)).getD 0 := by
  induction l with
  | nil => rfl
  | cons x l ih =>
    rw [List.map_cons, List.nodup_cons] at hnd
    by_cases hx : x.page = page
    · -- `x` is the page's only entry, so the rest loses nothing
      have hrest : l.filter (·.page ≠ page) = l := List.filter_eq_self.2 fun y hy => by
        have hy' : y.page ≠ x.page := fun h => hnd.1 (h ▸ List.mem_map_of_mem hy)
        simpa [hx] using hy'
      rw [List.filter_cons_of_neg (by simp [hx]), hrest, List.find?_cons_of_pos (by simp [hx])]
      simp only [List.map_cons, List.sum_cons, Option.map_some, Option.getD_some]
      omega
    · rw [List.filter_cons_of_pos (by simp [hx]), List.find?_cons_of_neg (by simp [hx])]
      simp only [List.map_cons, List.sum_cons, ih hnd.2]
      omega

/-- Taking a page out keeps the other entries, in order. -/
theorem take_entries (c : PageCache) (page : Nat) :
    (c.take page).2.entries = c.entries.filter (·.page ≠ page) := by
  unfold take
  split
  · rename_i h
    exact (List.filter_eq_self.2 fun e he => by simpa using List.find?_eq_none.1 h e he).symm
  · rfl

theorem take_maxItems (c : PageCache) (page : Nat) : (c.take page).2.maxItems = c.maxItems := by
  unfold take
  split <;> rfl

theorem take_maxBytes (c : PageCache) (page : Nat) : (c.take page).2.maxBytes = c.maxBytes := by
  unfold take
  split <;> rfl

/-- **Taking a page out keeps the bookkeeping**: the counter loses the size of the one entry the
page had, which is part of the sum, so the subtraction never stops at zero. -/
theorem Tallied.take {c : PageCache} (h : Tallied c) (page : Nat) : Tallied (c.take page).2 := by
  have hsum := sum_bytes_filter h.nodup page
  refine ⟨?_, fun e he => ?_, ?_⟩
  · rw [take_entries]
    exact h.nodup.sublist (List.filter_sublist.map _)
  · rw [take_entries] at he
    exact h.sized e (List.mem_filter.1 he).1
  · rw [take_entries]
    unfold PageCache.take
    split
    · rename_i hf
      rw [hf] at hsum
      simpa [h.counted] using hsum
    · rename_i e hf
      rw [hf] at hsum
      simp only [Option.map_some, Option.getD_some] at hsum
      have hc := h.counted
      show c.bytesUsed - e.bytes = _
      omega

/-! ### Evictions -/

/-- Evicts the given pages one after another, counting each as an eviction. -/
def evictPages (c : PageCache) (pages : List Nat) : PageCache :=
  pages.foldl (fun c page => { (c.take page).2 with evictions := c.evictions + 1 }) c

theorem evictPages_entries (c : PageCache) (pages : List Nat) :
    (c.evictPages pages).entries = c.entries.filter (·.page ∉ pages) := by
  induction pages generalizing c with
  | nil => simp [evictPages]
  | cons p ps ih =>
    show (evictPages { (c.take p).2 with evictions := c.evictions + 1 } ps).entries = _
    rw [ih]
    show ((c.take p).2.entries).filter _ = _
    rw [take_entries, List.filter_filter]
    exact List.filter_congr fun e _ => by simp [Bool.and_comm]

theorem evictPages_maxItems (c : PageCache) (pages : List Nat) :
    (c.evictPages pages).maxItems = c.maxItems := by
  induction pages generalizing c with
  | nil => rfl
  | cons p ps ih => exact (ih _).trans (take_maxItems c p)

theorem evictPages_maxBytes (c : PageCache) (pages : List Nat) :
    (c.evictPages pages).maxBytes = c.maxBytes := by
  induction pages generalizing c with
  | nil => rfl
  | cons p ps ih => exact (ih _).trans (take_maxBytes c p)

theorem Tallied.evictPages {c : PageCache} (h : Tallied c) (pages : List Nat) :
    Tallied (c.evictPages pages) := by
  induction pages generalizing c with
  | nil => exact h
  | cons p ps ih =>
    -- an eviction also counts itself, which `Tallied` does not read
    exact ih ((h.take p).congr rfl rfl)

/-! ### Sweeps -/

/-- The entries a sweep may evict. -/
def unprotected (c : PageCache) (protect : Option Nat) : List Entry :=
  c.entries.filter fun e => some e.page ≠ protect

theorem protected_of_unprotected_eq_nil {c : PageCache} {protect : Option Nat}
    (h : c.unprotected protect = []) : ∀ e ∈ c.entries, some e.page = protect := by
  intro e he
  by_contra hne
  have : e ∈ c.unprotected protect := List.mem_filter.2 ⟨he, by simpa using hne⟩
  simp [h] at this

/-- **One round of a sweep** evicts a batch of unprotected pages, at least one of them cached. -/
theorem evictRound_eq_some {c c' : PageCache} {protect : Option Nat}
    (h : c.evictRound protect = some c') :
    ∃ victims : List Nat, (∀ v ∈ victims, some v ≠ protect) ∧
      (∃ e ∈ c.unprotected protect, e.page ∈ victims) ∧ c' = c.evictPages victims := by
  unfold evictRound at h
  dsimp only at h
  split at h
  · cases h
  · rename_i hne
    cases h
    refine ⟨_, fun v hv => ?_, ?_, rfl⟩
    · obtain ⟨x, hx, rfl⟩ := List.mem_map.1 hv
      have hx' := List.mem_mergeSort.1 (List.mem_of_mem_take hx)
      have hprot := (List.mem_filter.1 hx').2
      simpa using hprot
    · -- the first ranked candidate is in the batch
      generalize hr : (List.filter (fun e => some e.page ≠ protect) c.entries).mergeSort _ = ranked
      rcases ranked with _ | ⟨x, rest⟩
      · have := congrArg List.length hr
        rw [List.length_mergeSort] at this
        simp only [List.isEmpty_iff] at hne
        exact absurd (List.eq_nil_of_length_eq_zero this) hne
      · refine ⟨x, ?_, ?_⟩
        · exact List.mem_mergeSort.1 (hr ▸ List.mem_cons_self)
        · have hb : 0 < max ((c.entries.length + 3) / 4) 1 := by omega
          obtain ⟨k, hk⟩ : ∃ k, max ((c.entries.length + 3) / 4) 1 = k + 1 :=
            ⟨_, (Nat.succ_pred_eq_of_pos hb).symm⟩
          simp [hk]

theorem evictRound_eq_none {c : PageCache} {protect : Option Nat} (h : c.evictRound protect = none) :
    c.unprotected protect = [] := by
  unfold evictRound at h
  dsimp only at h
  split at h
  · rename_i hempty
    exact List.isEmpty_iff.1 hempty
  · cases h

/-- Each round leaves fewer unprotected entries. -/
theorem evictRound_unprotected_lt {c c' : PageCache} {protect : Option Nat}
    (h : c.evictRound protect = some c') :
    (c'.unprotected protect).length < (c.unprotected protect).length := by
  obtain ⟨victims, -, ⟨e, he, hv⟩, rfl⟩ := evictRound_eq_some h
  have heq : (c.evictPages victims).unprotected protect =
      (c.unprotected protect).filter (·.page ∉ victims) := by
    simp only [unprotected, evictPages_entries, List.filter_filter]
    exact List.filter_congr fun x _ => by simp [Bool.and_comm]
  rw [heq, List.length_filter_lt_length_iff_exists]
  exact ⟨e, he, by simpa using hv⟩

/-- **What every round keeps, a sweep keeps.** -/
theorem sweep_induction {P : PageCache → Prop} {protect : Option Nat}
    (hround : ∀ d d', d.evictRound protect = some d' → P d → P d') {c : PageCache} (hc : P c) :
    P (c.sweep protect) := by
  unfold sweep
  generalize c.entries.length = fuel
  induction fuel generalizing c with
  | zero => exact hc
  | succ fuel ih =>
    simp only [sweep.go]
    split
    · exact hc
    · split
      · exact hc
      · rename_i d hd
        exact ih (hround c d hd hc)

/-- **A sweep stops by its own test.** It ends with both bounds holding, or with nothing left
but the protected page: the round bound never cuts it short, since every round evicts an
unprotected entry and there are at most as many as entries. -/
theorem sweep_exits (c : PageCache) (protect : Option Nat) :
    (c.sweep protect).overLimit = false ∨ ∀ e ∈ (c.sweep protect).entries, some e.page = protect := by
  -- the rounds left always cover the unprotected entries
  suffices H : ∀ fuel (d : PageCache), (d.unprotected protect).length ≤ fuel →
      (sweep.go protect fuel d).overLimit = false ∨
        ∀ e ∈ (sweep.go protect fuel d).entries, some e.page = protect from
    H _ c (List.length_filter_le _ _)
  intro fuel
  induction fuel with
  | zero =>
    intro d hd
    exact .inr (protected_of_unprotected_eq_nil (List.eq_nil_of_length_eq_zero (Nat.le_zero.1 hd)))
  | succ fuel ih =>
    intro d hd
    simp only [sweep.go]
    split
    · rename_i hover
      exact .inl (by simpa using hover)
    · split
      · rename_i hnone
        exact .inr (protected_of_unprotected_eq_nil (evictRound_eq_none hnone))
      · rename_i d' hsome
        exact ih d' (by have := evictRound_unprotected_lt hsome; omega)

theorem sweep_entries_sublist (c : PageCache) (protect : Option Nat) :
    (c.sweep protect).entries.Sublist c.entries :=
  sweep_induction (P := fun d => d.entries.Sublist c.entries)
    (fun d d' h hd => by
      obtain ⟨victims, -, -, rfl⟩ := evictRound_eq_some h
      rw [evictPages_entries]
      exact List.filter_sublist.trans hd)
    (List.Sublist.refl _)

/-- A sweep never evicts the page it protects. -/
theorem sweep_keeps_protected {c : PageCache} {protect : Option Nat} {e : Entry} (he : e ∈ c.entries)
    (hp : some e.page = protect) : e ∈ (c.sweep protect).entries :=
  sweep_induction (P := fun d => e ∈ d.entries)
    (fun d d' h hd => by
      obtain ⟨victims, hv, -, rfl⟩ := evictRound_eq_some h
      rw [evictPages_entries]
      exact List.mem_filter.2 ⟨hd, by simpa using fun hmem => hv _ hmem hp⟩)
    he

theorem Tallied.sweep {c : PageCache} (h : Tallied c) (protect : Option Nat) :
    Tallied (c.sweep protect) :=
  sweep_induction (fun d d' hr hd => by
      obtain ⟨victims, -, -, rfl⟩ := evictRound_eq_some hr
      exact hd.evictPages victims)
    h

theorem sweep_maxItems (c : PageCache) (protect : Option Nat) : (c.sweep protect).maxItems = c.maxItems :=
  sweep_induction (P := fun d => d.maxItems = c.maxItems)
    (fun d d' h hd => by
      obtain ⟨victims, -, -, rfl⟩ := evictRound_eq_some h
      rw [evictPages_maxItems, hd])
    rfl

theorem sweep_maxBytes (c : PageCache) (protect : Option Nat) : (c.sweep protect).maxBytes = c.maxBytes :=
  sweep_induction (P := fun d => d.maxBytes = c.maxBytes)
    (fun d d' h hd => by
      obtain ⟨victims, -, -, rfl⟩ := evictRound_eq_some h
      rw [evictPages_maxBytes, hd])
    rfl

/-- With no page twice, the entries of the protected page are at most one. -/
theorem length_le_one_of_protected {l : List Entry} {protect : Option Nat}
    (hnd : (l.map (·.page)).Nodup) (h : ∀ e ∈ l, some e.page = protect) : l.length ≤ 1 := by
  match l, hnd, h with
  | [], _, _ => simp
  | [_], _, _ => simp
  | x :: y :: rest, hnd, h =>
    have hxy : x.page = y.page :=
      Option.some.inj ((h x List.mem_cons_self).trans (h y (by simp)).symm)
    simp [hxy] at hnd

/-! ### Both bounds -/

/-- A page cache within both of its bounds, with its bookkeeping right. -/
structure Bounded (c : PageCache) : Prop where
  tallied : Tallied c
  items_pos : 0 < c.maxItems
  items_le : c.entries.length ≤ c.maxItems
  bytes_le : c.bytesUsed ≤ c.maxBytes

/-- Both bounds read only the entries, the counter and the bounds. -/
theorem Bounded.congr {c c' : PageCache} (h : Bounded c) (he : c'.entries = c.entries)
    (hb : c'.bytesUsed = c.bytesUsed) (hitems : c'.maxItems = c.maxItems)
    (hbytes : c'.maxBytes = c.maxBytes) : Bounded c' :=
  ⟨h.tallied.congr he hb, hitems ▸ h.items_pos, by rw [he, hitems]; exact h.items_le,
    by rw [hb, hbytes]; exact h.bytes_le⟩

/-- **After a sweep both bounds hold**, provided the protected page alone fits the byte bound. -/
theorem sweep_bounded {c : PageCache} {protect : Option Nat} (h : Tallied c) (hpos : 0 < c.maxItems)
    (hfit : ∀ e ∈ c.entries, some e.page = protect → e.bytes ≤ c.maxBytes) :
    Bounded (c.sweep protect) := by
  have ht := h.sweep protect
  rw [← sweep_maxItems c protect] at hpos
  suffices hboth : (c.sweep protect).entries.length ≤ (c.sweep protect).maxItems ∧
      (c.sweep protect).bytesUsed ≤ (c.sweep protect).maxBytes from ⟨ht, hpos, hboth.1, hboth.2⟩
  rcases sweep_exits c protect with hover | hall
  · simp only [overLimit, Bool.or_eq_false_iff, decide_eq_false_iff_not, Nat.not_lt] at hover
    exact hover
  · -- only the protected page is left, and it fits
    have hlen := length_le_one_of_protected ht.nodup hall
    have hsub := sweep_entries_sublist c protect
    have hfit' : ∀ x ∈ (c.sweep protect).entries.map (·.bytes), x ≤ (c.sweep protect).maxBytes := by
      intro x hx
      obtain ⟨e, he, rfl⟩ := List.mem_map.1 hx
      rw [sweep_maxBytes]
      exact hfit e (hsub.subset he) (hall e he)
    refine ⟨Nat.le_trans hlen hpos, ?_⟩
    rw [ht.counted]
    calc ((c.sweep protect).entries.map (·.bytes)).sum
        ≤ ((c.sweep protect).entries.map (·.bytes)).length • (c.sweep protect).maxBytes :=
          List.sum_le_card_nsmul _ _ hfit'
      _ ≤ 1 * (c.sweep protect).maxBytes := by
          rw [List.length_map]
          exact Nat.mul_le_mul_right _ hlen
      _ = (c.sweep protect).maxBytes := Nat.one_mul _

/-- Dropping entries keeps both bounds. -/
theorem Bounded.shrink {c c' : PageCache} (h : Bounded c) (ht : Tallied c')
    (hsub : c'.entries.Sublist c.entries) (hitems : c'.maxItems = c.maxItems)
    (hbytes : c'.maxBytes = c.maxBytes) : Bounded c' := by
  refine ⟨ht, hitems ▸ h.items_pos, hitems ▸ Nat.le_trans hsub.length_le h.items_le, ?_⟩
  rw [ht.counted, hbytes]
  calc ((c'.entries.map (·.bytes)).sum)
      ≤ (c.entries.map (·.bytes)).sum := (hsub.map _).sum_le_sum fun _ _ => Nat.zero_le _
    _ = c.bytesUsed := h.tallied.counted.symm
    _ ≤ c.maxBytes := h.bytes_le

theorem bounded_create (maxItems maxBytes : Nat) : Bounded (create maxItems maxBytes) :=
  ⟨⟨List.nodup_nil, fun _ h => absurd h List.not_mem_nil, rfl⟩, by simp [create], Nat.zero_le _,
    Nat.zero_le _⟩

/-! ### Each call -/

/-- **What an insert does.** A bitmap over the byte bound is refused and counted. Otherwise the
page's old entry goes, the new one is appended with one access, the counter grows by its size,
and a sweep protecting the page follows. -/
theorem insert_eq_ok {c c' : PageCache} {page : Nat} {b : Raster.Bitmap} {now : Instant} {stored : Bool}
    (h : c.insert page b now = .ok (stored, c')) :
    (c.maxBytes < b.byteSize ∧ stored = false ∧ c' = { c with rejected := c.rejected + 1 }) ∨
      (b.byteSize ≤ c.maxBytes ∧ stored = true ∧ ∃ d : PageCache,
        c' = d.sweep (some page) ∧ d.entries = (c.take page).2.entries ++ [⟨page, b, b.byteSize, now, 1⟩] ∧
        d.bytesUsed = (c.take page).2.bytesUsed + b.byteSize ∧
        d.maxItems = c.maxItems ∧ d.maxBytes = c.maxBytes) := by
  unfold insert at h
  dsimp only at h
  split at h
  · rename_i hbig
    cases h
    exact .inl ⟨hbig, rfl, rfl⟩
  · rename_i hfit
    rcases hadd : checkedAdd (c.take page).2.bytesUsed b.byteSize with _ | used
    · simp [hadd, bind, Except.bind] at h
    · simp only [hadd, bind, Except.bind, pure, Except.pure, Except.ok.injEq, Prod.mk.injEq] at h
      obtain ⟨rfl, rfl⟩ := h
      have hused := eq_add_of_checkedAdd_eq_ok hadd
      exact .inr ⟨Nat.not_lt.1 hfit, rfl, _, rfl, rfl, hused, take_maxItems c page,
        take_maxBytes c page⟩

/-- Once a page is taken out, no entry is left for it. -/
theorem take_gone (c : PageCache) (page : Nat) : ∀ x ∈ (c.take page).2.entries, x.page ≠ page := by
  intro x hx
  rw [take_entries] at hx
  simpa using (List.mem_filter.1 hx).2

/-- **Storing a page keeps the bookkeeping**: its old entry is taken out first, so the new one
is its only entry, and the counter grows by the new size. -/
theorem Tallied.store {c d : PageCache} (h : Tallied c) {page : Nat} {b : Raster.Bitmap}
    {t : Instant} {n : Nat} (hd : d.entries = (c.take page).2.entries ++ [⟨page, b, b.byteSize, t, n⟩])
    (hused : d.bytesUsed = (c.take page).2.bytesUsed + b.byteSize) : Tallied d := by
  have ht := h.take page
  refine ⟨?_, fun e he => ?_, ?_⟩
  · rw [hd, List.map_append, List.nodup_append]
    refine ⟨ht.nodup, by simp, ?_⟩
    intro x hx y hy
    obtain ⟨x', hx', rfl⟩ := List.mem_map.1 hx
    rw [List.mem_singleton.1 hy]
    exact take_gone c page x' hx'
  · rw [hd] at he
    rcases List.mem_append.1 he with he | he
    · exact ht.sized e he
    · rw [List.mem_singleton.1 he]
  · rw [hused, hd, List.map_append, List.sum_append, ← ht.counted]
    rfl

theorem Bounded.insert {c c' : PageCache} {page : Nat} {b : Raster.Bitmap} {now : Instant} {stored : Bool}
    (h : Bounded c) (hi : c.insert page b now = .ok (stored, c')) : Bounded c' := by
  rcases insert_eq_ok hi with ⟨-, -, rfl⟩ | ⟨hfit, -, d, rfl, hd, hused, hitems, hbytes⟩
  · exact h.congr rfl rfl rfl rfl
  · -- the page's old entry is gone, so the new one is its only entry
    have hgone := take_gone c page
    refine sweep_bounded (h.tallied.store hd hused) (hitems ▸ h.items_pos) fun e he hp => ?_
    rw [hd] at he
    rcases List.mem_append.1 he with he | he
    · exact absurd (Option.some.inj hp) (hgone e he)
    · rw [List.mem_singleton.1 he, hbytes]
      exact hfit

/-- A lookup rewrites at most the access data of the entry it finds. -/
theorem get_eq (c : PageCache) (page : Nat) (now : Instant) :
    ∃ f : Entry → Entry, (∀ e, (f e).page = e.page ∧ (f e).bytes = e.bytes ∧ (f e).bitmap = e.bitmap) ∧
      (c.get page now).2.entries = c.entries.map f ∧ (c.get page now).2.bytesUsed = c.bytesUsed ∧
      (c.get page now).2.maxItems = c.maxItems ∧ (c.get page now).2.maxBytes = c.maxBytes := by
  unfold get
  split
  · exact ⟨id, fun _ => ⟨rfl, rfl, rfl⟩, (List.map_id _).symm, rfl, rfl, rfl⟩
  · refine ⟨_, fun e => ?_, rfl, rfl, rfl, rfl⟩
    split <;> exact ⟨rfl, rfl, rfl⟩

/-- Rewriting entries without touching their pages, sizes or bitmaps keeps the bookkeeping. -/
theorem Tallied.map {c c' : PageCache} (h : Tallied c) {f : Entry → Entry}
    (hf : ∀ e, (f e).page = e.page ∧ (f e).bytes = e.bytes ∧ (f e).bitmap = e.bitmap)
    (he : c'.entries = c.entries.map f) (hb : c'.bytesUsed = c.bytesUsed) : Tallied c' := by
  have hpage : c'.entries.map (·.page) = c.entries.map (·.page) := by
    rw [he, List.map_map]
    exact List.map_congr_left fun e _ => (hf e).1
  have hbytes : c'.entries.map (·.bytes) = c.entries.map (·.bytes) := by
    rw [he, List.map_map]
    exact List.map_congr_left fun e _ => (hf e).2.1
  refine ⟨hpage ▸ h.nodup, fun e' he' => ?_, by rw [hb, hbytes, h.counted]⟩
  rw [he] at he'
  obtain ⟨e, he, rfl⟩ := List.mem_map.1 he'
  rw [(hf e).2.1, (hf e).2.2]
  exact h.sized e he

theorem Bounded.get {c : PageCache} (h : Bounded c) (page : Nat) (now : Instant) :
    Bounded (c.get page now).2 := by
  obtain ⟨f, hf, he, hb, hitems, hbytes⟩ := get_eq c page now
  refine ⟨h.tallied.map hf he hb, hitems ▸ h.items_pos, ?_, ?_⟩
  · rw [he, List.length_map, hitems]
    exact h.items_le
  · rw [hb, hbytes]
    exact h.bytes_le

theorem Bounded.remove {c : PageCache} (h : Bounded c) (page : Nat) : Bounded (c.remove page).2 :=
  h.shrink (h.tallied.take page) (by rw [PageCache.remove, take_entries]; exact List.filter_sublist)
    (take_maxItems c page) (take_maxBytes c page)

/-- A cleanup that runs evicts a batch of pages. -/
theorem cleanupAt_eq (c : PageCache) (now : Instant) :
    (c.cleanupAt now).2 = c ∨ ∃ pages, (c.cleanupAt now).2 = { c with lastCleanup := now }.evictPages pages := by
  unfold cleanupAt
  split
  · exact .inl rfl
  · refine .inr ⟨(c.entries.filter fun e => e.accessCount < 2 &&
      Instant.elapsedOver now e.lastAccessed 300).map (·.page), ?_⟩
    rw [evictPages, List.foldl_map]

theorem Bounded.cleanupAt {c : PageCache} (h : Bounded c) (now : Instant) : Bounded (c.cleanupAt now).2 := by
  rcases cleanupAt_eq c now with heq | ⟨pages, heq⟩
  · rw [heq]
    exact h
  · rw [heq]
    have h' : Bounded { c with lastCleanup := now } := h.congr rfl rfl rfl rfl
    exact h'.shrink (h'.tallied.evictPages pages) (by rw [evictPages_entries]; exact List.filter_sublist)
      (evictPages_maxItems _ _) (evictPages_maxBytes _ _)

/-- A new bound sweeps with nothing protected, which empties the cache if it must. -/
theorem Bounded.sweep_none {c : PageCache} (h : Tallied c) (hpos : 0 < c.maxItems) :
    Bounded (c.sweep none) :=
  sweep_bounded h hpos fun _ _ hp => absurd hp (Option.some_ne_none _)

/-- **Every call keeps the cache bounded.** -/
theorem Bounded.step {c c' : PageCache} (h : Bounded c) (op : Op) (hs : op.step c = .ok c') :
    Bounded c' := by
  cases op with
  | insert page b now =>
    simp only [Op.step] at hs
    rcases hi : c.insert page b now with e | ⟨stored, d⟩
    · simp [hi, Functor.map, Except.map] at hs
    · simp only [hi, Functor.map, Except.map, Except.ok.injEq] at hs
      exact hs ▸ h.insert hi
  | get page now => cases hs; exact h.get page now
  | peek page => cases hs; exact h
  | remove page => cases hs; exact h.remove page
  | clear =>
    cases hs
    exact ⟨⟨List.nodup_nil, fun _ h => absurd h List.not_mem_nil, rfl⟩, h.items_pos, Nat.zero_le _,
      Nat.zero_le _⟩
  | setMaxItems n =>
    cases hs
    exact Bounded.sweep_none (h.tallied.congr rfl rfl) (by simp)
  | setMaxBytes n =>
    cases hs
    exact Bounded.sweep_none (h.tallied.congr rfl rfl) h.items_pos
  | setStrategy s =>
    cases hs
    exact h.congr rfl rfl rfl rfl
  | cleanupAt now => cases hs; exact h.cleanupAt now

theorem bounded_run (maxItems maxBytes : Nat) (ops : List Op) {c : PageCache}
    (h : (create maxItems maxBytes).run ops = .ok c) : Bounded c :=
  run_induction (fun _ _ op hc hs => hc.step op hs) ops (bounded_create maxItems maxBytes) h

/-! ### A stored page stays -/

/-- The only entry of a page is the one `find?` returns for it. -/
theorem find?_of_only {l : List Entry} {e : Entry} {page : Nat} (he : e ∈ l) (hp : e.page = page)
    (honly : ∀ x ∈ l, x.page = page → x = e) : l.find? (·.page = page) = some e := by
  induction l with
  | nil => cases he
  | cons x l ih =>
    by_cases hx : x.page = page
    · rw [List.find?_cons_of_pos (by simpa using hx), honly x List.mem_cons_self hx]
    · rw [List.find?_cons_of_neg (by simpa using hx)]
      refine ih ((List.mem_cons.1 he).resolve_left ?_) fun y hy => honly y (List.mem_cons_of_mem _ hy)
      rintro rfl
      exact hx hp

/-- **An insert that stores a page leaves it cached** with the bitmap stored and one access: the
sweep after it protects the page. -/
theorem insert_caches_page {c c' : PageCache} {page : Nat} {b : Raster.Bitmap} {now : Instant}
    (h : c.insert page b now = .ok (true, c')) : c'.peek page = some b ∧ c'.accessCount page = some 1 := by
  rcases insert_eq_ok h with ⟨-, hf, -⟩ | ⟨-, -, d, rfl, hd, -⟩
  · cases hf
  · have hin : (⟨page, b, b.byteSize, now, 1⟩ : Entry) ∈ d.entries := by
      rw [hd]
      exact List.mem_append_right _ List.mem_cons_self
    -- before the sweep the new entry is the page's only one, and the sweep keeps it
    have honly : ∀ x ∈ (d.sweep (some page)).entries, x.page = page → x = ⟨page, b, b.byteSize, now, 1⟩ := by
      intro x hx hp
      have hx' := (sweep_entries_sublist d _).subset hx
      rw [hd, take_entries] at hx'
      rcases List.mem_append.1 hx' with hx' | hx'
      · exact absurd hp (by simpa using (List.mem_filter.1 hx').2)
      · exact List.mem_singleton.1 hx'
    have hfind := find?_of_only (sweep_keeps_protected hin rfl) rfl honly
    simp [peek, accessCount, hfind]

/-! ### The invariant -/

/-- **The page cache's invariant.** After every run from a new cache: the byte counter is the sum
of the sizes of the cached bitmaps, and each entry's size is within it, so no removal's
subtraction stops at zero; the cache is within its item and byte bounds. Every sweep ends by its
own test, with both bounds holding or only the protected page left, and an insert that stores a
page leaves it cached with its bitmap and one access. -/
theorem byte_count_exact_within_bounds (maxItems maxBytes : Nat) (ops : List Op) {c : PageCache}
    (h : (create maxItems maxBytes).run ops = .ok c) :
    c.bytesUsed = (c.entries.map (·.bitmap.byteSize)).sum ∧ (∀ e ∈ c.entries, e.bytes ≤ c.bytesUsed) ∧
      c.entries.length ≤ c.maxItems ∧ c.bytesUsed ≤ c.maxBytes ∧
      (∀ (d : PageCache) (protect : Option Nat), (d.sweep protect).overLimit = false ∨
        ∀ e ∈ (d.sweep protect).entries, some e.page = protect) ∧
      (∀ page b now c', c.insert page b now = .ok (true, c') →
        c'.peek page = some b ∧ c'.accessCount page = some 1) := by
  have hb := bounded_run maxItems maxBytes ops h
  refine ⟨?_, fun e he => ?_, hb.items_le, hb.bytes_le, sweep_exits, fun _ _ _ _ hi => insert_caches_page hi⟩
  · rw [hb.tallied.counted]
    exact congrArg List.sum (List.map_congr_left fun e he => hb.tallied.sized e he)
  · rw [hb.tallied.counted]
    exact List.le_sum_of_mem (List.mem_map_of_mem he)

/-- A cache of one item that stores two pages, so that the second insert's sweep evicts the first. -/
theorem byte_count_exact_within_bounds_of_two_inserts :
    let ops : List Op :=
      [.insert 0 (Raster.Bitmap.decodedOf 2 2) (Instant.tick 1), .insert 1 (Raster.Bitmap.decodedOf 2 2) (Instant.tick 2)]
    ∃ c, (create 1 mebibyte).run ops = .ok c ∧
      c.bytesUsed = (c.entries.map (·.bitmap.byteSize)).sum ∧ (∀ e ∈ c.entries, e.bytes ≤ c.bytesUsed) ∧
      c.entries.length ≤ c.maxItems ∧ c.bytesUsed ≤ c.maxBytes := by
  intro ops
  obtain ⟨c, hc⟩ : ∃ c, (create 1 mebibyte).run ops = .ok c := ⟨_, rfl⟩
  obtain ⟨h₁, h₂, h₃, h₄, -⟩ := byte_count_exact_within_bounds 1 mebibyte ops hc
  exact ⟨c, hc, h₁, h₂, h₃, h₄⟩

end PageCache
end Cache
end Thumbnailer
