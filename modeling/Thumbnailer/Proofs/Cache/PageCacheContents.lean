import Thumbnailer.Cache.PageCache

/-!
# What a page cache holds

`PageCache.pictures` lists the pages and bitmaps a page cache holds. Storing is the only
operation that brings a picture in (`insert_pictures`); every other one keeps some of the
pictures it had (`Keeps`): a lookup refreshes an entry's access data, and a removal, a
cleanup, a sweep or a new bound drops entries. A lookup or a peek that answers a bitmap
answers one the cache holds for that page (`get_mem_pictures`, `peek_mem_pictures`).
-/

namespace Thumbnailer
namespace Cache
namespace PageCache

/-- The pages and bitmaps the cache holds. -/
def pictures (c : PageCache) : List (Nat × Raster.Bitmap) := c.entries.map fun e => (e.page, e.bitmap)

/-- `c'` holds no picture that `c` did not hold. -/
def Keeps (c c' : PageCache) : Prop := c'.pictures ⊆ c.pictures

theorem Keeps.refl (c : PageCache) : Keeps c c := List.Subset.refl _

theorem Keeps.trans {c₁ c₂ c₃ : PageCache} (h₁ : Keeps c₁ c₂) (h₂ : Keeps c₂ c₃) : Keeps c₁ c₃ :=
  List.Subset.trans h₂ h₁

/-- Keeping some of the entries, each with its page and bitmap, keeps the pictures. -/
theorem keeps_of_entries {c c' : PageCache}
    (h : ∀ e ∈ c'.entries, ∃ d ∈ c.entries, e.page = d.page ∧ e.bitmap = d.bitmap) : Keeps c c' := by
  intro x hx
  obtain ⟨e, he, rfl⟩ := List.mem_map.1 hx
  obtain ⟨d, hd, hp, hb⟩ := h e he
  exact List.mem_map.2 ⟨d, hd, by rw [hp, hb]⟩

theorem keeps_of_subset {c c' : PageCache} (h : ∀ e ∈ c'.entries, e ∈ c.entries) : Keeps c c' :=
  keeps_of_entries fun e he => ⟨e, h e he, rfl, rfl⟩

theorem take_keeps (c : PageCache) (page : Nat) : Keeps c (c.take page).2 := by
  unfold take
  split
  · exact Keeps.refl c
  · exact keeps_of_subset fun e he => (List.mem_filter.1 he).1

/-- Taking pages one after another, counting each as an eviction. -/
theorem foldl_take_keeps {α : Type} (f : α → Nat) (xs : List α) (c : PageCache) :
    Keeps c (xs.foldl (fun c x => { (c.take (f x)).2 with evictions := c.evictions + 1 }) c) := by
  induction xs generalizing c with
  | nil => exact Keeps.refl c
  | cons x xs ih => exact (take_keeps c (f x)).trans (ih _)

theorem evictRound_keeps {c c' : PageCache} {protect : Option Nat} (h : c.evictRound protect = some c') :
    Keeps c c' := by
  unfold evictRound at h
  dsimp only at h
  split at h
  · cases h
  · cases h
    exact foldl_take_keeps id _ c

/-- A sweep only evicts. -/
theorem sweep_keeps (c : PageCache) (protect : Option Nat) : Keeps c (c.sweep protect) := by
  unfold sweep
  -- each round of the sweep evicts; the fuel counts the rounds
  generalize c.entries.length = fuel
  induction fuel generalizing c with
  | zero => exact Keeps.refl c
  | succ fuel ih =>
    simp only [sweep.go]
    split
    · exact Keeps.refl c
    · split
      · exact Keeps.refl c
      · rename_i c' h
        exact (evictRound_keeps h).trans (ih c')

/-- A lookup refreshes the entry it finds and keeps every picture. -/
theorem get_keeps (c : PageCache) (page : Nat) (now : Instant) : Keeps c (c.get page now).2 := by
  unfold get
  split
  · exact Keeps.refl c
  · refine keeps_of_entries fun e he => ?_
    obtain ⟨d, hd, rfl⟩ := List.mem_map.1 he
    refine ⟨d, hd, ?_⟩
    split <;> exact ⟨rfl, rfl⟩

theorem remove_keeps (c : PageCache) (page : Nat) : Keeps c (c.remove page).2 :=
  take_keeps c page

theorem clear_keeps (c : PageCache) : Keeps c c.clear :=
  keeps_of_subset fun _ h => nomatch h

theorem setMaxItems_keeps (c : PageCache) (n : Nat) : Keeps c (c.setMaxItems n) :=
  sweep_keeps { c with maxItems := max n 1 } none

theorem setMaxBytes_keeps (c : PageCache) (n : Nat) : Keeps c (c.setMaxBytes n) :=
  sweep_keeps { c with maxBytes := max n mebibyte } none

theorem cleanupAt_keeps (c : PageCache) (now : Instant) : Keeps c (c.cleanupAt now).2 := by
  unfold cleanupAt
  split
  · exact Keeps.refl c
  · exact foldl_take_keeps (fun e : Entry => e.page) _ { c with lastCleanup := now }

/-- **Storing brings in one picture**: the page with the bitmap stored. -/
theorem insert_pictures {c c' : PageCache} {page : Nat} {b : Raster.Bitmap} {now : Instant} {stored : Bool}
    (h : c.insert page b now = .ok (stored, c')) : ∀ x ∈ c'.pictures, x ∈ c.pictures ∨ x = (page, b) := by
  intro x hx
  unfold insert at h
  dsimp only at h
  split at h
  · cases h
    exact .inl hx
  · -- the page's old entry is taken, the new one appended, and the sweep only evicts
    rcases hadd : checkedAdd (c.take page).2.bytesUsed b.byteSize with _ | used
    · simp [hadd, bind, Except.bind] at h
    · simp only [hadd, bind, Except.bind, pure, Except.pure, Except.ok.injEq, Prod.mk.injEq] at h
      obtain ⟨-, rfl⟩ := h
      have hx' := sweep_keeps _ _ hx
      simp only [pictures, List.map_append, List.map_cons, List.map_nil, List.mem_append,
        List.mem_singleton] at hx'
      rcases hx' with hx' | hx'
      · exact .inl (take_keeps c page hx')
      · exact .inr hx'

/-- A lookup that answers a bitmap answers a picture the cache holds for that page. -/
theorem get_mem_pictures {c : PageCache} {page : Nat} {now : Instant} {b : Raster.Bitmap}
    (h : (c.get page now).1 = some b) :
    (page, b) ∈ c.pictures := by
  unfold get at h
  split at h
  · cases h
  · rename_i e he
    cases h
    have hp : e.page = page := by simpa using List.find?_some he
    exact List.mem_map.2 ⟨e, List.mem_of_find?_eq_some he, by rw [hp]⟩

/-- A peek that answers a bitmap answers a picture the cache holds for that page. -/
theorem peek_mem_pictures {c : PageCache} {page : Nat} {b : Raster.Bitmap} (h : c.peek page = some b) :
    (page, b) ∈ c.pictures := by
  unfold peek at h
  obtain ⟨e, he, rfl⟩ := Option.map_eq_some_iff.1 h
  have hp : e.page = page := by simpa using List.find?_some he
  exact List.mem_map.2 ⟨e, List.mem_of_find?_eq_some he, by rw [hp]⟩

end PageCache
end Cache
end Thumbnailer
