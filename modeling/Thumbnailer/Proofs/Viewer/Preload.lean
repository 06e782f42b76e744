import Thumbnailer.Viewer.Model
import Mathlib

/-!
# Preloading requests the idle pages of a window, in order

A preload of the pages `first ..= last` (given in either order) on a document of `n` pages looks
at a window: from `min first last - r` up to `max first last + r`, with `r` the preload range,
the subtraction stopping at zero, the addition at the largest word, and the top cut to the last
page `n - 1`. Without pages it does nothing. Going up the window, it asks the generator for each
page that is neither in the model's page cache nor loading (`idle`), at the viewport's priority
for it, 5 without a viewport. An accepted page is marked loading and a refused one records the
refusal; the answer is how many the generator accepted.

The test of each page is made as the preload reaches it, after the requests for the pages
below it. Those requests only record the entries of their own pages (`foldl_requestStep_model`),
so the test gives what it would have given before the first request, and the preload is the
requests for the idle pages of the window, listed first (`preload_requests_idle_window`).
-/

namespace Thumbnailer
namespace Viewer

open Generator Schedule Cache

namespace Model

/-! ### Entries of pages -/

/-- Dropping the pairs of one key leaves the lookup of any other. -/
theorem lookup_filter_of_ne {α : Type} (l : List (Nat × α)) {p q : Nat} (hq : q ≠ p) :
    (l.filter (·.1 != p)).lookup q = l.lookup q := by
  induction l with
  | nil => rfl
  | cons x l ih =>
    by_cases hx : x.1 = p
    · have hxq : (q == x.1) = false := by simp [hx, hq]
      rw [List.filter_cons_of_neg (by simp [hx]), ih, List.lookup_cons, hxq]
    · rw [List.filter_cons_of_pos (by simpa using hx), List.lookup_cons, List.lookup_cons, ih]

/-- Recording one page's entry leaves every other page's. -/
theorem item?_setItem_of_ne (m : Model) {p q : Nat} (i : Item) (hq : q ≠ p) :
    (m.setItem p i).item? q = m.item? q := by
  simp only [item?, setItem, List.lookup_append, lookup_filter_of_ne _ hq, List.lookup_cons,
    beq_false_of_ne hq, List.lookup_nil, Option.or_none]

/-! ### Requesting pages one after another -/

/-- A page that is neither in the model's page cache nor loading. -/
def idle (m : Model) (page : Nat) : Bool := !m.cache.contains (cacheKey page) && !m.isLoading page

/-- A page is busy, cached or loading, exactly when it is not idle. -/
theorem busy_eq_not_idle (m : Model) (page : Nat) :
    (m.cache.contains (cacheKey page) || m.isLoading page) = !m.idle page := by
  simp [idle]

/-- One request of a page at the viewport's priority for it, 5 without a viewport: an accepted
page is marked loading and counted, a refused one records the refusal. -/
def requestStep (acc : Nat × Model × Engine) (page : Nat) : Nat × Model × Engine :=
  match acc.2.2.generate page ((acc.2.1.viewport.map (·.priorityFor page)).getD 5) with
  | (.ok (), g) => (acc.1 + 1, acc.2.1.setItem page { loading := true }, g)
  | (.error e, g) => (acc.1, acc.2.1.setItem page { error := some e.message }, g)

/-- Requests the pages in order; answers how many the generator accepted. -/
def requestEach (m : Model) (g : Engine) (pages : List Nat) : Nat × Model × Engine :=
  pages.foldl requestStep (0, m, g)

/-- Requests for two lists of pages, one after the other. -/
theorem requestEach_append (m : Model) (g : Engine) (xs ys : List Nat) :
    m.requestEach g (xs ++ ys) = ys.foldl requestStep (m.requestEach g xs) :=
  List.foldl_append

/-- The priority the model gives a page: the viewport's, 5 without a viewport. -/
theorem priorityFor_eq (m : Model) (page : Nat) :
    m.priorityFor page = (m.viewport.map (·.priorityFor page)).getD 5 :=
  rfl

/-- A request touches only the entry of its page. -/
theorem requestStep_model (acc : Nat × Model × Engine) (page : Nat) :
    (requestStep acc page).2.1.cache = acc.2.1.cache ∧
      (requestStep acc page).2.1.viewport = acc.2.1.viewport ∧
      ∀ q, q ≠ page → (requestStep acc page).2.1.item? q = acc.2.1.item? q := by
  unfold requestStep
  split
  · exact ⟨rfl, rfl, fun q hq => item?_setItem_of_ne _ _ hq⟩
  · exact ⟨rfl, rfl, fun q hq => item?_setItem_of_ne _ _ hq⟩

/-- Requests touch only the entries of their pages. -/
theorem foldl_requestStep_model (pages : List Nat) (acc : Nat × Model × Engine) :
    (pages.foldl requestStep acc).2.1.cache = acc.2.1.cache ∧
      (pages.foldl requestStep acc).2.1.viewport = acc.2.1.viewport ∧
      ∀ q ∉ pages, (pages.foldl requestStep acc).2.1.item? q = acc.2.1.item? q := by
  induction pages generalizing acc with
  | nil => exact ⟨rfl, rfl, fun _ _ => rfl⟩
  | cons p ps ih =>
    obtain ⟨hc, hv, hi⟩ := requestStep_model acc p
    obtain ⟨hc', hv', hi'⟩ := ih (requestStep acc p)
    refine ⟨hc'.trans hc, hv'.trans hv, fun q hq => ?_⟩
    rw [List.mem_cons, not_or] at hq
    exact (hi' q hq.2).trans (hi q hq.1)

/-- Requests for other pages leave a page as idle as it was. -/
theorem requestEach_idle (m : Model) (g : Engine) {pages : List Nat} {page : Nat}
    (hp : page ∉ pages) : (m.requestEach g pages).2.1.idle page = m.idle page := by
  obtain ⟨hcache, -, hitem⟩ := foldl_requestStep_model pages (0, m, g)
  simp only [idle, isLoading, requestEach, hcache, hitem page hp]

/-- **A preload requests the idle pages of its window, in order.** The window runs from the lower
bound less the preload range (stopping at zero) to the upper bound plus the preload range
(stopping at the largest word), cut to the document's last page. Without pages nothing happens;
otherwise the preload asks the generator for each page of the window that is neither cached nor
loading, going up, at the viewport's priority (5 without a viewport), marks each accepted page
loading, records each refusal, and answers the number of pages accepted. An empty window asks
for nothing and answers 0. -/
theorem preload_requests_idle_window (m : Model) (g : Engine) (first last : Nat) :
    let lo := min first last - m.config.preloadRange
    let hi := min (min (max first last + m.config.preloadRange) wordMax) (g.pageCount - 1)
    m.preload g first last =
      if g.pageCount = 0 then (0, m, g)
      else m.requestEach g ((List.range' lo (hi + 1 - lo)).filter m.idle) := by
  dsimp only
  unfold preload
  dsimp only
  by_cases hc : g.pageCount = 0
  · rw [if_pos hc, if_pos hc]
  -- the window's bounds, named once both sides state them alike
  rw [if_neg hc, if_neg hc, show saturatingAdd (max first last) m.config.preloadRange =
    min (max first last + m.config.preloadRange) wordMax from rfl]
  generalize min first last - m.config.preloadRange = lo
  generalize min (min (max first last + m.config.preloadRange) wordMax) (g.pageCount - 1) = hi
  by_cases hlh : lo > hi
  · rw [if_pos hlh, show hi + 1 - lo = 0 by omega]
    rfl
  rw [if_neg hlh, show hi + 1 - lo = hi - lo + 1 by omega, List.range'_eq_map_range]
  generalize hi - lo + 1 = k
  -- induction on the part of the window looked at so far: the preload has requested its idle pages
  induction k with
  | zero => rfl
  | succ k ih =>
    rw [List.range_succ, List.foldl_append, ih, List.map_append, List.filter_append,
      requestEach_append]
    -- the page `lo + k` is new: the requests below it left it as idle as it was
    have hidle : (m.requestEach g ((List.map (lo + ·) (List.range k)).filter m.idle)).2.1.idle
        (lo + k) = m.idle (lo + k) :=
      requestEach_idle m g (by simp)
    generalize m.requestEach g ((List.map (lo + ·) (List.range k)).filter m.idle) = acc
      at hidle ⊢
    simp only [List.map_cons, List.map_nil, List.foldl_cons, List.foldl_nil, List.filter_cons,
      List.filter_nil, busy_eq_not_idle, hidle]
    cases m.idle (lo + k)
    · rfl
    · -- an idle page is submitted, which is one request
      simp only [Bool.not_true, Bool.false_eq_true, if_false, if_true, List.foldl_cons,
        List.foldl_nil, Model.submit, priorityFor_eq]
      unfold requestStep
      cases acc.2.2.generate (lo + k) ((acc.2.1.viewport.map (·.priorityFor (lo + k))).getD 5) with
      | mk r g' => cases r <;> rfl

end Model
end Viewer
end Thumbnailer
