import Thumbnailer.Proofs.Schedule.Pages
import Thumbnailer.Proofs.Generator.Run

/-!
# A page in the state table and in the scheduler

The state table moves one page at a time and refuses the moves its machine forbids, so the
state a page reaches is `PageState.move` of the state it had (`PageStates.get_transition`).
The scheduler, for its part, says two things of a page: whether a request for it waits
(`isQueued`) and whether it has an active job (`hasActive`).

`Agrees` is what the table and the scheduler must say together of a page: a queued page has a
waiting request, a rendering page an active job, and a page with either is queued or
rendering. Every way the generator changes a page's state is a function of that page's state
and of the scheduler's two answers, so the facts below are finite checks over the six states
and two answers; the generator-level argument only has to find which one applies.
-/

namespace Thumbnailer
namespace Generator

open Schedule

namespace PageState

/-- Where a move takes a page: to `next` when the machine allows it, otherwise nowhere. -/
def move (st next : PageState) : PageState := if st.canTransitionTo next then next else st

/-- A request for the page always makes it queued. -/
@[simp] theorem move_queued (st : PageState) : st.move .queued = .queued := by
  cases st <;> rfl

@[simp] theorem move_move (st next : PageState) : (st.move next).move next = st.move next := by
  cases st <;> cases next <;> rfl

end PageState

namespace PageStates

theorem lookup_filter_ne {l : List (Nat × PageState)} {page q : Nat} (h : q ≠ page) :
    (l.filter (·.1 != page)).lookup q = l.lookup q := by
  induction l with
  | nil => rfl
  | cons x xs ih =>
    obtain ⟨k, v⟩ := x
    by_cases hk : k = page
    · subst hk
      have hq : (q == k) = false := by simpa using h
      simp [ih, List.lookup_cons, hq]
    · by_cases hqk : q = k
      · subst hqk
        simp [hk]
      · have hq : (q == k) = false := by simpa using hqk
        simp [hk, ih, List.lookup_cons, hq]

theorem lookup_filter_self {l : List (Nat × PageState)} {page : Nat} :
    (l.filter (·.1 != page)).lookup page = none := by
  induction l with
  | nil => rfl
  | cons x xs ih =>
    obtain ⟨k, v⟩ := x
    by_cases hk : k = page
    · subst hk
      simp [ih]
    · have hq : (page == k) = false := by simpa using Ne.symm hk
      simp [hk, ih, List.lookup_cons, hq]

/-- **A transition moves one page, as far as the machine allows.** -/
theorem get_transition (t : PageStates) (page : Nat) (s : PageState) (q : Nat) :
    (t.transition page s).2.get q = if q = page then (t.get page).move s else t.get q := by
  unfold transition
  dsimp only
  split
  · rename_i h
    by_cases hq : q = page
    · subst hq
      rw [if_pos rfl, h]
      by_cases hc : PageState.canTransitionTo s s <;> simp [PageState.move, hc]
    · rw [if_neg hq]
  · split
    · rename_i _ hc
      by_cases hq : q = page
      · subst hq
        simp only [Bool.not_eq_true'] at hc
        simp [PageState.move, hc]
      · rw [if_neg hq]
    · rename_i _ hc
      simp only [Bool.not_eq_true', Bool.not_eq_false] at hc
      by_cases hq : q = page
      · subst hq
        split <;> simp_all [get, PageState.move, lookup_filter_self, List.lookup_append]
      · have hq' : (q == page) = false := by simpa using hq
        split <;> simp [get, lookup_filter_ne hq, List.lookup_append, List.lookup_cons, hq']

end PageStates

/-! ### What the table and the scheduler say together -/

/-- The state table agrees with the scheduler about a page: a queued page has a waiting
request, a rendering page an active job, and a page with either is queued or rendering. -/
def Agrees (st : PageState) (queued active : Bool) : Prop :=
  (st = .queued → queued = true) ∧ (st = .rendering → active = true) ∧
    (queued = true ∨ active = true → st.isPending = true)

instance (st : PageState) (queued active : Bool) : Decidable (Agrees st queued active) :=
  inferInstanceAs (Decidable (_ ∧ _ ∧ _))

/-- A page whose job has just been resolved, before the generator handles the completion:
no job is active, the table still says queued or rendering, a queued page still has its
waiting request, and a retried job's request waits again. -/
def Lagging (st : PageState) (queued active retried : Bool) : Prop :=
  active = false ∧ st.isPending = true ∧ (st = .queued → queued = true) ∧ (retried = true → queued = true)

instance (st : PageState) (queued active retried : Bool) : Decidable (Lagging st queued active retried) :=
  inferInstanceAs (Decidable (_ ∧ _ ∧ _ ∧ _))

/-- Where a finished or failed job leaves its page: the final state when the machine allows
it, and queued again when another request for the page waits. -/
def settleState (st final : PageState) (queued : Bool) : PageState :=
  if queued then (st.move final).move .queued else st.move final

/-- A page whose waiting requests were removed: kept while one still waits, rendering while a
job is active, cancelled otherwise. -/
def releaseState (st : PageState) (queued active : Bool) : PageState :=
  if queued then st else if active then st.move .rendering else st.move .cancelled

/-- A page about to be released: it agrees already, or it is queued or rendering and, if
rendering, keeps its job or loses its last request. -/
def Releasable (st : PageState) (queued active : Bool) : Prop :=
  (st.isPending = true ∧ (st = .rendering → active = true ∨ queued = false)) ∨ Agrees st queued active

instance (st : PageState) (queued active : Bool) : Decidable (Releasable st queued active) :=
  inferInstanceAs (Decidable (_ ∨ _))

theorem agrees_enqueue (st : PageState) (active : Bool) : Agrees (st.move .queued) true active := by
  cases active <;> simp [Agrees, PageState.isPending]

/-- A page whose request is admitted was queued, and is rendering. -/
theorem agrees_start {st : PageState} (h : Agrees st true false) (queued : Bool) :
    Agrees (st.move .rendering) queued true := by
  cases st <;> cases queued <;> revert h <;> decide

/-- A page whose job was resolved lags until its completion is handled. -/
theorem lagging_of_agrees {st : PageState} {queued queued' retried : Bool}
    (h : Agrees st queued true) (hq : queued = true → queued' = true)
    (hr : retried = true → queued' = true) : Lagging st queued' false retried := by
  refine ⟨rfl, h.2.2 (.inr rfl), fun hs => hq (h.1 hs), hr⟩

theorem agrees_settle {st final : PageState} {queued : Bool}
    (hf : final = .cached ∨ final = .failed) (h : Lagging st queued false false) :
    Agrees (settleState st final queued) queued false := by
  rcases hf with rfl | rfl <;> cases st <;> cases queued <;> revert h <;> decide

theorem agrees_retry {st : PageState} {queued : Bool} (h : Lagging st queued false true) :
    Agrees (st.move .queued) queued false := by
  obtain ⟨-, -, -, hq⟩ := h
  rw [hq rfl]
  exact agrees_enqueue st false

theorem agrees_release {st : PageState} {queued active : Bool} (h : Releasable st queued active) :
    Agrees (releaseState st queued active) queued active := by
  cases st <;> cases queued <;> cases active <;> revert h <;> decide

/-- Where handling a delivered completion leaves its page, given whether a request for the page
waits. -/
def handledState : Completion → PageState → Bool → PageState
  | .finished .., st, queued => settleState st .cached queued
  | .retrying .., st, _ => st.move .queued
  | .failed .., st, queued => settleState st .failed queued
  | .discarded _, st, _ => st

/-- **Handling a delivered completion makes its lagging page agree again.** -/
theorem agrees_handled {c : Completion} {page : Nat} (hc : c.deliveredPage? = some page)
    {st : PageState} {queued : Bool} (h : Lagging st queued false c.isRetrying) :
    Agrees (handledState c st queued) queued false := by
  cases c with
  | finished r b => exact agrees_settle (.inl rfl) h
  | retrying r e => exact agrees_retry h
  | failed r e => exact agrees_settle (.inr rfl) h
  | discarded p => cases hc

/-- Cancelling a page that had work leaves it cancelled and with none. -/
theorem agrees_cancel {st : PageState} {queued active : Bool} (h : Agrees st queued active)
    (hw : queued = true ∨ active = true) : Agrees (st.move .cancelled) false false := by
  cases st <;> cases queued <;> cases active <;> revert h hw <;> decide

/-! ### The generator's page states -/

namespace Engine

@[simp] theorem pageState_emit (g : Engine) (e : Event) (q : Nat) :
    (g.emit e).pageState q = g.pageState q := rfl

theorem pageState_moveTo (g : Engine) (page : Nat) (s : PageState) (q : Nat) :
    (g.moveTo page s).pageState q = if q = page then (g.pageState page).move s else g.pageState q :=
  PageStates.get_transition g.states page s q

theorem pageState_settle (g : Engine) (page : Nat) (s : PageState) (q : Nat) :
    (g.settle page s).pageState q =
      if q = page then settleState (g.pageState page) s (g.scheduler.isQueued page) else g.pageState q := by
  unfold settle settleState
  dsimp only
  rw [moveTo_scheduler]
  by_cases hq : q = page
  · subst hq
    by_cases hb : g.scheduler.isQueued q = true <;> simp [pageState_moveTo, hb]
  · split <;> simp [pageState_moveTo, hq]

theorem pageState_foldl_moveTo (rs : List Schedule.Request) (s : PageState) (g : Engine) (q : Nat) :
    (rs.foldl (fun g r => g.moveTo r.page s) g).pageState q =
      if q ∈ rs.map (·.page) then (g.pageState q).move s else g.pageState q := by
  induction rs generalizing g with
  | nil => simp
  | cons r rs ih =>
    rw [List.foldl_cons, ih, pageState_moveTo]
    by_cases hq : q = r.page
    · subst hq
      simp
    · simp [hq]

/-- A completion changes the state of the page it delivers for, and of no other. -/
theorem pageState_handleOne (g : Engine) (c : Completion) (q : Nat) :
    (g.handleOne c).pageState q =
      if c.deliveredPage? = some q then handledState c (g.pageState q) (g.scheduler.isQueued q)
      else g.pageState q := by
  cases c with
  | finished r b =>
    simp only [handleOne, pageState_emit, Completion.deliveredPage?, Option.some.injEq]
    rw [pageState_settle]
    by_cases hq : q = r.page
    · subst hq
      simp [handledState, pageState]
    · simp [hq, Ne.symm hq, pageState]
  | retrying r e =>
    simp only [handleOne, pageState_emit, Completion.deliveredPage?, Option.some.injEq]
    rw [pageState_moveTo]
    by_cases hq : q = r.page
    · subst hq
      simp [handledState, pageState]
    · simp [hq, Ne.symm hq, pageState]
  | failed r e =>
    simp only [handleOne, pageState_emit, Completion.deliveredPage?, Option.some.injEq]
    rw [pageState_settle]
    by_cases hq : q = r.page
    · subst hq
      simp [handledState, pageState]
    · simp [hq, Ne.symm hq, pageState]
  | discarded p => simp [handleOne, Completion.deliveredPage?]

/-- Releasing one page changes that page only, to its `releaseState`. -/
theorem pageState_releasePage (g : Engine) (page q : Nat) :
    (g.releasePage page).pageState q =
      if q = page then releaseState (g.pageState page) (g.scheduler.isQueued page)
        (g.scheduler.hasActive page) else g.pageState q := by
  unfold releasePage releaseState
  split
  · split <;> simp_all
  · split
    · simp [pageState_moveTo, *]
    · rw [transition_eq]
      split <;>
      · rename_i heq
        obtain ⟨-, rfl⟩ := Prod.mk.inj heq
        simp [pageState_moveTo, *]

/-- **Releasing pages makes them agree.** Pages whose requests were removed are released one
by one against the scheduler as it is after the removal; a page released twice stays as the
first release left it. -/
theorem agrees_releaseQueued (g : Engine) (removed : List Schedule.Request)
    (hrel : ∀ p, Releasable (g.pageState p) (g.scheduler.isQueued p) (g.scheduler.hasActive p))
    (hagree : ∀ p, p ∉ removed.map (·.page) →
      Agrees (g.pageState p) (g.scheduler.isQueued p) (g.scheduler.hasActive p)) (p : Nat) :
    Agrees ((g.releaseQueued removed).pageState p) (g.scheduler.isQueued p) (g.scheduler.hasActive p) := by
  unfold releaseQueued
  have hmem : ∀ p, p ∈ ((removed.map (·.page)).mergeSort (· ≤ ·)).eraseDups ↔ p ∈ removed.map (·.page) :=
    fun p => by rw [List.mem_eraseDups, List.mem_mergeSort]
  generalize ((removed.map (·.page)).mergeSort (· ≤ ·)).eraseDups = pages at hmem
  -- the pages released so far agree; the others are as they were
  suffices ∀ (pages : List Nat) (g' : Engine), g'.scheduler = g.scheduler →
      (∀ p, Releasable (g'.pageState p) (g.scheduler.isQueued p) (g.scheduler.hasActive p)) →
      (∀ p, p ∉ pages → Agrees (g'.pageState p) (g.scheduler.isQueued p) (g.scheduler.hasActive p)) →
      ∀ p, Agrees ((pages.foldl releasePage g').pageState p) (g.scheduler.isQueued p)
        (g.scheduler.hasActive p) from
    this pages g rfl hrel (fun p hp => hagree p (mt (hmem p).2 hp)) p
  intro pages
  induction pages with
  | nil => intro g' _ _ hag p; exact hag p List.not_mem_nil
  | cons page pages ih =>
    intro g' hs hrel' hag'
    rw [List.foldl_cons]
    have hstep := pageState_releasePage g' page
    rw [hs] at hstep
    apply ih
    · rw [releasePage_scheduler, hs]
    · intro q
      rw [hstep]
      split
      · rename_i hq
        subst hq
        exact .inr (agrees_release (hrel' q))
      · exact hrel' q
    · intro q hq
      rw [hstep]
      split
      · rename_i hqp
        subst hqp
        exact agrees_release (hrel' q)
      · exact hag' q (by simp_all)

end Engine

end Generator
end Thumbnailer
