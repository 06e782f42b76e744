import Thumbnailer.Proofs.Cache.Lending

/-!
# What an acquisition does

`Pool.acquire` finds its entry with a scan (`argMinBy`), checks the budget and counts the
outcome. Here the outcome is said without the scan. `FirstMin` is what a scan returns: the first
of the least entries that pass its test (`argMinBy_firstMin`). `Acquired` lists the outcomes of
a request for `n` bytes: the first of the smallest free entries holding `n` bytes is lent again
(`BestFit`); with none, a new entry of `n` bytes is made when the budget allows it; otherwise
the request is refused. Each outcome counts itself once (`Acquired.tally`).

The byte count `w · h · 4` and the budget check's sum are 64-bit words, and a result that leaves
the word stops the request (`acquire_error_iff`). A pool that a run of requests reaches never
reserves more than 512 MiB (`WithinCeiling`); there a request stops exactly when
`reserved + w · h · 4` leaves the word, since a request that large finds no free entry to reuse.

Main statements: `acquire_spec`, `acquire_stops_iff_sum_overflows`.
-/

namespace Thumbnailer
namespace Cache
namespace Pool

/-! ### The scan -/

theorem lexLt_iff {a b : Nat × Nat} : lexLt a b = true ↔ a.1 < b.1 ∨ (a.1 = b.1 ∧ a.2 < b.2) := by
  simp [lexLt]

theorem lexLt_eq_false_iff {a b : Nat × Nat} :
    lexLt a b = false ↔ b.1 < a.1 ∨ (a.1 = b.1 ∧ b.2 ≤ a.2) := by
  simp only [lexLt, Bool.or_eq_false_iff, Bool.and_eq_false_iff, decide_eq_false_iff_not]
  omega

/-- Slot `i` holds the first of the least entries, by `key`, among those passing `ok`. -/
def FirstMin (es : List Entry) (ok : Entry → Bool) (key : Entry → Nat × Nat) (i : Nat) : Prop :=
  ∃ hi : i < es.length, ok es[i] = true ∧ ∀ (j : Nat) (hj : j < es.length), ok es[j] = true →
    lexLt (key es[j]) (key es[i]) = false ∧ (j < i → lexLt (key es[i]) (key es[j]) = true)

section Scan

variable {es : List Entry} {e : Entry} {ok : Entry → Bool} {key : Entry → Nat × Nat}

/-- A slot of `es ++ [e]` is a slot of `es` or the last one, holding `e`. -/
theorem getElem_concat_cases {j : Nat} (hj : j < (es ++ [e]).length) :
    (∃ hj' : j < es.length, (es ++ [e])[j] = es[j]) ∨ (j = es.length ∧ (es ++ [e])[j] = e) := by
  rcases Nat.lt_or_ge j es.length with hj' | hj'
  · exact .inl ⟨hj', List.getElem_append_left hj'⟩
  · have hlast : j = es.length := by simp at hj; omega
    exact .inr ⟨hlast, List.getElem_concat_length hlast _⟩

theorem FirstMin.append_fail {i : Nat} (h : FirstMin es ok key i) (he : ok e = false) :
    FirstMin (es ++ [e]) ok key i := by
  obtain ⟨hi, hok, hmin⟩ := h
  refine ⟨by simp; omega, by rwa [List.getElem_append_left hi], fun j hj hokj => ?_⟩
  rw [List.getElem_append_left hi]
  rcases getElem_concat_cases hj with ⟨hj', heq⟩ | ⟨-, heq⟩ <;> rw [heq] at hokj ⊢
  · exact hmin j hj' hokj
  · exact absurd hokj (by simp [he])

theorem FirstMin.append_first (hall : ∀ x ∈ es, ok x = false) (he : ok e = true) :
    FirstMin (es ++ [e]) ok key es.length := by
  refine ⟨by simp, by rwa [List.getElem_concat_length rfl], fun j hj hok => ?_⟩
  rw [List.getElem_concat_length rfl]
  rcases getElem_concat_cases hj with ⟨hj', heq⟩ | ⟨rfl, heq⟩ <;> rw [heq] at hok ⊢
  · exact absurd hok (by simp [hall _ (List.getElem_mem hj')])
  · -- `e` against itself: not strictly first
    exact ⟨by simp [lexLt_eq_false_iff], fun h => absurd h (Nat.lt_irrefl _)⟩

theorem FirstMin.append_lt {i : Nat} (h : FirstMin es ok key i) (hi : i < es.length) (he : ok e = true)
    (hlt : lexLt (key e) (key es[i]) = true) : FirstMin (es ++ [e]) ok key es.length := by
  have hmin := h.2.2
  refine ⟨by simp, by rwa [List.getElem_concat_length rfl], fun j hj hok => ?_⟩
  rw [List.getElem_concat_length rfl]
  rcases getElem_concat_cases hj with ⟨hj', heq⟩ | ⟨rfl, heq⟩ <;> rw [heq] at hok ⊢
  · -- `e` ranks strictly before the old least entry, which ranks no later than `es[j]`
    have hj := (hmin j hj' hok).1
    rw [lexLt_iff] at hlt
    rw [lexLt_eq_false_iff] at hj
    refine ⟨?_, fun _ => ?_⟩
    · rw [lexLt_eq_false_iff]; omega
    · rw [lexLt_iff]; omega
  · exact ⟨by simp [lexLt_eq_false_iff], fun h => absurd h (Nat.lt_irrefl _)⟩

theorem FirstMin.append_ge {i : Nat} (h : FirstMin es ok key i) (hi : i < es.length)
    (hge : lexLt (key e) (key es[i]) = false) : FirstMin (es ++ [e]) ok key i := by
  have hmin := h.2.2
  refine ⟨by simp; omega, by rw [List.getElem_append_left hi]; exact h.2.1, fun j hj hokj => ?_⟩
  rw [List.getElem_append_left hi]
  rcases getElem_concat_cases hj with ⟨hj', heq⟩ | ⟨rfl, heq⟩ <;> rw [heq] at hokj ⊢
  · exact hmin j hj' hokj
  · exact ⟨hge, fun h => absurd h (by omega)⟩

end Scan

theorem scan_append (es : List Entry) (e : Entry) (ok : Entry → Bool) (key : Entry → Nat × Nat) :
    (es ++ [e]).zipIdx.foldl (argMinStep ok key) none =
      argMinStep ok key (es.zipIdx.foldl (argMinStep ok key) none) (e, es.length) := by
  simp [List.zipIdx_append]

/-- **What the scan holds after the entries `es`**: nothing when none passes, and otherwise the
slot of the first least entry with its key. The induction runs over `es` from the right, as the
scan does. -/
theorem scan_spec (es : List Entry) (ok : Entry → Bool) (key : Entry → Nat × Nat) :
    (es.zipIdx.foldl (argMinStep ok key) none = none ∧ ∀ e ∈ es, ok e = false) ∨
      ∃ (i : Nat) (hi : i < es.length), FirstMin es ok key i ∧
        es.zipIdx.foldl (argMinStep ok key) none = some (i, key es[i]) := by
  induction es using List.reverseRecOn with
  | nil => exact .inl ⟨rfl, fun _ h => absurd h List.not_mem_nil⟩
  | append_singleton es e ih =>
    rw [scan_append]
    cases he : ok e with
    | false =>
      -- `e` fails the test: the scan keeps what it had
      have hkeep : ∀ best, argMinStep ok key best (e, es.length) = best := by
        simp [argMinStep, he]
      rw [hkeep]
      rcases ih with ⟨hnone, hall⟩ | ⟨i, hi, hmin, hscan⟩
      · refine .inl ⟨hnone, fun x hx => ?_⟩
        rcases List.mem_append.1 hx with hx | hx
        · exact hall x hx
        · rw [List.mem_singleton.1 hx]
          exact he
      · refine .inr ⟨i, by simp; omega, hmin.append_fail he, ?_⟩
        rw [hscan, List.getElem_append_left hi]
    | true =>
      rcases ih with ⟨hnone, hall⟩ | ⟨i, hi, hmin, hscan⟩
      · refine .inr ⟨es.length, by simp, FirstMin.append_first hall he, ?_⟩
        simp [argMinStep, hnone, he]
      · cases hlt : lexLt (key e) (key es[i]) with
        | true =>
          refine .inr ⟨es.length, by simp, hmin.append_lt hmin.1 he hlt, ?_⟩
          simp [argMinStep, hscan, he, hlt]
        | false =>
          refine .inr ⟨i, by simp; omega, hmin.append_ge hmin.1 hlt, ?_⟩
          simp [argMinStep, hscan, he, hlt, List.getElem_append_left hi]

/-- The slot `argMinBy` returns holds the first of the least entries that pass. -/
theorem argMinBy_firstMin {es : List Entry} {ok : Entry → Bool} {key : Entry → Nat × Nat} {i : Nat}
    (h : argMinBy es ok key = some i) : FirstMin es ok key i := by
  rcases scan_spec es ok key with ⟨hnone, -⟩ | ⟨j, hj, hmin, hscan⟩
  · simp [argMinBy, hnone] at h
  · simp only [argMinBy, hscan, Option.map_some, Option.some.injEq] at h
    exact h ▸ hmin

/-! ### The three outcomes -/

/-- Slot `i` is the entry a reuse takes for `n` bytes: free, holding at least `n` bytes, the
smallest such, and the first of equals. -/
def BestFit (es : List Entry) (n i : Nat) : Prop :=
  ∃ hi : i < es.length, es[i].inUse = false ∧ n ≤ es[i].reserved ∧
    ∀ (j : Nat) (hj : j < es.length), es[j].inUse = false → n ≤ es[j].reserved →
      es[i].reserved ≤ es[j].reserved ∧ (j < i → es[i].reserved < es[j].reserved)

theorem bestFit_of_firstMin {es : List Entry} {n i : Nat}
    (h : FirstMin es (fun e => !e.inUse && e.reserved ≥ n) (fun e => (e.reserved, 0)) i) :
    BestFit es n i := by
  obtain ⟨hi, hok, hmin⟩ := h
  simp only [Bool.and_eq_true, Bool.not_eq_true', decide_eq_true_eq] at hok
  refine ⟨hi, hok.1, hok.2, fun j hj hfree hfit => ?_⟩
  have hj := hmin j hj (by simp [hfree, hfit])
  simp only [lexLt_eq_false_iff, lexLt_iff] at hj
  omega

/-- The outcomes of a request for `n` bytes at `now`, with the pool each leaves. -/
inductive Acquired (p : Pool) (n : Nat) (now : Instant) : Option Nat × Pool → Prop
  /-- The best fitting free entry is lent again; nothing more is reserved. -/
  | reuse (i : Nat) (hi : i < p.entries.length) : BestFit p.entries n i →
      Acquired p n now (some p.entries[i].id,
        { p with reuses := p.reuses + 1, entries := p.entries.set i { p.entries[i] with inUse := true } })
  /-- No free entry holds `n` bytes and the budget allows `n` more: a new entry is lent,
  stamped with the request's instant. -/
  | allocate : (∀ e ∈ p.entries, e.inUse = false → e.reserved < n) → p.reserved + n ≤ p.capacity →
      Acquired p n now (some p.nextId,
        { p with nextId := p.nextId + 1, allocations := p.allocations + 1,
                 entries := p.entries ++ [⟨p.nextId, n, now, true⟩] })
  /-- Neither: the request is refused. -/
  | exhaust : (∀ e ∈ p.entries, e.inUse = false → e.reserved < n) → p.capacity < p.reserved + n →
      Acquired p n now (none, { p with exhausted := p.exhausted + 1 })

/-- How many requests the pool has counted: reused, allocated or refused. -/
def tally (p : Pool) : Nat := p.reuses + p.allocations + p.exhausted

/-- Every outcome counts the request once. -/
theorem Acquired.tally {p : Pool} {n : Nat} {now : Instant} {out : Option Nat × Pool} (h : Acquired p n now out) :
    out.2.tally = p.tally + 1 := by
  cases h <;> simp only [Pool.tally] <;> omega

/-- A lent buffer is there exactly when `n` bytes fit a free entry or the rest of the budget. -/
theorem Acquired.isSome_iff {p : Pool} {n : Nat} {now : Instant} {out : Option Nat × Pool}
    (h : Acquired p n now out) :
    out.1.isSome ↔ (∃ e ∈ p.entries, e.inUse = false ∧ n ≤ e.reserved) ∨ p.reserved + n ≤ p.capacity := by
  cases h with
  | reuse i hi hbest =>
    obtain ⟨hi', hfree, hfit, -⟩ := hbest
    exact ⟨fun _ => .inl ⟨_, List.getElem_mem hi, hfree, hfit⟩, fun _ => rfl⟩
  | allocate _ hfit => exact ⟨fun _ => .inr hfit, fun _ => rfl⟩
  | exhaust hsmall hover =>
    refine ⟨fun h => absurd h (by simp), ?_⟩
    rintro (⟨e, he, hfree, hfit⟩ | hfit)
    · exact absurd (hsmall e he hfree) (by omega)
    · omega

/-! ### Acquiring -/

/-- **Every acquisition that returns is one of the three outcomes.** -/
theorem acquired_of_acquire_eq_ok {p : Pool} {w h : Nat} {now : Instant} {out : Option Nat × Pool}
    (hacq : p.acquire w h now = .ok out) : Acquired p (w * h * 4) now out := by
  unfold acquire at hacq
  rcases Nat.lt_or_ge (w * h * 4) wordSize with hn | hn
  · simp only [checkedMul_eq_ok hn, bind, Except.bind] at hacq
    split at hacq
    · rename_i i hi
      have hbest := bestFit_of_firstMin (argMinBy_firstMin hi)
      have hlt := hbest.1
      simp only [List.getElem?_eq_getElem hlt, Option.getD_some, pure, Except.pure,
        Except.ok.injEq] at hacq
      subst hacq
      exact .reuse i hlt hbest
    · rename_i hnone
      -- no free entry holds the bytes, so the budget decides
      have hsmall : ∀ e ∈ p.entries, e.inUse = false → e.reserved < w * h * 4 := by
        intro e he hfree
        have := argMinBy_eq_none hnone e he
        simp only [hfree, Bool.not_false, Bool.true_and, decide_eq_false_iff_not] at this
        omega
      rcases Nat.lt_or_ge (p.reserved + w * h * 4) wordSize with hsum | hsum
      · simp only [checkedAdd_eq_ok hsum] at hacq
        split at hacq
        · rename_i hover
          simp only [pure, Except.pure, Except.ok.injEq] at hacq
          subst hacq
          exact .exhaust hsmall hover
        · rename_i hfit
          simp only [pure, Except.pure, Except.ok.injEq] at hacq
          subst hacq
          exact .allocate hsmall (by omega)
      · simp [checkedAdd_eq_error hsum] at hacq
  · simp [checkedMul_eq_error hn, bind, Except.bind] at hacq

/-- **When an acquisition stops.** The byte count leaves the word, or no free entry holds the
bytes and the budget check's sum leaves the word. -/
theorem acquire_error_iff (p : Pool) (w h : Nat) (now : Instant) :
    (∃ e, p.acquire w h now = .error e) ↔
      wordSize ≤ w * h * 4 ∨
        ((∀ e ∈ p.entries, e.inUse = false → e.reserved < w * h * 4) ∧
          wordSize ≤ p.reserved + w * h * 4) := by
  unfold acquire
  rcases Nat.lt_or_ge (w * h * 4) wordSize with hn | hn
  · simp only [checkedMul_eq_ok hn, bind, Except.bind]
    split
    · rename_i i hi
      -- a free entry holds the bytes: the request is served
      obtain ⟨hlt, hok⟩ := argMinBy_eq_some hi
      simp only [Bool.and_eq_true, Bool.not_eq_true', decide_eq_true_eq] at hok
      refine ⟨fun ⟨_, he⟩ => by simp [pure, Except.pure] at he, ?_⟩
      rintro (hn' | ⟨hsmall, -⟩)
      · omega
      · exact absurd (hsmall _ (List.getElem_mem hlt) hok.1) (by omega)
    · rename_i hnone
      have hsmall : ∀ e ∈ p.entries, e.inUse = false → e.reserved < w * h * 4 := by
        intro e he hfree
        have := argMinBy_eq_none hnone e he
        simp only [hfree, Bool.not_false, Bool.true_and, decide_eq_false_iff_not] at this
        omega
      rcases Nat.lt_or_ge (p.reserved + w * h * 4) wordSize with hsum | hsum
      · simp only [checkedAdd_eq_ok hsum]
        refine ⟨fun ⟨_, he⟩ => ?_, fun h => by omega⟩
        split at he <;> simp [pure, Except.pure] at he
      · simp only [checkedAdd_eq_error hsum]
        exact ⟨fun _ => .inr ⟨hsmall, hsum⟩, fun _ => ⟨_, rfl⟩⟩
  · simp only [checkedMul_eq_error hn, bind, Except.bind]
    exact ⟨fun _ => .inl hn, fun _ => ⟨_, rfl⟩⟩

/-- A byte count that leaves the word stops the request on the product. -/
theorem acquire_eq_error_mul (p : Pool) {w h : Nat} (now : Instant) (hn : wordSize ≤ w * h * 4) :
    p.acquire w h now = .error .mul := by
  unfold acquire
  rw [checkedMul_eq_error hn]
  rfl

/-- With no free entry holding the bytes, a budget check whose sum leaves the word stops the
request on the sum. -/
theorem acquire_eq_error_add {p : Pool} {w h : Nat} {now : Instant} (hn : w * h * 4 < wordSize)
    (hsmall : ∀ e ∈ p.entries, e.inUse = false → e.reserved < w * h * 4)
    (hsum : wordSize ≤ p.reserved + w * h * 4) : p.acquire w h now = .error .add := by
  unfold acquire
  simp only [checkedMul_eq_ok hn, bind, Except.bind]
  split
  · rename_i i hi
    -- the scan found a free entry holding the bytes, yet none does
    obtain ⟨hlt, hok⟩ := argMinBy_eq_some hi
    simp only [Bool.and_eq_true, Bool.not_eq_true', decide_eq_true_eq] at hok
    exact absurd (hsmall _ (List.getElem_mem hlt) hok.1) (by omega)
  · simp only [checkedAdd_eq_error hsum]

/-- **An acquisition whose budget check fits the word returns**, with one of the three
outcomes. -/
theorem acquire_spec (p : Pool) (w h : Nat) (now : Instant) (hfit : p.reserved + w * h * 4 < wordSize) :
    ∃ out, p.acquire w h now = .ok out ∧ Acquired p (w * h * 4) now out := by
  rcases hacq : p.acquire w h now with e | out
  · have := (acquire_error_iff p w h now).1 ⟨e, hacq⟩
    omega
  · exact ⟨out, rfl, acquired_of_acquire_eq_ok hacq⟩

/-! ### The ceiling on what a pool reserves -/

/-- The largest budget a pool takes: 512 MiB. -/
theorem clampPoolSize_le (bytes : Nat) : clampPoolSize bytes ≤ 512 * mebibyte := by
  simp only [clampPoolSize, mebibyte]
  omega

theorem reserved_le_of_subperm {p q : Pool} (h : q.entries.Subperm p.entries) : q.reserved ≤ p.reserved := by
  obtain ⟨l, hperm, hsub⟩ := h
  rw [reserved_eq_sum, reserved_eq_sum, ← (hperm.map _).sum_eq]
  exact (hsub.map _).sum_le_sum fun _ _ => Nat.zero_le _

/-- Releasing a buffer reserves nothing more. -/
theorem reserved_release_le (p : Pool) (id : Nat) (now : Instant) : (p.release id now).reserved ≤ p.reserved := by
  unfold Pool.release
  split
  · exact Nat.le_refl _
  · rename_i i hfind
    obtain ⟨hi, -⟩ := List.findIdx?_eq_some_iff_getElem.1 hfind
    split
    · exact reserved_le_of_subperm (q := { p with entries := swapRemove p.entries i })
        ((swapRemove_perm hi).subperm.trans (List.eraseIdx_sublist _ i).subperm)
    · -- the entry is freed in place: reservations stay
      obtain ⟨pre, post, hes, -, -, hmodify⟩ := exists_split hi
      rw [reserved_eq_sum, reserved_eq_sum, hmodify]
      conv => rhs; rw [hes]
      simp

theorem capacity_release (p : Pool) (id : Nat) (now : Instant) : (p.release id now).capacity = p.capacity := by
  unfold Pool.release
  split
  · rfl
  · split <;> rfl

/-- A pool within the largest budget: its budget and its reservations are at most 512 MiB. -/
structure WithinCeiling (p : Pool) : Prop where
  capacity_le : p.capacity ≤ 512 * mebibyte
  reserved_le : p.reserved ≤ 512 * mebibyte

theorem WithinCeiling.acquired {p : Pool} {n : Nat} {now : Instant} {out : Option Nat × Pool}
    (hp : WithinCeiling p) (h : Acquired p n now out) : WithinCeiling out.2 := by
  cases h with
  | reuse i hi _ =>
    -- lending the entry again changes no reservation
    obtain ⟨pre, post, hes, hset, -, -⟩ := exists_split hi
    refine ⟨hp.capacity_le, ?_⟩
    have hres : (p.entries.set i { p.entries[i] with inUse := true }).map (·.reserved) =
        p.entries.map (·.reserved) := by
      rw [hset]
      conv => rhs; rw [hes]
      simp
    have := hp.reserved_le
    rw [reserved_eq_sum] at this ⊢
    rw [hres]
    exact this
  | allocate _ hfit =>
    refine ⟨hp.capacity_le, ?_⟩
    have := hp.capacity_le
    have hres : ({ p with entries := p.entries ++ [⟨p.nextId, n, now, true⟩] } : Pool).reserved
        = p.reserved + n := by
      rw [reserved_eq_sum, reserved_eq_sum]
      simp
    simp only at hres ⊢
    rw [reserved_eq_sum] at hres ⊢
    simp only at hres ⊢
    omega
  | exhaust => exact ⟨hp.capacity_le, hp.reserved_le⟩

theorem WithinCeiling.release {p : Pool} (hp : WithinCeiling p) (id : Nat) (now : Instant) :
    WithinCeiling (p.release id now) :=
  ⟨capacity_release p id now ▸ hp.capacity_le, (reserved_release_le p id now).trans hp.reserved_le⟩

theorem WithinCeiling.shrink {p q : Pool} (hp : WithinCeiling p) (hsub : q.entries.Subperm p.entries)
    (hcap : q.capacity ≤ 512 * mebibyte) : WithinCeiling q :=
  ⟨hcap, (reserved_le_of_subperm hsub).trans hp.reserved_le⟩

theorem WithinCeiling.sweepAt {p : Pool} (hp : WithinCeiling p) (now : Instant) :
    WithinCeiling (p.sweepAt now).2 := by
  refine hp.shrink ((prune_subperm _).trans List.filter_sublist.subperm) ?_
  show (prune _).2.capacity ≤ _
  rw [prune_capacity]
  exact hp.capacity_le

theorem WithinCeiling.setCapacity {p : Pool} (hp : WithinCeiling p) (capacity : Nat) :
    WithinCeiling (p.setCapacity capacity) := by
  refine hp.shrink (prune_subperm _) ?_
  show (prune _).2.capacity ≤ _
  rw [prune_capacity]
  exact clampPoolSize_le capacity

theorem WithinCeiling.clear {p : Pool} (hp : WithinCeiling p) : WithinCeiling p.clear :=
  hp.shrink List.filter_sublist.subperm hp.capacity_le

theorem withinCeiling_create (capacity : Nat) : WithinCeiling (Pool.create capacity) :=
  ⟨clampPoolSize_le capacity, Nat.zero_le _⟩

end Pool

namespace Lent

theorem WithinCeiling.step {s s' : Lent} (hs : Pool.WithinCeiling s.pool) :
    (op : Op) → op.step s = .ok s' → Pool.WithinCeiling s'.pool
  | .acquire w h now, hop => by
    rcases hacq : s.pool.acquire w h now with _ | out
    · simp [Op.step, Lent.acquire, hacq, bind, Except.bind, Functor.map, Except.map] at hop
    · have hwithin := hs.acquired (Pool.acquired_of_acquire_eq_ok hacq)
      obtain ⟨r, p⟩ := out
      cases r <;>
        simp only [Op.step, Lent.acquire, hacq, bind, Except.bind, pure, Except.pure, Functor.map,
          Except.map, Except.ok.injEq] at hop <;>
        exact hop ▸ hwithin
  | .drop hd now, hop => by
    cases hop
    unfold Lent.drop
    split
    · exact hs.release _ now
    · exact hs
  | .sweepAt now, hop => by
    cases hop
    exact hs.sweepAt now
  | .setCapacity n, hop => by
    cases hop
    exact hs.setCapacity n
  | .clear, hop => by
    cases hop
    exact hs.clear

/-- Every pool a run of requests reaches is within the largest budget. -/
theorem withinCeiling_run (capacity : Nat) (ops : List Op) {s : Lent}
    (hrun : run { pool := Pool.create capacity } ops = .ok s) : Pool.WithinCeiling s.pool :=
  run_induction (P := fun s => Pool.WithinCeiling s.pool) (fun _ _ op hs hop => WithinCeiling.step hs op hop)
    ops (Pool.withinCeiling_create capacity) hrun

end Lent

namespace Pool

/-- **A request stops on an overflow exactly when `reserved + w · h · 4` leaves the word**, in
every pool that a run of requests reaches. Otherwise it lends a buffer exactly when the bytes fit
a free entry or the rest of the budget, and refuses. A request that large finds no free entry to
reuse, since no pool reaches 512 MiB of reservations. -/
theorem acquire_stops_iff_sum_overflows (capacity : Nat) (ops : List Lent.Op) {s : Lent}
    (hrun : Lent.run { pool := Pool.create capacity } ops = .ok s) (w h : Nat) (now : Instant) :
    ((∃ e, s.pool.acquire w h now = .error e) ↔ wordSize ≤ s.pool.reserved + w * h * 4) ∧
      ∀ out, s.pool.acquire w h now = .ok out →
        (out.1.isSome ↔ (∃ e ∈ s.pool.entries, e.inUse = false ∧ w * h * 4 ≤ e.reserved) ∨
          s.pool.reserved + w * h * 4 ≤ s.pool.capacity) := by
  have hceil := (Lent.withinCeiling_run capacity ops hrun).reserved_le
  simp only [mebibyte] at hceil
  refine ⟨?_, fun out hacq => (acquired_of_acquire_eq_ok hacq).isSome_iff⟩
  rw [acquire_error_iff]
  constructor
  · rintro (hn | ⟨-, hsum⟩) <;> omega
  · intro hsum
    -- the bytes exceed every entry, each reserving at most what the pool does
    refine .inr ⟨fun e he _ => ?_, hsum⟩
    have hle : e.reserved ≤ s.pool.reserved := by
      rw [reserved_eq_sum]
      exact List.le_sum_of_mem (List.mem_map_of_mem he)
    have : 2 ^ 64 = wordSize := rfl
    omega

/-- A buffer of 4 bytes lent, then a request whose byte count fits the word but whose budget
check does not: the request stops. -/
theorem acquire_stops_iff_sum_overflows_after_small_loan :
    ∃ s, Lent.run { pool := Pool.create 0 } [.acquire 1 1 (Instant.tick 1)] = .ok s ∧
      ∃ e, s.pool.acquire 2147483647 2147483649 (Instant.tick 2) = .error e :=
  let ⟨s, hs⟩ : ∃ s, Lent.run { pool := Pool.create 0 } [.acquire 1 1 (Instant.tick 1)] = .ok s := ⟨_, rfl⟩
  have hres : s.pool.reserved = 4 := by
    rw [show s = _ from (Except.ok.inj hs).symm]
    rfl
  ⟨s, hs, ((acquire_stops_iff_sum_overflows 0 _ hs _ _ _).1).2 (by rw [hres]; decide)⟩

/-- The largest 32-bit sides ask for more bytes than a word holds: the request stops on the
product, where a refusal was expected. -/
theorem acquire_largest_sides_overflows :
    (Pool.create (16 * mebibyte)).acquire u32Max u32Max (Instant.tick 1) = .error .mul :=
  acquire_eq_error_mul _ _ (by decide)

end Pool
end Cache
end Thumbnailer
