import Thumbnailer.Proofs.Cache.PoolAcquire

/-!
# Pruning a pool to its budget

A pool goes over its budget when the budget is cut while buffers are lent out. Pruning then takes
out free entries, always the least recently used one left, until the pool fits its budget or no
free entry is left. `PrunedBy p gone p'` says this of the entries `gone` taken out, in order,
without the loop: they were free, each was the least recently used of the free entries left at
its turn (so they come oldest first), each went while the pool was over its budget, and the
pool left fits its budget or has nothing free. Removal moves the last entry into the gap, so the
entries left are a reordering of the rest (`List.Perm`).

A new budget is clamped to 16–512 MiB and then pruned to; a sweep first drops the free entries
idle for more than five minutes and then prunes, and returns how many entries went in all.
Neither, nor a release, changes the counters of acquisitions, so on every run the reuses,
allocations and refusals add up to the acquisitions made (`tally_run`).

Main statement: `acquire_and_prune_follow_policy`.
-/

namespace Thumbnailer
namespace Cache
namespace Pool

/-- The time order of two entries' last use is the order the pruning scan ranks them by. -/
theorem lexLt_lastUsed (a b : Entry) :
    lexLt (a.lastUsed.secs, a.lastUsed.ticks) (b.lastUsed.secs, b.lastUsed.ticks) =
      Instant.before a.lastUsed b.lastUsed := rfl

/-- Pruning `p` took out the entries `gone`, in that order, and left `p'`. -/
structure PrunedBy (p : Pool) (gone : List Entry) (p' : Pool) : Prop where
  /-- Only the entries change. -/
  rest : p' = { p with entries := p'.entries }
  /-- The entries left and the entries taken out are the entries. -/
  perm : p.entries.Perm (p'.entries ++ gone)
  /-- Only free entries are taken out. -/
  free : ∀ e ∈ gone, e.inUse = false
  /-- They go oldest first. -/
  ascending : gone.Pairwise fun a b => Instant.before b.lastUsed a.lastUsed = false
  /-- No free entry left was used before one that went. -/
  oldest : ∀ e ∈ gone, ∀ f ∈ p'.entries, f.inUse = false → Instant.before f.lastUsed e.lastUsed = false
  /-- Each went while the pool was over its budget. -/
  overBudget : ∀ j < gone.length, p.capacity < p'.reserved + ((gone.drop j).map (·.reserved)).sum
  /-- The pool left fits its budget or has nothing free. -/
  stops : p'.reserved ≤ p.capacity ∨ ∀ f ∈ p'.entries, f.inUse = true

theorem prunedBy_nil {p : Pool} (hstop : p.reserved ≤ p.capacity ∨ ∀ f ∈ p.entries, f.inUse = true) :
    PrunedBy p [] p where
  rest := rfl
  perm := by rw [List.append_nil]
  free _ h := absurd h List.not_mem_nil
  ascending := List.Pairwise.nil
  oldest _ h := absurd h List.not_mem_nil
  overBudget _ h := absurd h (Nat.not_lt_zero _)
  stops := hstop

/-- Every free entry ranks no earlier than the one a scan returns. -/
theorem FirstMin.not_lt_of_mem {es : List Entry} {ok : Entry → Bool} {key : Entry → Nat × Nat} {i : Nat}
    (h : FirstMin es ok key i) (hi : i < es.length) {y : Entry} (hy : y ∈ es) (hok : ok y = true) :
    lexLt (key y) (key es[i]) = false := by
  obtain ⟨j, hj, rfl⟩ := List.getElem_of_mem hy
  exact (h.2.2 j hj hok).1

/-- **One round of pruning, then the rest.** The round takes out the least recently used free
entry `x` while over budget; the rounds after it take out `gone`. -/
theorem PrunedBy.round {q q' : Pool} {i : Nat} {gone : List Entry}
    (hover : q.capacity < q.reserved)
    (hmin : FirstMin q.entries (fun e => !e.inUse) (fun e => (e.lastUsed.secs, e.lastUsed.ticks)) i)
    (hi : i < q.entries.length) (hrest : PrunedBy { q with entries := swapRemove q.entries i } gone q') :
    PrunedBy q (q.entries[i] :: gone) q' := by
  have hfree : q.entries[i].inUse = false := by simpa using hmin.2.1
  -- the entry taken out is cut out of the middle; the last entry fills the gap
  obtain ⟨pre, post, hes, -, herase, -⟩ := exists_split hi
  have hswap : (swapRemove q.entries i).Perm (pre ++ post) := herase ▸ swapRemove_perm hi
  have hperm : q.entries.Perm (q'.entries ++ q.entries[i] :: gone) := by
    have hmiddle := @List.perm_middle _ q.entries[i] pre post
    rw [← hes] at hmiddle
    calc List.Perm q.entries (q.entries[i] :: (pre ++ post)) := hmiddle
      List.Perm _ (q.entries[i] :: (q'.entries ++ gone)) := (hswap.symm.trans hrest.perm).cons _
      List.Perm _ (q'.entries ++ q.entries[i] :: gone) := List.perm_middle.symm
  -- the entries left later were all in the pool at this round
  have hsub : ∀ f ∈ q'.entries ++ gone, f ∈ q.entries := fun f hf =>
    hperm.symm.subset (List.mem_append.2 ((List.mem_append.1 hf).imp id (List.mem_cons_of_mem _)))
  have hfirst : ∀ f ∈ q'.entries ++ gone, f.inUse = false →
      Instant.before f.lastUsed q.entries[i].lastUsed = false := fun f hf hff => by
    rw [← lexLt_lastUsed]
    exact hmin.not_lt_of_mem hi (hsub f hf) (by simp [hff])
  refine ⟨?_, hperm, ?_, ?_, ?_, ?_, hrest.stops⟩
  · rw [hrest.rest]
  · intro e he
    rcases List.mem_cons.1 he with rfl | he
    · exact hfree
    · exact hrest.free e he
  · refine List.pairwise_cons.2 ⟨fun b hb => hfirst b (List.mem_append_right _ hb) (hrest.free b hb), hrest.ascending⟩
  · intro e he f hf hff
    rcases List.mem_cons.1 he with rfl | he
    · exact hfirst f (List.mem_append_left _ hf) hff
    · exact hrest.oldest e he f hf hff
  · intro j hj
    cases j with
    | zero =>
      -- before this round the pool held everything: it was over its budget
      have hsum : q.reserved = q'.reserved + ((q.entries[i] :: gone).map (·.reserved)).sum := by
        rw [reserved_eq_sum, reserved_eq_sum, (hperm.map _).sum_eq]
        simp
      rw [List.drop_zero, ← hsum]
      exact hover
    | succ j => exact hrest.overBudget j (by simpa using hj)

/-- **Pruning is a run of rounds**, each taking out the least recently used free entry while the
pool is over its budget. The induction follows the loop's fuel, which covers the entries. -/
theorem prune_go_prunedBy (fuel n : Nat) (q : Pool) (hfuel : q.entries.length ≤ fuel) :
    ∃ gone, PrunedBy q gone (prune.go fuel n q).2 ∧ (prune.go fuel n q).1 = n + gone.length := by
  induction fuel generalizing n q with
  | zero =>
    have hnil : q.entries = [] := List.eq_nil_of_length_eq_zero (Nat.le_zero.1 hfuel)
    exact ⟨[], prunedBy_nil (.inr fun f hf => absurd (hnil ▸ hf) List.not_mem_nil), rfl⟩
  | succ fuel ih =>
    simp only [prune.go]
    split
    · rename_i hfit
      exact ⟨[], prunedBy_nil (.inl hfit), rfl⟩
    · rename_i hover
      split
      · rename_i hnone
        -- nothing is free: every entry is lent
        exact ⟨[], prunedBy_nil (.inr fun f hf => by simpa using argMinBy_eq_none hnone f hf), rfl⟩
      · rename_i i hi
        have hmin := argMinBy_firstMin hi
        have hlen : (swapRemove q.entries i).length ≤ fuel := by
          rw [swapRemove_length q.entries i hmin.1]
          omega
        obtain ⟨gone, hgone, hcount⟩ := ih (n + 1) { q with entries := swapRemove q.entries i } hlen
        refine ⟨_ :: gone, PrunedBy.round (by omega) hmin hmin.1 hgone, ?_⟩
        rw [hcount, List.length_cons]
        omega

/-- What pruning does, and the count it returns. -/
theorem prune_prunedBy (p : Pool) : ∃ gone, PrunedBy p gone (prune p).2 ∧ (prune p).1 = gone.length := by
  obtain ⟨gone, h, hcount⟩ := prune_go_prunedBy p.entries.length 0 p (Nat.le_refl _)
  exact ⟨gone, h, by rw [prune, hcount, Nat.zero_add]⟩

/-! ### A new budget and a sweep -/

/-- A budget is clamped to 16–512 MiB. -/
theorem clampPoolSize_spec (bytes : Nat) :
    16 * mebibyte ≤ clampPoolSize bytes ∧ clampPoolSize bytes ≤ 512 * mebibyte ∧
      (16 * mebibyte ≤ bytes → bytes ≤ 512 * mebibyte → clampPoolSize bytes = bytes) := by
  simp only [clampPoolSize]
  omega

/-- A new budget is the clamped one, and the pool is pruned to it. -/
theorem setCapacity_prunedBy (p : Pool) (capacity : Nat) :
    (p.setCapacity capacity).capacity = clampPoolSize capacity ∧
      ∃ gone, PrunedBy { p with capacity := clampPoolSize capacity } gone (p.setCapacity capacity) := by
  obtain ⟨gone, h, -⟩ := prune_prunedBy { p with capacity := clampPoolSize capacity }
  exact ⟨prune_capacity _, gone, h⟩

/-- The entries a sweep keeps before pruning: lent, or used within the last five minutes. -/
theorem sweepAt_prunedBy (p : Pool) (now : Instant) :
    ∃ gone, PrunedBy { p with entries := p.entries.filter fun e => e.inUse || !Instant.elapsedOver now e.lastUsed 300 }
        gone (p.sweepAt now).2 ∧
      (p.sweepAt now).1 =
        (p.entries.filter fun e => !e.inUse && Instant.elapsedOver now e.lastUsed 300).length + gone.length ∧
      (p.sweepAt now).1 + (p.sweepAt now).2.entries.length = p.entries.length := by
  obtain ⟨gone, h, hcount⟩ := prune_prunedBy
    { p with entries := p.entries.filter fun e => e.inUse || !Instant.elapsedOver now e.lastUsed 300 }
  -- the idle free entries are exactly those the filter drops
  have hidle : p.entries.length - (p.entries.filter fun e => e.inUse || !Instant.elapsedOver now e.lastUsed 300).length =
      (p.entries.filter fun e => !e.inUse && Instant.elapsedOver now e.lastUsed 300).length := by
    have hsplit := List.length_eq_length_filter_add (l := p.entries)
      (fun e => e.inUse || !Instant.elapsedOver now e.lastUsed 300)
    have hneg : (p.entries.filter fun e => !(e.inUse || !Instant.elapsedOver now e.lastUsed 300)) =
        p.entries.filter fun e => !e.inUse && Instant.elapsedOver now e.lastUsed 300 :=
      List.filter_congr fun e _ => by cases e.inUse <;> simp
    rw [hneg] at hsplit
    omega
  have hlen := h.perm.length_eq
  rw [List.length_append] at hlen
  refine ⟨gone, h, ?_, ?_⟩
  · show _ + (prune _).1 = _
    rw [hcount, hidle]
  · show _ + (prune _).1 + (prune _).2.entries.length = _
    rw [hcount]
    simp only at hlen
    have hle := List.length_filter_le (fun e => e.inUse || !Instant.elapsedOver now e.lastUsed 300) p.entries
    omega

/-! ### The counters -/

/-- A release changes no counter. -/
theorem tally_release (p : Pool) (id : Nat) (now : Instant) : (p.release id now).tally = p.tally := by
  unfold Pool.release
  split
  · rfl
  · split <;> rfl

theorem tally_prune (p : Pool) : (prune p).2.tally = p.tally :=
  prune_induction (P := fun q => q.tally = p.tally) (fun _ _ _ _ hq => hq) rfl

end Pool

namespace Lent

/-- Whether a request is an acquisition. -/
def Op.isAcquire : Op → Bool
  | .acquire _ _ _ => true
  | _ => false

/-- An acquisition counts once; no other request counts. -/
theorem Op.tally_step {s s' : Lent} : (op : Op) → op.step s = .ok s' →
    s'.pool.tally = s.pool.tally + (if op.isAcquire then 1 else 0)
  | .acquire w h now, hop => by
    rcases hacq : s.pool.acquire w h now with _ | out
    · simp [Op.step, Lent.acquire, hacq, bind, Except.bind, Functor.map, Except.map] at hop
    · have htally := (Pool.acquired_of_acquire_eq_ok hacq).tally
      obtain ⟨r, p⟩ := out
      cases r <;>
        simp only [Op.step, Lent.acquire, hacq, bind, Except.bind, pure, Except.pure, Functor.map,
          Except.map, Except.ok.injEq] at hop <;>
        subst hop <;>
        simpa [Op.isAcquire] using htally
  | .drop hd now, hop => by
    cases hop
    unfold Lent.drop
    split
    · simp [Pool.tally_release, Op.isAcquire]
    · simp [Op.isAcquire]
  | .sweepAt now, hop => by
    cases hop
    show (Pool.prune _).2.tally = _
    rw [Pool.tally_prune]
    rfl
  | .setCapacity n, hop => by
    cases hop
    show (Pool.prune _).2.tally = _
    rw [Pool.tally_prune]
    rfl
  | .clear, hop => by
    cases hop
    rfl

/-- **The counters count the acquisitions of a run**, one each. -/
theorem tally_run (ops : List Op) : ∀ {s s' : Lent}, run s ops = .ok s' →
    s'.pool.tally = s.pool.tally + ops.countP Op.isAcquire := by
  induction ops with
  | nil =>
    intro s s' h
    simp only [run, Except.ok.injEq] at h
    subst h
    rfl
  | cons op ops ih =>
    intro s s' h
    unfold run at h
    split at h
    · cases h
    · rename_i s₁ hop
      rw [ih h, Op.tally_step op hop, List.countP_cons]
      omega

end Lent

namespace Pool

/-- **Acquisition and pruning follow their policy.** An acquisition of `w · h · 4` bytes whose
budget check fits the word lends the first of the smallest free entries holding the bytes, or
makes a new entry of those bytes within the budget, or refuses, counting which; so on every run
the reuses, allocations and refusals add up to the acquisitions made. A new budget is clamped
to 16–512 MiB; it, and a sweep after dropping the free entries idle for over five minutes, take
out free entries least recently used first, only while the pool is over its budget, until it
fits or nothing free is left. A sweep returns how many entries it took out in all. -/
theorem acquire_and_prune_follow_policy (p : Pool) (w h capacity : Nat) (now : Instant) :
    (p.reserved + w * h * 4 < wordSize → ∃ out, p.acquire w h now = .ok out ∧ Acquired p (w * h * 4) now out) ∧
    (∀ (ops : List Lent.Op) (s : Lent), Lent.run { pool := create capacity } ops = .ok s →
      s.pool.reuses + s.pool.allocations + s.pool.exhausted = ops.countP Lent.Op.isAcquire) ∧
    ((p.setCapacity capacity).capacity = clampPoolSize capacity ∧
      16 * mebibyte ≤ clampPoolSize capacity ∧ clampPoolSize capacity ≤ 512 * mebibyte ∧
      (16 * mebibyte ≤ capacity → capacity ≤ 512 * mebibyte → clampPoolSize capacity = capacity) ∧
      ∃ gone, PrunedBy { p with capacity := clampPoolSize capacity } gone (p.setCapacity capacity)) ∧
    (∃ gone,
      PrunedBy { p with entries := p.entries.filter fun e => e.inUse || !Instant.elapsedOver now e.lastUsed 300 }
        gone (p.sweepAt now).2 ∧
      (p.sweepAt now).1 =
        (p.entries.filter fun e => !e.inUse && Instant.elapsedOver now e.lastUsed 300).length + gone.length ∧
      (p.sweepAt now).1 + (p.sweepAt now).2.entries.length = p.entries.length) := by
  refine ⟨acquire_spec p w h now, fun ops s hrun => ?_, ?_, sweepAt_prunedBy p now⟩
  · have := Lent.tally_run ops hrun
    simpa [tally, create] using this
  · obtain ⟨hcap, hpruned⟩ := setCapacity_prunedBy p capacity
    exact ⟨hcap, clampPoolSize_spec capacity |>.1, clampPoolSize_spec capacity |>.2.1,
      clampPoolSize_spec capacity |>.2.2, hpruned⟩

/-- Two requests for 400 bytes on a new pool: the first is served, and both are counted. -/
theorem acquire_and_prune_follow_policy_on_new_pool :
    ((Pool.create 0).reserved + 10 * 10 * 4 < wordSize ∧
      ∃ out, (Pool.create 0).acquire 10 10 (Instant.tick 1) = .ok out ∧
        Acquired (Pool.create 0) (10 * 10 * 4) (Instant.tick 1) out) ∧
    ∃ s, Lent.run { pool := Pool.create 0 } [.acquire 10 10 (Instant.tick 1), .acquire 10 10 (Instant.tick 2)] = .ok s ∧
      s.pool.reuses + s.pool.allocations + s.pool.exhausted = 2 :=
  let ⟨s, hs⟩ : ∃ s, Lent.run { pool := Pool.create 0 }
      [.acquire 10 10 (Instant.tick 1), .acquire 10 10 (Instant.tick 2)] = .ok s := ⟨_, rfl⟩
  ⟨⟨by decide, (acquire_and_prune_follow_policy (Pool.create 0) 10 10 0 (Instant.tick 1)).1 (by decide)⟩,
    s, hs, (acquire_and_prune_follow_policy (Pool.create 0) 10 10 0 (Instant.tick 1)).2.1 _ s hs⟩

/-- A buffer of 4 bytes lent, then a request of `2^64 − 4` bytes: the budget check's sum leaves
the word and the request stops, where a refusal was expected. -/
theorem budget_check_overflows_after_small_loan :
    ∃ s, Lent.run { pool := Pool.create (16 * mebibyte) } [.acquire 1 1 (Instant.tick 1)] = .ok s ∧
      s.pool.acquire 2147483647 2147483649 (Instant.tick 2) = .error .add :=
  let ⟨s, hs⟩ : ∃ s, Lent.run { pool := Pool.create (16 * mebibyte) } [.acquire 1 1 (Instant.tick 1)] = .ok s :=
    ⟨_, rfl⟩
  have hentries : s.pool.entries = [⟨0, 4, Instant.tick 1, true⟩] := by
    rw [show s = _ from (Except.ok.inj hs).symm]
    rfl
  ⟨s, hs, acquire_eq_error_add (by decide) (by rw [hentries]; decide)
    (by rw [reserved_eq_sum, hentries]; decide)⟩

end Pool
end Cache
end Thumbnailer
