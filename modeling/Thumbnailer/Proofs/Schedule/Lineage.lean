import Thumbnailer.Proofs.Schedule.Retries

/-!
# The retry policy, attempt by attempt

A request submitted to the scheduler starts a *lineage*: the request is dispatched as a job, the
job's outcome is resolved, and a failure that may be retried queues the request again
(`Request.retried`: one retry more, its priority raised by the penalty, a new stamp), to be
dispatched in turn. What a run shows of its requests (`Shown`) is the requests each dispatch starts
and the outcomes it resolves, in order; `follow` picks out a lineage's part of it by the stamp of
its current request.

`Lineage m r h σ` is the retry policy under limit `m`: the lineage of `r` that showed `h` stands at
`σ`. Each attempt is one dispatch and one resolution. A success ends the lineage; a failure that is
retryable and within the limit queues the request again; any other failure ends it, for good. No
branch is left for a retry the queue refuses: in a run that never happens (`HeldApart.work`).

What the policy gives a lineage run to its end:

* every attempt fails and may be retried: the request is dispatched `m + 1` times, retried `m`
  times with retry counts `1, …, m` and its priority raised by the penalty each time, saturating
  (`retryPlan_eq`), and then fails for good, once (`Lineage.failing`);
* a failure that may not be retried is resolved as failed for good, and nothing of the lineage
  follows it (`Lineage.final_failure`).
-/

namespace Thumbnailer
namespace Schedule

open Render

/-- What a run shows of its requests: a request a dispatch starts, or an outcome resolved and
its completion. -/
inductive Shown where
  | started (r : Request)
  | resolved (o : Outcome) (c : Completion)

namespace Shown

/-- Whether a dispatch started the request. -/
def isStarted : Shown → Bool
  | .started _ => true
  | .resolved .. => false

/-- The completion resolved, if any. -/
def completion? : Shown → Option Completion
  | .resolved _ c => some c
  | .started _ => none

/-- Whether what is shown is a start, or the resolution of an attempt that failed and may be
retried. -/
def retryableFailure : Shown → Bool
  | .started _ => true
  | .resolved o _ =>
    match o.result with
    | .error e => e.retryable
    | .ok _ => false

end Shown

/-- The request a completion queues again, if it is a retry. -/
def Completion.retried? : Completion → Option Request
  | .retrying r _ => some r
  | _ => none

/-- The retry count and priority a retry queues its request with. -/
def Completion.retryInfo? (c : Completion) : Option (Nat × Int) :=
  c.retried?.map fun r => (r.retryCount, r.priority)

/-! ### The retry policy, attempt by attempt -/

/-- Where a lineage stands: its current request waits, or is an active job's, or the lineage has
ended. -/
inductive Status where
  | waiting (r : Request)
  | running (r : Request)
  | ended

/-- The stamp of the current request; none once the lineage has ended. -/
def Status.stamp? : Status → Option Nat
  | .waiting r | .running r => some r.submittedAt
  | .ended => none

/-- **The retry policy.** Under retry limit `m`, the lineage of `r` showed `h` and stands at `σ`.
Each attempt is a dispatch of the current request and the resolution of the job: a success ends
the lineage, a failure that is retryable and leaves fewer than `m` retries behind queues the
request again, one retry more and stamped anew, and any other failure ends it for good. -/
inductive Lineage (m : Nat) : Request → List Shown → Status → Prop
  | waiting (r : Request) : Lineage m r [] (.waiting r)
  | running (r : Request) : Lineage m r [.started r] (.running r)
  | finished {r : Request} {o : Outcome} {b : Raster.Bitmap} (hj : o.job.request = r)
      (ho : o.result = .ok b) : Lineage m r [.started r, .resolved o (.finished r b)] .ended
  | failed {r : Request} {o : Outcome} {e : JobFailure} (hj : o.job.request = r)
      (ho : o.result = .error e) (hfinal : ¬(e.retryable = true ∧ r.retryCount < m)) :
      Lineage m r [.started r, .resolved o (.failed r e)] .ended
  | retried {r : Request} {o : Outcome} {e : JobFailure} {t : Nat} {h : List Shown} {σ : Status}
      (hj : o.job.request = r) (ho : o.result = .error e)
      (hretry : e.retryable = true ∧ r.retryCount < m) (hrest : Lineage m (r.retried t) h σ) :
      Lineage m r (.started r :: .resolved o (.retrying (r.retried t) e) :: h) σ

namespace Lineage

variable {m : Nat} {r₀ r : Request} {h h' : List Shown} {σ : Status}

/-- A lineage waiting on `r` goes on as the lineage of `r`. -/
theorem append (hl : Lineage m r₀ h (.waiting r)) (hr : Lineage m r h' σ) :
    Lineage m r₀ (h ++ h') σ := by
  generalize hw : Status.waiting r = w at hl
  induction hl with
  | waiting r' =>
    cases hw
    exact hr
  | running | finished | failed => cases hw
  | retried hj ho hretry _ ih => exact .retried hj ho hretry (ih hw)

/-- A lineage running `r` waited on it, and then started it. -/
theorem running_inv (hl : Lineage m r₀ h (.running r)) :
    ∃ h₁, h = h₁ ++ [.started r] ∧ Lineage m r₀ h₁ (.waiting r) := by
  generalize hw : Status.running r = w at hl
  induction hl with
  | running r' =>
    cases hw
    exact ⟨[], rfl, .waiting _⟩
  | waiting | finished | failed => cases hw
  | retried hj ho hretry _ ih =>
    obtain ⟨h₁, rfl, hl₁⟩ := ih hw
    exact ⟨_ :: _ :: h₁, rfl, .retried hj ho hretry hl₁⟩

/-- A dispatch starts the request waiting. -/
theorem start (hl : Lineage m r₀ h (.waiting r)) : Lineage m r₀ (h ++ [.started r]) (.running r) :=
  hl.append (.running r)

/-- A success ends the lineage. -/
theorem finish (hl : Lineage m r₀ h (.running r)) {o : Outcome} {b : Raster.Bitmap}
    (hj : o.job.request = r) (ho : o.result = .ok b) :
    Lineage m r₀ (h ++ [.resolved o (.finished r b)]) .ended := by
  obtain ⟨h₁, rfl, hl₁⟩ := hl.running_inv
  simpa using hl₁.append (.finished hj ho)

/-- A failure that may not be retried ends the lineage for good. -/
theorem fail (hl : Lineage m r₀ h (.running r)) {o : Outcome} {e : JobFailure}
    (hj : o.job.request = r) (ho : o.result = .error e)
    (hfinal : ¬(e.retryable = true ∧ r.retryCount < m)) :
    Lineage m r₀ (h ++ [.resolved o (.failed r e)]) .ended := by
  obtain ⟨h₁, rfl, hl₁⟩ := hl.running_inv
  simpa using hl₁.append (.failed hj ho hfinal)

/-- A failure that may be retried queues the request again. -/
theorem retry (hl : Lineage m r₀ h (.running r)) {o : Outcome} {e : JobFailure} (t : Nat)
    (hj : o.job.request = r) (ho : o.result = .error e)
    (hretry : e.retryable = true ∧ r.retryCount < m) :
    Lineage m r₀ (h ++ [.resolved o (.retrying (r.retried t) e)]) (.waiting (r.retried t)) := by
  obtain ⟨h₁, rfl, hl₁⟩ := hl.running_inv
  simpa using hl₁.append (.retried hj ho hretry (.waiting _))

/-- Every request of a lineage is for the page of the first. -/
theorem page (hl : Lineage m r₀ h σ) :
    (∀ r, σ = .waiting r → r.page = r₀.page) ∧ (∀ r, σ = .running r → r.page = r₀.page) := by
  induction hl with
  | waiting => exact ⟨by rintro _ ⟨⟩; rfl, by rintro _ ⟨⟩⟩
  | running => exact ⟨by rintro _ ⟨⟩, by rintro _ ⟨⟩; rfl⟩
  | finished | failed => exact ⟨by rintro _ ⟨⟩, by rintro _ ⟨⟩⟩
  | retried _ _ _ _ ih => exact ih

end Lineage

/-! ### Following a lineage along a run -/

/-- Follows a lineage along what a run shows, from the stamp of its current request (none once it
has ended) and what it has shown so far: the start of the request with that stamp, or the
resolution of a job of it, is the lineage's, and a retry's stamp is followed next. -/
def follow : Option Nat × List Shown → Shown → Option Nat × List Shown
  | (some t, h), .started x => if x.submittedAt = t then (some t, h ++ [.started x]) else (some t, h)
  | (some t, h), .resolved o c =>
    if o.job.request.submittedAt = t then (c.retried?.map (·.submittedAt), h ++ [.resolved o c])
    else (some t, h)
  | (none, h), _ => (none, h)

/-- A lineage that has ended shows nothing more. -/
theorem foldl_follow_none (l : List Shown) (h : List Shown) : l.foldl follow (none, h) = (none, h) := by
  induction l with
  | nil => rfl
  | cons x l ih =>
    cases x <;> exact ih

/-- Of the requests a dispatch starts, the lineage shows those with its stamp. -/
theorem foldl_follow_started (l : List Request) (t : Nat) (h : List Shown) :
    (l.map .started).foldl follow (some t, h) =
      (some t, h ++ (l.filter (·.submittedAt = t)).map .started) := by
  induction l generalizing h with
  | nil => simp
  | cons x l ih =>
    by_cases hx : x.submittedAt = t
    · simp [follow, hx, ih]
    · simp [follow, hx, ih]

/-- A lineage is shown a part of what the run shows, in its order. -/
theorem foldl_follow_sublist (l : List Shown) (st : Option Nat × List Shown) :
    ∃ l', l'.Sublist l ∧ (l.foldl follow st).2 = st.2 ++ l' := by
  induction l generalizing st with
  | nil => exact ⟨[], List.Sublist.slnil, by simp⟩
  | cons x l ih =>
    -- the event is the lineage's, or not
    have hx : (follow st x).2 = st.2 ∨ (follow st x).2 = st.2 ++ [x] := by
      rcases st with ⟨_ | t, h⟩
      · exact .inl rfl
      · cases x <;> simp only [follow] <;> split <;> simp
    obtain ⟨l', hl', he⟩ := ih (follow st x)
    rcases hx with hx | hx
    · exact ⟨l', hl'.cons x, by rw [List.foldl_cons, he, hx]⟩
    · exact ⟨x :: l', hl'.cons_cons x, by rw [List.foldl_cons, he, hx, List.append_assoc]; rfl⟩

/-! ### A lineage run to its end -/

/-- The retry counts and priorities of `n` retries in a row of a request with `k` retries behind it
and priority `q`: each counts one retry more and raises the priority by the penalty. -/
def retryPlan : Nat → Nat → Int → List (Nat × Int)
  | 0, _, _ => []
  | n + 1, k, q =>
    (k + 1, Word.addI32Saturating q retryPenalty) ::
      retryPlan n (k + 1) (Word.addI32Saturating q retryPenalty)

/-- Raising a 32-bit priority by the penalty saturates at the top only. -/
theorem addI32Saturating_retryPenalty {q : Int} (hq : i32Min ≤ q) :
    Word.addI32Saturating q retryPenalty = min i32Max (q + retryPenalty) := by
  have hb : i32Min ≤ i32Max := by decide
  have hp : retryPenalty = 10 := rfl
  simp only [Word.addI32Saturating]
  omega

/-- **The retries of a 32-bit priority, in closed form**: the `i`-th retry in a row counts `i`
retries more and has the priority raised by `i` penalties, saturating at the largest 32-bit
word. -/
theorem retryPlan_eq (n k : Nat) {q : Int} (hq : i32Min ≤ q) :
    retryPlan n k q =
      (List.range n).map fun i => (k + i + 1, min i32Max (q + retryPenalty * (i + 1))) := by
  induction n generalizing k q with
  | zero => rfl
  | succ n ih =>
    have hb : i32Min ≤ i32Max := by decide
    have hp : retryPenalty = 10 := rfl
    have hq' : i32Min ≤ Word.addI32Saturating q retryPenalty := by
      rw [addI32Saturating_retryPenalty hq]
      omega
    rw [retryPlan, ih (k + 1) hq', addI32Saturating_retryPenalty hq, List.range_succ_eq_map,
      List.map_cons, List.map_map]
    refine congrArg₂ List.cons (by simp) (List.map_congr_left fun i _ => ?_)
    simp only [Function.comp_apply, Prod.mk.injEq, hp]
    constructor <;> omega

example : retryPlan 3 0 2147483630 =
    [(1, 2147483640), (2, 2147483647), (3, 2147483647)] := by decide

namespace Lineage

variable {m : Nat} {r₀ r : Request} {h : List Shown} {σ : Status}

/-- **A lineage whose every attempt fails and may be retried**, run to its end from a request with
`k ≤ m` retries behind it: it is dispatched `m - k + 1` times, and its completions are `m - k`
retries, with the counts and priorities of `retryPlan`, and then one failure for good. -/
theorem failing (hl : Lineage m r h .ended) (hf : ∀ x ∈ h, x.retryableFailure = true)
    (hk : r.retryCount ≤ m) :
    h.countP Shown.isStarted = m - r.retryCount + 1 ∧
      ∃ cs rq e, h.filterMap Shown.completion? = cs ++ [.failed rq e] ∧
        cs.length = m - r.retryCount ∧ (∀ c ∈ cs, c.isRetrying = true) ∧
        cs.filterMap Completion.retryInfo? = retryPlan (m - r.retryCount) r.retryCount r.priority := by
  generalize hσ : Status.ended = σ at hl
  induction hl with
  | waiting | running => cases hσ
  | @finished r o b hj ho =>
    have := hf (.resolved o (.finished r b)) (by simp)
    simp [Shown.retryableFailure, ho] at this
  | @failed r o e hj ho hfinal =>
    -- the failure may be retried, so the retries are spent
    have hre : e.retryable = true := by
      simpa [Shown.retryableFailure, ho] using hf (.resolved o (.failed r e)) (by simp)
    have hm : r.retryCount = m := by
      have := hfinal
      simp only [hre, true_and, Nat.not_lt] at this
      omega
    refine ⟨by simp [List.countP_cons, Shown.isStarted, hm], [], r, e,
      by simp [List.filterMap_cons, Shown.completion?], by simp [hm], by simp, by simp [hm, retryPlan]⟩
  | @retried r o e t h' σ hj ho hretry _ ih =>
    obtain ⟨hn, cs, rq, e', hcs, hlen, hall, hinfo⟩ :=
      ih (fun x hx => hf x (by simp [hx])) (by simp only [Request.retried]; omega) hσ
    have hsub : m - r.retryCount = m - (r.retryCount + 1) + 1 := by omega
    refine ⟨?_, .retrying (r.retried t) e :: cs, rq, e', ?_, ?_, ?_, ?_⟩
    · simp only [List.countP_cons, hn, Shown.isStarted, Request.retried]
      simp only [Bool.false_eq_true, if_false, if_true]
      omega
    · simp [List.filterMap_cons, Shown.completion?, hcs]
    · simp only [List.length_cons, hlen, Request.retried]
      omega
    · simpa [Completion.isRetrying] using hall
    · simp only [List.filterMap_cons, Completion.retryInfo?, Completion.retried?, Option.map_some,
        hinfo, hsub, retryPlan]
      rfl

/-- **A failure that may not be retried ends the lineage**: it is resolved as a failure for good,
it is the last thing the lineage shows, and the lineage has ended. -/
theorem final_failure (hl : Lineage m r h σ) {o : Outcome} {c : Completion} {e : JobFailure}
    (hx : .resolved o c ∈ h) (ho : o.result = .error e) (he : e.retryable = false) :
    c = .failed o.job.request e ∧ h.getLast? = some (.resolved o c) ∧ σ = .ended := by
  induction hl with
  | waiting => simp at hx
  | running => simp at hx
  | @finished r o' b hj ho' =>
    simp only [List.mem_cons, Shown.resolved.injEq, List.not_mem_nil, reduceCtorEq, false_or,
      or_false] at hx
    obtain ⟨rfl, rfl⟩ := hx
    simp [ho] at ho'
  | @failed r o' e' hj ho' hfinal =>
    simp only [List.mem_cons, Shown.resolved.injEq, List.not_mem_nil, reduceCtorEq, false_or,
      or_false] at hx
    obtain ⟨rfl, rfl⟩ := hx
    have hee : e' = e := by simpa [ho] using ho'.symm
    subst hee
    exact ⟨by rw [hj], rfl, rfl⟩
  | @retried r o' e' t h' σ hj ho' hretry hrest ih =>
    simp only [List.mem_cons, Shown.resolved.injEq, reduceCtorEq, false_or] at hx
    rcases hx with ⟨rfl, rfl⟩ | hx
    · -- this failure was retried, so it may be retried
      have hee : e' = e := by simpa [ho] using ho'.symm
      rw [hee, he] at hretry
      exact absurd hretry.1 (by simp)
    · obtain ⟨hc, hlast, hσ⟩ := ih hx
      refine ⟨hc, ?_, hσ⟩
      rw [List.getLast?_cons_cons, List.getLast?_cons, hlast]
      rfl

end Lineage

end Schedule
end Thumbnailer
