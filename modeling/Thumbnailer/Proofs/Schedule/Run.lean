import Thumbnailer.Schedule.Scheduler

/-!
# Runs of the scheduler

A scheduler changes when its owner calls it and when one of its workers ends a job.
`Scheduler.Op` names each of these events with its arguments, `Op.step` performs one and hands
back the completions it resolved, and `Scheduler.run` performs a sequence of them. Started from
`Scheduler.create`, the runs are every history a scheduler can have: any request submitted, any
job ended in any order with any result, any call made at any time.

Workers pick up pending tasks inside `settle`, which moves jobs from `pending` to `running` and
touches nothing else (`settle_eq`). `run_induction` is the induction every invariant of the
scheduler goes through: what holds at the start and survives each event holds after every run.
-/

namespace Thumbnailer
namespace Schedule

open Render

namespace Scheduler

/-- What can happen to a scheduler: a call of its owner, or a worker ending a job. -/
inductive Op where
  /-- The clock that stamps requests advances. -/
  | tick
  | submit (r : Request)
  | dispatch
  /-- The worker running the job in slot `i` of `running` ends it with `result`. -/
  | finish (i : Nat) (result : Except JobFailure Raster.Bitmap)
  | waitCompletion
  | drainCompletions
  | cancel (page : Nat)
  | setPriority (page : Nat) (priority : Int)
  | clearQueue
  | removeQueuedWhere (p : Request → Bool)
  | stop
  | pause
  | resume
  | setMaxConcurrentJobs (n : Nat)
  | adaptConcurrency
  | setMaxRetries (n : Nat)
  | setAdaptive (b : Bool)

/-- Performs an event; answers the completions it resolved, in order. -/
def Op.step : Op → Scheduler → List Completion × Scheduler
  | .tick, s => ([], s.tick.2)
  | .submit r, s => ([], (s.submit r).2)
  | .dispatch, s => ([], s.dispatch.2)
  | .finish i result, s =>
    match s.running[i]? with
    | some j => ([], s.post j result)
    | none => ([], s)
  | .waitCompletion, s => (s.waitCompletion.1.toList, s.waitCompletion.2)
  | .drainCompletions, s => s.drainCompletions
  | .cancel page, s => ([], (s.cancel page).2)
  | .setPriority page priority, s => ([], (s.setPriority page priority).2)
  | .clearQueue, s => ([], s.clearQueue.2)
  | .removeQueuedWhere p, s => ([], (s.removeQueuedWhere p).2)
  | .stop, s => ([], s.stop.2)
  | .pause, s => ([], s.pause)
  | .resume, s => ([], s.resume)
  | .setMaxConcurrentJobs n, s => ([], s.setMaxConcurrentJobs n)
  | .adaptConcurrency, s => ([], s.adaptConcurrency.2)
  | .setMaxRetries n, s => ([], s.setMaxRetries n)
  | .setAdaptive b, s => ([], s.setAdaptive b)

/-- The state after a sequence of events. -/
def run (s : Scheduler) (ops : List Op) : Scheduler := ops.foldl (fun s op => (op.step s).2) s

@[simp] theorem run_nil (s : Scheduler) : s.run [] = s := rfl

@[simp] theorem run_cons (s : Scheduler) (op : Op) (ops : List Op) :
    s.run (op :: ops) = (op.step s).2.run ops := rfl

theorem run_append (s : Scheduler) (ops₁ ops₂ : List Op) :
    s.run (ops₁ ++ ops₂) = (s.run ops₁).run ops₂ :=
  List.foldl_append

/-- **What every event keeps holds after every run.** -/
theorem run_induction {P : Scheduler → Prop} {s : Scheduler} (hs : P s)
    (hstep : ∀ s (op : Op), P s → P (op.step s).2) (ops : List Op) : P (s.run ops) := by
  induction ops generalizing s with
  | nil => exact hs
  | cons op ops ih => exact ih (hstep s op hs)

/-! ### What a run resolves -/

/-- The resolution `waitCompletion` performs: the state it starts from, the oldest posted
outcome and its completion; nothing when no outcome is posted. -/
def waitTrace (s : Scheduler) : List (Scheduler × Outcome × Completion) :=
  match s.posted with
  | [] => []
  | o :: rest => [(s, o, ({ s with posted := rest }.resolve o).1)]

/-- `n` waits in a row: the resolutions they perform and the state they leave. -/
def waits : Nat → Scheduler → List (Scheduler × Outcome × Completion) × Scheduler
  | 0, s => ([], s)
  | n + 1, s => (waitTrace s ++ (waits n s.waitCompletion.2).1, (waits n s.waitCompletion.2).2)

theorem waitCompletion_cons {s : Scheduler} {o : Outcome} {rest : List Outcome}
    (h : s.posted = o :: rest) :
    s.waitCompletion = (some ({ s with posted := rest }.resolve o).1,
      ({ s with posted := rest }.resolve o).2) := by
  simp [waitCompletion, h]

theorem waitCompletion_fst (s : Scheduler) :
    s.waitCompletion.1.toList = (waitTrace s).map (·.2.2) := by
  unfold waitTrace
  split
  · rename_i h
    simp [waitCompletion, h]
  · rename_i o rest h
    simp [waitCompletion_cons h]

theorem handleFailure_setPosted (s : Scheduler) (p : List Outcome) (r : Request) (e : JobFailure) :
    { s with posted := p }.handleFailure r e =
      ((s.handleFailure r e).1, { (s.handleFailure r e).2 with posted := p }) := by
  unfold handleFailure
  dsimp only
  split
  · rfl
  · simp only [tick]
    generalize s.queue.push _ = x
    rcases x with ⟨_ | _, q⟩ <;> rfl

/-- Resolving an outcome neither reads nor writes the posted ones. -/
theorem resolve_setPosted (s : Scheduler) (p : List Outcome) (o : Outcome) :
    { s with posted := p }.resolve o = ((s.resolve o).1, { (s.resolve o).2 with posted := p }) := by
  rcases o with ⟨j, result⟩
  have hl : ({ s with posted := p }).isLive j = s.isLive j := rfl
  unfold resolve
  dsimp only
  rw [hl]
  by_cases h : s.isLive j = true
  · rw [if_neg (by simp [h]), if_neg (by simp [h])]
    cases result with
    | ok b => rfl
    | error e => exact handleFailure_setPosted { s with active := s.active.filter (·.id != j.id) } p j.request e
  · rw [if_pos (by simpa using h), if_pos (by simpa using h)]

/-- Waiting resolves the oldest posted outcome and leaves the others posted. -/
theorem waitCompletion_eq {s : Scheduler} {o : Outcome} {rest : List Outcome}
    (h : s.posted = o :: rest) :
    s.waitCompletion = (some (s.resolve o).1, { (s.resolve o).2 with posted := rest }) := by
  rw [waitCompletion_cons h, resolve_setPosted]

theorem waitCompletion_nil {s : Scheduler} (h : s.posted = []) : s.waitCompletion = (none, s) := by
  simp [waitCompletion, h]

theorem waitCompletion_posted (s : Scheduler) : s.waitCompletion.2.posted = s.posted.tail := by
  unfold waitCompletion
  split
  · rename_i h
    simp [h]
  · rename_i o rest h
    simp [resolve_setPosted, h]

theorem waits_posted (n : Nat) (s : Scheduler) : (waits n s).2.posted = s.posted.drop n := by
  induction n generalizing s with
  | zero => rfl
  | succ n ih => simp [waits, ih, waitCompletion_posted]

/-- **Draining is waiting until nothing is posted**: the outcomes are resolved oldest first,
each against the state the previous ones left. -/
theorem drainCompletions_eq (s : Scheduler) :
    s.drainCompletions = ((waits s.posted.length s).1.map (·.2.2), (waits s.posted.length s).2) := by
  -- the fold resolves against a state whose posted outcomes were taken away; each wait leaves
  -- the same state with the outcomes not yet resolved still posted
  have key : ∀ (os : List Outcome) (cs : List Completion) (t : Scheduler), t.posted = os →
      os.foldl resolveNext (cs, { t with posted := [] }) =
        (cs ++ (waits os.length t).1.map (·.2.2), { (waits os.length t).2 with posted := [] }) := by
    intro os
    induction os with
    | nil => intro cs t _; simp [waits]
    | cons o os ih =>
      intro cs t ht
      have ih' := ih (cs ++ [(t.resolve o).1]) { (t.resolve o).2 with posted := os } rfl
      simp only [List.foldl_cons, resolveNext, resolve_setPosted, List.length_cons, waits,
        waitCompletion_cons ht, waitTrace, ht, List.map_cons, List.singleton_append,
        List.append_assoc] at ih' ⊢
      exact ih'
  have hp : (waits s.posted.length s).2.posted = [] := by simp [waits_posted]
  simp only [drainCompletions, key s.posted [] s rfl, List.nil_append]
  generalize (waits s.posted.length s).2 = t at hp
  cases t
  simp only at hp
  rw [hp]

/-- The outcomes an event resolves, each with the state it is resolved in and its completion. -/
def Op.trace : Op → Scheduler → List (Scheduler × Outcome × Completion)
  | .waitCompletion, s => waitTrace s
  | .drainCompletions, s => (waits s.posted.length s).1
  | _, _ => []

/-- Every resolution along a run, in order. -/
def trace (s : Scheduler) : List Op → List (Scheduler × Outcome × Completion)
  | [] => []
  | op :: ops => op.trace s ++ trace (op.step s).2 ops

theorem trace_append (s : Scheduler) (ops₁ ops₂ : List Op) :
    s.trace (ops₁ ++ ops₂) = s.trace ops₁ ++ (s.run ops₁).trace ops₂ := by
  induction ops₁ generalizing s with
  | nil => rfl
  | cons op ops ih => simp [trace, ih, List.append_assoc]

/-- The completions an event answers are those of its trace. -/
theorem Op.step_fst (op : Op) (s : Scheduler) : (op.step s).1 = (op.trace s).map (·.2.2) := by
  cases op with
  | waitCompletion => exact waitCompletion_fst s
  | drainCompletions => simp only [Op.step, Op.trace, drainCompletions_eq]
  | finish i result =>
    simp only [Op.step, Op.trace]
    split <;> rfl
  | _ => rfl

/-! ### Induction along what a run resolves -/

/-- A resolution as `waitCompletion` performs it: the outcome is the oldest one posted in the
state, and the completion is what resolving it gives. -/
def Resolves (e : Scheduler × Outcome × Completion) : Prop :=
  ∃ rest, e.1.posted = e.2.1 :: rest ∧ e.2.2 = (e.1.resolve e.2.1).1

theorem mem_waitTrace {s : Scheduler} {e : Scheduler × Outcome × Completion}
    (h : e ∈ waitTrace s) : e.1 = s ∧ Resolves e := by
  unfold waitTrace at h
  split at h
  · simp at h
  · rename_i o rest hp
    simp only [List.mem_singleton] at h
    subst h
    exact ⟨rfl, rest, hp, by rw [resolve_setPosted]⟩

section Accumulate

variable {α : Type} {Q : List α → Scheduler → Prop} (g : Scheduler × Outcome × Completion → Option α)

theorem waits_accumulate
    (hwait : ∀ acc s, Q acc s → Q (acc ++ (waitTrace s).filterMap g) s.waitCompletion.2)
    (n : Nat) {acc : List α} {s : Scheduler} (hs : Q acc s) :
    Q (acc ++ (waits n s).1.filterMap g) (waits n s).2 := by
  induction n generalizing acc s with
  | zero => simpa [waits] using hs
  | succ n ih =>
    have h := ih (hwait acc s hs)
    simpa [waits, List.filterMap_append, List.append_assoc] using h

/-- **What a run has resolved so far, together with its state.** A property of the state and
of what the resolutions produced so far (`g` picks it from each resolution) holds after every
run when the events that resolve nothing keep it, and each wait keeps it as it adds its
resolution. Draining is a sequence of waits (`drainCompletions_eq`). -/
theorem trace_accumulate (hstep : ∀ acc s (op : Op), op.trace s = [] → Q acc s → Q acc (op.step s).2)
    (hwait : ∀ acc s, Q acc s → Q (acc ++ (waitTrace s).filterMap g) s.waitCompletion.2)
    (ops : List Op) {acc : List α} {s : Scheduler} (hs : Q acc s) :
    Q (acc ++ (s.trace ops).filterMap g) (s.run ops) := by
  induction ops generalizing acc s with
  | nil => simpa [trace] using hs
  | cons op ops ih =>
    -- one event adds its own resolutions
    have h : Q (acc ++ (op.trace s).filterMap g) (op.step s).2 := by
      cases op with
      | waitCompletion => exact hwait acc s hs
      | drainCompletions =>
        simpa only [Op.trace, Op.step, drainCompletions_eq] using waits_accumulate g hwait _ hs
      | _ => simpa [Op.trace] using hstep acc s _ rfl hs
    simpa [trace, List.filterMap_append, List.append_assoc] using ih h

end Accumulate

/-- **Every resolution of a run starts from a state the run passes through**: what every event
keeps holds there. -/
theorem trace_forall {P : Scheduler → Prop} (hstep : ∀ s (op : Op), P s → P (op.step s).2)
    {s : Scheduler} (hs : P s) (ops : List Op) : ∀ e ∈ s.trace ops, P e.1 ∧ Resolves e := by
  -- accumulate the resolutions themselves, with the invariant of the current state
  have h := @trace_accumulate (Scheduler × Outcome × Completion)
    (fun acc t => P t ∧ ∀ e ∈ acc, P e.1 ∧ Resolves e) some
    (fun _ t op _ h => ⟨hstep t op h.1, h.2⟩)
    (fun acc t h => ⟨hstep t .waitCompletion h.1, fun e he => by
      rcases List.mem_append.1 (by simpa using he) with he | he
      · exact h.2 e he
      · obtain ⟨rfl, hr⟩ := mem_waitTrace he
        exact ⟨h.1, hr⟩⟩)
    ops [] s ⟨hs, by simp⟩
  simpa using h.2

/-! ### Workers picking up tasks -/

/-- Picking up tasks changes the pending and running jobs and nothing else. -/
theorem settle_go_eq (fuel : Nat) (s : Scheduler) :
    ∃ pending running, settle.go fuel s = { s with pending, running } := by
  induction fuel generalizing s with
  | zero => exact ⟨s.pending, s.running, rfl⟩
  | succ fuel ih =>
    simp only [settle.go]
    split
    · split
      · exact ⟨s.pending, s.running, rfl⟩
      · rename_i j rest _
        split
        · obtain ⟨p, r, h⟩ := ih { s with pending := rest, running := s.running ++ [j] }
          exact ⟨p, r, h⟩
        · obtain ⟨p, r, h⟩ := ih { s with pending := rest }
          exact ⟨p, r, h⟩
    · exact ⟨s.pending, s.running, rfl⟩

theorem settle_eq (s : Scheduler) :
    ∃ pending running, settle s = { s with pending, running } :=
  settle_go_eq _ s

@[simp] theorem settle_queue (s : Scheduler) : (settle s).queue = s.queue := by
  obtain ⟨p, r, h⟩ := settle_eq s
  rw [h]

@[simp] theorem settle_active (s : Scheduler) : (settle s).active = s.active := by
  obtain ⟨p, r, h⟩ := settle_eq s
  rw [h]

@[simp] theorem settle_nextId (s : Scheduler) : (settle s).nextId = s.nextId := by
  obtain ⟨p, r, h⟩ := settle_eq s
  rw [h]

@[simp] theorem settle_stats (s : Scheduler) : (settle s).stats = s.stats := by
  obtain ⟨p, r, h⟩ := settle_eq s
  rw [h]

@[simp] theorem settle_posted (s : Scheduler) : (settle s).posted = s.posted := by
  obtain ⟨p, r, h⟩ := settle_eq s
  rw [h]

end Scheduler

end Schedule
end Thumbnailer
