import Thumbnailer.Proofs.Schedule.Conservation
import Mathlib.Data.List.Nodup

/-!
# Stale job results are never delivered

A worker's outcome names its job by id. When it is resolved, the scheduler looks for an active
job with that id: if there is one, the outcome is accounted for (finished, retrying or failed);
otherwise it is discarded. Jobs are told apart by their ids, which come from a counter that
only grows (`JobsOk`), and the active table holds one job per page, so the check by id is the
check that the job is the one currently recorded as active for its page (`isLive_iff`).

Three consequences hold along every run (`Scheduler.trace` lists every resolution, with the
state it happened in):

* a job's result is delivered at most once: once delivered, the job leaves the active table,
  and nothing ever becomes active again under an id already handed out
  (`trace_liveIds_nodup`);
* after `cancel p`, no job of page `p` dispatched before it is ever delivered
  (`trace_discarded_of_cancel`);
* after `stop`, no job dispatched before it is ever delivered
  (`trace_discarded_of_stop`).

Whatever job is active for the page when an old outcome arrives, a newer one included, the old
outcome is discarded: its id is not the active one.
-/

namespace Thumbnailer
namespace Schedule

open Render

/-- Whether the completion dropped the job's result. -/
def Completion.isDiscarded : Completion → Bool
  | .discarded _ => true
  | _ => false

namespace Scheduler

/-! ### Resolving one outcome -/

/-- Accounting for a failed attempt changes the queue, the counters and the clock only. -/
theorem handleFailure_eq (s : Scheduler) (r : Request) (e : JobFailure) :
    ∃ queue stats clock, (s.handleFailure r e).2 = { s with queue, stats, clock } := by
  unfold handleFailure
  dsimp only
  split
  · exact ⟨_, _, _, rfl⟩
  · simp only [tick]
    split
    · exact ⟨_, _, _, rfl⟩
    · exact ⟨_, _, _, rfl⟩

theorem handleFailure_isDiscarded (s : Scheduler) (r : Request) (e : JobFailure) :
    (s.handleFailure r e).1.isDiscarded = false := by
  unfold handleFailure
  dsimp only
  split
  · rfl
  · simp only [tick]
    split <;> rfl

/-- Resolving an outcome removes its job from the active table when it is live, and otherwise
changes only the counters. -/
theorem resolve_eq (s : Scheduler) (o : Outcome) :
    ∃ queue stats clock, (s.resolve o).2 =
      { s with queue, stats, clock,
               active := if s.isLive o.job then s.active.filter (·.id != o.job.id) else s.active } := by
  unfold resolve
  split
  · rename_i h
    simp only [Bool.not_eq_true'] at h
    rw [if_neg (by simp [h])]
    exact ⟨_, _, _, rfl⟩
  · rename_i h
    simp only [Bool.not_eq_true', Bool.not_eq_false] at h
    split
    · rw [if_pos h]
      exact ⟨_, _, _, rfl⟩
    · rename_i e _
      obtain ⟨q, st, c, hf⟩ := handleFailure_eq { s with active := s.active.filter (·.id != o.job.id) }
        o.job.request e
      rw [if_pos h, hf]
      exact ⟨q, st, c, rfl⟩

theorem resolve_isDiscarded (s : Scheduler) (o : Outcome) :
    (s.resolve o).1.isDiscarded = !s.isLive o.job := by
  unfold resolve
  split
  · rename_i h
    simp only [Bool.not_eq_true'] at h
    simp [h, Completion.isDiscarded]
  · rename_i h
    simp only [Bool.not_eq_true', Bool.not_eq_false] at h
    split
    · simp [h, Completion.isDiscarded]
    · simp [h, handleFailure_isDiscarded]

@[simp] theorem resolve_nextId (s : Scheduler) (o : Outcome) : (s.resolve o).2.nextId = s.nextId := by
  obtain ⟨q, st, c, h⟩ := resolve_eq s o
  rw [h]

@[simp] theorem resolve_active (s : Scheduler) (o : Outcome) :
    (s.resolve o).2.active =
      if s.isLive o.job then s.active.filter (·.id != o.job.id) else s.active := by
  obtain ⟨q, st, c, h⟩ := resolve_eq s o
  rw [h]

@[simp] theorem resolve_pending (s : Scheduler) (o : Outcome) : (s.resolve o).2.pending = s.pending := by
  obtain ⟨q, st, c, h⟩ := resolve_eq s o
  rw [h]

@[simp] theorem resolve_running (s : Scheduler) (o : Outcome) : (s.resolve o).2.running = s.running := by
  obtain ⟨q, st, c, h⟩ := resolve_eq s o
  rw [h]

@[simp] theorem resolve_posted (s : Scheduler) (o : Outcome) : (s.resolve o).2.posted = s.posted := by
  obtain ⟨q, st, c, h⟩ := resolve_eq s o
  rw [h]

theorem resolve_active_subset (s : Scheduler) (o : Outcome) :
    ∀ j ∈ (s.resolve o).2.active, j ∈ s.active := by
  intro j hj
  rw [resolve_active] at hj
  split at hj
  · exact List.mem_of_mem_filter hj
  · exact hj

/-- A delivered job leaves the active table. -/
theorem resolve_delivered_not_active {s : Scheduler} {o : Outcome}
    (h : (s.resolve o).1.isDiscarded = false) : o.job.id ∉ (s.resolve o).2.active.map (·.id) := by
  rw [resolve_isDiscarded, Bool.not_eq_false'] at h
  simp [resolve_active, h]

/-! ### Jobs are told apart by their ids -/

/-- Every job the scheduler holds: active, handed to the pool, running, or named by a posted
outcome. -/
def known (s : Scheduler) : List Job := s.active ++ s.pending ++ s.running ++ s.posted.map (·.job)

@[simp] theorem mem_known {s : Scheduler} {j : Job} :
    j ∈ s.known ↔ j ∈ s.active ∨ j ∈ s.pending ∨ j ∈ s.running ∨ ∃ o ∈ s.posted, o.job = j := by
  simp [known]

/-- Every job held has an id already handed out, and no two of them share one. -/
structure JobsOk (s : Scheduler) : Prop where
  fresh : ∀ j ∈ s.known, j.id < s.nextId
  unique : ∀ j ∈ s.known, ∀ k ∈ s.known, j.id = k.id → j = k

/-- What an event does to the jobs: the jobs it creates (`new`) get the next ids in order and
become active; every other job it holds afterwards, active or not, it held before. -/
structure Creates (s s' : Scheduler) (new : List Job) : Prop where
  nextId : s'.nextId = s.nextId + new.length
  ids : new.map (·.id) = List.range' s.nextId new.length
  active : ∀ j ∈ s'.active, j ∈ s.active ∨ j ∈ new
  known : ∀ j ∈ s'.known, j ∈ s.known ∨ j ∈ new

theorem Creates.refl (s : Scheduler) : Creates s s [] :=
  ⟨rfl, rfl, fun _ h => .inl h, fun _ h => .inl h⟩

/-- An event that creates no job and keeps the next id. -/
theorem Creates.keep {s s' : Scheduler} (hn : s'.nextId = s.nextId)
    (ha : ∀ j ∈ s'.active, j ∈ s.active) (hk : ∀ j ∈ s'.known, j ∈ s.known) : Creates s s' [] :=
  ⟨hn, rfl, fun j h => .inl (ha j h), fun j h => .inl (hk j h)⟩

/-- An event that keeps every job and the next id. -/
theorem Creates.same {s s' : Scheduler} (hn : s'.nextId = s.nextId) (ha : s'.active = s.active)
    (hk : s'.known = s.known) : Creates s s' [] :=
  Creates.keep hn (fun _ h => ha ▸ h) (fun _ h => hk ▸ h)

theorem Creates.trans {s₁ s₂ s₃ : Scheduler} {n₁ n₂ : List Job} (h₁ : Creates s₁ s₂ n₁)
    (h₂ : Creates s₂ s₃ n₂) : Creates s₁ s₃ (n₁ ++ n₂) where
  nextId := by rw [h₂.nextId, h₁.nextId, List.length_append, Nat.add_assoc]
  ids := by rw [List.map_append, h₁.ids, h₂.ids, h₁.nextId, List.length_append, List.range'_append_1]
  active j hj := by
    rcases h₂.active j hj with h | h
    · exact (h₁.active j h).imp_right (List.mem_append_left _)
    · exact .inr (List.mem_append_right _ h)
  known j hj := by
    rcases h₂.known j hj with h | h
    · exact (h₁.known j h).imp_right (List.mem_append_left _)
    · exact .inr (List.mem_append_right _ h)

theorem Creates.trans_keep {s₁ s₂ s₃ : Scheduler} {new : List Job} (h₁ : Creates s₁ s₂ new)
    (h₂ : Creates s₂ s₃ []) : Creates s₁ s₃ new := by
  simpa using h₁.trans h₂

/-- A created job's id is one the event handed out. -/
theorem Creates.new_id {s s' : Scheduler} {new : List Job} (h : Creates s s' new) {j : Job}
    (hj : j ∈ new) : s.nextId ≤ j.id ∧ j.id < s'.nextId := by
  have hmem : j.id ∈ List.range' s.nextId new.length := h.ids ▸ List.mem_map_of_mem hj
  rw [h.nextId]
  exact List.mem_range'_1.1 hmem

theorem Creates.nextId_le {s s' : Scheduler} {new : List Job} (h : Creates s s' new) :
    s.nextId ≤ s'.nextId := by
  rw [h.nextId]
  exact Nat.le_add_right _ _

/-- **Ids stay unique**: a created job has an id no held job has, and created jobs have
distinct ids. -/
theorem Creates.jobsOk {s s' : Scheduler} {new : List Job} (h : Creates s s' new) (hj : s.JobsOk) :
    s'.JobsOk := by
  have hnodup : (new.map (·.id)).Nodup := h.ids ▸ List.nodup_range'
  refine ⟨fun j hj' => ?_, fun j hj' k hk hid => ?_⟩
  · rcases h.known j hj' with hold | hnew
    · exact Nat.lt_of_lt_of_le (hj.fresh j hold) h.nextId_le
    · exact (h.new_id hnew).2
  · rcases h.known j hj' with hjo | hjn <;> rcases h.known k hk with hko | hkn
    · exact hj.unique j hjo k hko hid
    · have := hj.fresh j hjo
      have := (h.new_id hkn).1
      omega
    · have := hj.fresh k hko
      have := (h.new_id hjn).1
      omega
    · exact List.inj_on_of_nodup_map hnodup hjn hkn hid

/-- No active job satisfying `P` has an id below `N`, and every id below `N` was handed out:
once it holds, jobs with those ids and satisfying `P` are gone for good. -/
structure Retired (P : Job → Prop) (N : Nat) (s : Scheduler) : Prop where
  le_nextId : N ≤ s.nextId
  active : ∀ j ∈ s.active, P j → N ≤ j.id

theorem Creates.retired {P : Job → Prop} {N : Nat} {s s' : Scheduler} {new : List Job}
    (h : Creates s s' new) (hr : Retired P N s) : Retired P N s' where
  le_nextId := Nat.le_trans hr.le_nextId h.nextId_le
  active j hj hp := by
    rcases h.active j hj with hold | hnew
    · exact hr.active j hold hp
    · exact Nat.le_trans hr.le_nextId (h.new_id hnew).1

/-! ### What each event does to the jobs -/

theorem settle_go_jobs (fuel : Nat) (s : Scheduler) (j : Job)
    (h : j ∈ (settle.go fuel s).pending ∨ j ∈ (settle.go fuel s).running) :
    j ∈ s.pending ∨ j ∈ s.running := by
  induction fuel generalizing s with
  | zero => exact h
  | succ fuel ih =>
    simp only [settle.go] at h
    split at h
    · split at h
      · exact h
      · rename_i k rest hp
        -- the task at the front is picked up or skipped
        split at h
        · rcases ih _ h with h | h
          · exact .inl (by simp [hp, h])
          · simp only [List.mem_append, List.mem_singleton] at h
            rcases h with h | rfl
            · exact .inr h
            · exact .inl (by simp [hp])
        · rcases ih _ h with h | h
          · exact .inl (by simp [hp, h])
          · exact .inr h
    · exact h

theorem settle_creates (s : Scheduler) : Creates s (settle s) [] := by
  refine Creates.keep (settle_nextId s) (fun j h => by simpa using h) (fun j h => ?_)
  have hp := settle_go_jobs s.pending.length s j
  simp only [mem_known, settle_active, settle_posted] at h ⊢
  unfold settle at h
  tauto

theorem takeQueued_creates (fuel : Nat) (s : Scheduler) (started deferred : List Request) :
    ∃ new, Creates s (takeQueued fuel s started deferred).1 new := by
  fun_induction takeQueued fuel s started deferred with
  | case1 => exact ⟨[], Creates.refl _⟩
  | case2 => exact ⟨[], Creates.refl _⟩
  | case3 _ s _ _ _ _ q _ _ _ ih =>
    obtain ⟨new, h⟩ := ih
    exact ⟨new, (Creates.same rfl rfl rfl : Creates s { s with queue := q } []).trans h⟩
  | case4 _ s _ _ _ r q _ _ _ _ ih =>
    obtain ⟨new, h⟩ := ih
    -- the admitted request becomes a job under the next id
    have hstart : Creates s
        { s with queue := q, nextId := s.nextId + 1, pending := s.pending ++ [⟨s.nextId, r⟩],
                 active := s.active ++ [⟨s.nextId, r⟩] } [⟨s.nextId, r⟩] := by
      refine ⟨rfl, by simp, fun j hj => by simpa using hj, fun j hj => ?_⟩
      simp only [mem_known, List.mem_append, List.mem_singleton] at hj ⊢
      grind
    exact ⟨_, hstart.trans h⟩
  | case5 => exact ⟨[], Creates.refl _⟩

theorem dispatch_creates (s : Scheduler) : ∃ new, Creates s s.dispatch.2 new := by
  unfold dispatch
  split
  · exact ⟨[], Creates.refl s⟩
  · obtain ⟨new, h⟩ := takeQueued_creates s.queue.size { s with workers := max s.workers s.limit } [] []
    rcases hT : takeQueued s.queue.size { s with workers := max s.workers s.limit } [] [] with
      ⟨s', started, deferred⟩
    rw [hT] at h
    simp only [hT]
    have h' : Creates s s' new :=
      (Creates.same rfl rfl rfl : Creates s { s with workers := max s.workers s.limit } []).trans h
    refine ⟨new, h'.trans_keep (Creates.trans_keep ?_ (settle_creates _))⟩
    exact Creates.same rfl rfl rfl

theorem post_creates {s : Scheduler} {j : Job} (hj : j ∈ s.running)
    (result : Except JobFailure Raster.Bitmap) : Creates s (s.post j result) [] := by
  unfold post
  refine Creates.trans_keep ?_ (settle_creates _)
  refine Creates.keep rfl (fun _ h => h) fun k hk => ?_
  simp only [mem_known, List.mem_filter, List.mem_append, List.mem_singleton] at hk ⊢
  rcases hk with hk | hk | ⟨hk, -⟩ | ⟨o, ho | rfl, rfl⟩
  · exact .inl hk
  · exact .inr (.inl hk)
  · exact .inr (.inr (.inl hk))
  · exact .inr (.inr (.inr ⟨o, ho, rfl⟩))
  · exact .inr (.inr (.inl hj))

theorem waitCompletion_creates (s : Scheduler) : Creates s s.waitCompletion.2 [] := by
  rcases hp : s.posted with _ | ⟨o, rest⟩
  · rw [waitCompletion_nil hp]
    exact Creates.refl s
  · rw [waitCompletion_eq hp]
    refine Creates.keep (resolve_nextId s o) (fun j hj => resolve_active_subset s o j hj) fun j hj => ?_
    simp only [mem_known, resolve_pending, resolve_running] at hj ⊢
    rcases hj with hj | hj | hj | ⟨o', ho', rfl⟩
    · exact .inl (resolve_active_subset s o j hj)
    · exact .inr (.inl hj)
    · exact .inr (.inr (.inl hj))
    · exact .inr (.inr (.inr ⟨o', by simp [hp, ho'], rfl⟩))

theorem waits_creates (n : Nat) (s : Scheduler) : Creates s (waits n s).2 [] := by
  induction n generalizing s with
  | zero => exact Creates.refl s
  | succ n ih => exact (waitCompletion_creates s).trans_keep (ih _)

/-- Cancelling a page changes the queue, the counters and the active table only. -/
theorem cancel_eq (s : Scheduler) (page : Nat) : ∃ queue stats,
    (s.cancel page).2 = { s with queue, stats, active := s.active.filter (·.request.page != page) } :=
  ⟨_, _, rfl⟩

theorem cancel_creates (s : Scheduler) (page : Nat) : Creates s (s.cancel page).2 [] := by
  obtain ⟨q, st, h⟩ := cancel_eq s page
  rw [h]
  refine Creates.keep rfl (fun j hj => List.mem_of_mem_filter hj) fun j hj => ?_
  simp only [mem_known, List.mem_filter] at hj ⊢
  tauto

/-- Stopping empties the queue, the active table and the posted outcomes, and keeps the
running jobs that are no longer live. -/
theorem stop_eq (s : Scheduler) : ∃ queue stats,
    s.stop.2 = settle { s with queue, stats, posted := [], running := s.running.filter (!s.isLive ·),
                               active := [] } :=
  ⟨_, _, rfl⟩

theorem stop_creates (s : Scheduler) : Creates s s.stop.2 [] := by
  obtain ⟨q, st, h⟩ := stop_eq s
  rw [h]
  refine Creates.trans_keep ?_ (settle_creates _)
  refine Creates.keep rfl (fun _ h => nomatch h) fun j hj => ?_
  simp only [mem_known, List.mem_filter, List.not_mem_nil] at hj ⊢
  tauto

/-- **Only dispatching creates jobs**; every other event keeps or drops them. -/
theorem step_creates (s : Scheduler) (op : Op) : ∃ new, Creates s (op.step s).2 new := by
  cases op with
  | dispatch => exact dispatch_creates s
  | finish i result =>
    simp only [Op.step]
    split
    · rename_i j hj
      exact ⟨[], post_creates (List.mem_of_getElem? hj) result⟩
    · exact ⟨[], Creates.refl s⟩
  | waitCompletion => exact ⟨[], waitCompletion_creates s⟩
  | drainCompletions =>
    refine ⟨[], ?_⟩
    simp only [Op.step, drainCompletions_eq]
    exact waits_creates _ s
  | cancel page => exact ⟨[], cancel_creates s page⟩
  | stop => exact ⟨[], stop_creates s⟩
  | submit r =>
    refine ⟨[], ?_⟩
    simp only [Op.step, submit]
    split
    · exact Creates.refl s
    · split
      · exact Creates.refl s
      · exact Creates.same rfl rfl rfl
  | adaptConcurrency =>
    refine ⟨[], ?_⟩
    simp only [Op.step, adaptConcurrency]
    split
    · exact Creates.refl s
    · split
      · exact Creates.same rfl rfl rfl
      · split
        · exact Creates.same rfl rfl rfl
        · exact Creates.refl s
  | tick | setPriority _ _ | clearQueue | removeQueuedWhere _ | pause | resume
  | setMaxConcurrentJobs _ | setMaxRetries _ | setAdaptive _ => exact ⟨[], Creates.same rfl rfl rfl⟩

theorem jobsOk_create (c : SchedulerConfig) : (create c).JobsOk :=
  ⟨fun _ h => by simp [create] at h, fun _ h => by simp [create] at h⟩

theorem jobsOk_step {s : Scheduler} (h : s.JobsOk) (op : Op) : (op.step s).2.JobsOk := by
  obtain ⟨new, hc⟩ := step_creates s op
  exact hc.jobsOk h

theorem retired_step {P : Job → Prop} {N : Nat} {s : Scheduler} (h : Retired P N s) (op : Op) :
    Retired P N (op.step s).2 := by
  obtain ⟨new, hc⟩ := step_creates s op
  exact hc.retired h

/-! ### One resolution -/

section Resolution

variable {e : Scheduler × Outcome × Completion}

theorem Resolves.isDiscarded (h : Resolves e) : e.2.2.isDiscarded = !e.1.isLive e.2.1.job := by
  obtain ⟨_, _, hc⟩ := h
  rw [hc, resolve_isDiscarded]

theorem Resolves.mem_known (h : Resolves e) : e.2.1.job ∈ e.1.known := by
  obtain ⟨rest, hp, _⟩ := h
  simp [hp]

/-- **An outcome is live exactly when its job is the active job of its page.** Ids are unique,
so an active job with the outcome's id is the outcome's job; pages are unique among active
jobs, so it is the one the page's lookup finds. -/
theorem isLive_iff_activeJob {s : Scheduler} (ha : ActiveOk s.active s.nextId) (hj : s.JobsOk)
    {j : Job} (hk : j ∈ s.known) :
    s.isLive j = true ↔ (s.activeJob? j.request.page).map (·.id) = some j.id := by
  constructor
  · intro hl
    obtain ⟨a, haa, hid⟩ := List.mem_map.1 ((isLive_iff s j).1 hl)
    have hja : j ∈ s.active := hj.unique a (by simp [haa]) j hk hid ▸ haa
    obtain ⟨b, hb⟩ : ∃ b, s.activeJob? j.request.page = some b :=
      Option.isSome_iff_exists.1 (List.find?_isSome.2 ⟨j, hja, by simp⟩)
    have hbj : b = j := List.inj_on_of_nodup_map ha.pages (List.mem_of_find?_eq_some hb) hja
      (by simpa using List.find?_some hb)
    simp [hb, hbj]
  · intro h
    obtain ⟨b, hb, hid⟩ := Option.map_eq_some_iff.1 h
    exact (isLive_iff s j).2 (List.mem_map.2 ⟨b, List.mem_of_find?_eq_some hb, hid⟩)

/-- A resolution of a job that is retired is a discard. -/
theorem Resolves.discarded_of_retired {P : Job → Prop} {N : Nat} (h : Resolves e)
    (hj : e.1.JobsOk) (hr : Retired P N e.1) (hp : P e.2.1.job) (hlt : e.2.1.job.id < N) :
    e.2.2.isDiscarded = true := by
  rw [h.isDiscarded, Bool.not_eq_true']
  by_contra hl
  obtain ⟨a, ha, hid⟩ := List.mem_map.1 ((isLive_iff _ _).1 (Bool.not_eq_false _ ▸ hl))
  have hae : a = e.2.1.job := hj.unique a (by simp [ha]) _ h.mem_known hid
  have := hr.active a ha (hae ▸ hp)
  omega

/-- After a result is delivered, its job is retired. -/
theorem Resolves.retired_of_delivered (h : Resolves e) (hj : e.1.JobsOk)
    (hd : e.2.2.isDiscarded = false) :
    Retired (·.id = e.2.1.job.id) (e.2.1.job.id + 1) e.1.waitCompletion.2 := by
  have hl : e.1.isLive e.2.1.job = true := by
    simpa [h.isDiscarded] using hd
  have hk := h.mem_known
  obtain ⟨rest, hp, _⟩ := h
  rw [waitCompletion_eq hp]
  refine ⟨by simpa using Nat.succ_le_of_lt (hj.fresh _ hk), fun j hj' hid => ?_⟩
  simp [resolve_active, hl, hid] at hj'

end Resolution

/-! ### Along every run -/

/-- What holds in every state a scheduler reaches. -/
theorem reach_step {s : Scheduler} (h : s.Inv ∧ s.JobsOk) (op : Op) :
    (op.step s).2.Inv ∧ (op.step s).2.JobsOk :=
  ⟨inv_step h.1 op, jobsOk_step h.2 op⟩

/-- **A result is delivered exactly when its job is the active job of its page.** -/
theorem trace_delivered_iff (c : SchedulerConfig) (ops : List Op) :
    ∀ e ∈ (create c).trace ops, e.2.2.isDiscarded = false ↔
      (e.1.activeJob? e.2.1.job.request.page).map (·.id) = some e.2.1.job.id := by
  intro e he
  obtain ⟨⟨hi, hj⟩, hr⟩ := @trace_forall (fun t => t.Inv ∧ t.JobsOk) (fun _ op h => reach_step h op)
    _ ⟨inv_create c, jobsOk_create c⟩ ops e he
  rw [hr.isDiscarded, Bool.not_eq_false']
  exact isLive_iff_activeJob hi.active hj hr.mem_known

/-- **Jobs retired stay retired**: from a state where the jobs satisfying `P` with ids below `N`
are retired, every later resolution of such a job is a discard. -/
theorem trace_discarded_of_retired {P : Job → Prop} {N : Nat} {s : Scheduler}
    (hs : s.Inv ∧ s.JobsOk) (hr : Retired P N s) (ops : List Op) :
    ∀ e ∈ s.trace ops, P e.2.1.job → e.2.1.job.id < N → e.2.2.isDiscarded = true := by
  intro e he hp hlt
  obtain ⟨⟨_, hj, hre⟩, hres⟩ := @trace_forall (fun t => t.Inv ∧ t.JobsOk ∧ Retired P N t)
    (fun _ op h => ⟨inv_step h.1 op, jobsOk_step h.2.1 op, retired_step h.2.2 op⟩)
    _ ⟨hs.1, hs.2, hr⟩ ops e he
  exact hres.discarded_of_retired hj hre hp hlt

/-- The job a resolution delivered the result of, if it delivered one. -/
def deliveredId (e : Scheduler × Outcome × Completion) : Option Nat :=
  if e.2.2.isDiscarded then none else some e.2.1.job.id

/-- **A wait delivers the result of a job not delivered before, and retires it.** The jobs
already delivered are retired, so none of them is live. -/
theorem wait_delivered {s : Scheduler} (hj : s.JobsOk) {acc : List Nat} (hnd : acc.Nodup)
    (hr : ∀ x ∈ acc, Retired (·.id = x) (x + 1) s) :
    (acc ++ (waitTrace s).filterMap deliveredId).Nodup ∧
      ∀ x ∈ acc ++ (waitTrace s).filterMap deliveredId, Retired (·.id = x) (x + 1) s.waitCompletion.2 := by
  have hkeep : ∀ x ∈ acc, Retired (·.id = x) (x + 1) s.waitCompletion.2 :=
    fun x hx => (waitCompletion_creates s).retired (hr x hx)
  rcases hp : s.posted with _ | ⟨o, rest⟩
  · simpa [waitTrace, hp] using And.intro hnd hkeep
  · have hres : Resolves (s, o, (s.resolve o).1) := ⟨rest, hp, rfl⟩
    have hwt : waitTrace s = [(s, o, (s.resolve o).1)] := by
      simp [waitTrace, hp, resolve_setPosted]
    rw [hwt]
    by_cases hd : (s.resolve o).1.isDiscarded = true
    · simpa [deliveredId, hd] using And.intro hnd hkeep
    · have hd' : (s.resolve o).1.isDiscarded = false := by simpa using hd
      have hl : s.isLive o.job = true := by simpa [hres.isDiscarded] using hd'
      obtain ⟨a, ha, hid⟩ := List.mem_map.1 ((isLive_iff s o.job).1 hl)
      -- a job delivered before is retired, so it is not this live one
      have hnew : o.job.id ∉ acc := fun hx => by
        have := (hr _ hx).active a ha hid
        omega
      have hret := hres.retired_of_delivered hj hd'
      simp only [deliveredId, hd', Bool.false_eq_true, if_false, List.filterMap_cons,
        List.filterMap_nil]
      refine ⟨List.nodup_append.2 ⟨hnd, List.nodup_singleton _, ?_⟩, ?_⟩
      · simp only [List.mem_singleton]
        intro x hx b hb heq
        rw [hb] at heq
        exact hnew (heq ▸ hx)
      · intro x hx
        rcases List.mem_append.1 hx with hx | hx
        · exact hkeep x hx
        · rw [List.mem_singleton.1 hx]
          exact hret

/-- **Each job delivers at most one result**: two resolutions of a run that both deliver are
of different jobs. -/
theorem trace_delivered_pairwise (c : SchedulerConfig) (ops : List Op) :
    ((create c).trace ops).Pairwise fun e f =>
      e.2.2.isDiscarded = false → f.2.2.isDiscarded = false → e.2.1.job.id ≠ f.2.1.job.id := by
  -- carry the ids delivered so far, all distinct and all retired
  have h := @trace_accumulate Nat
    (fun acc t => t.Inv ∧ t.JobsOk ∧ acc.Nodup ∧ ∀ x ∈ acc, Retired (·.id = x) (x + 1) t) deliveredId
    (fun _ _ op _ h => ⟨inv_step h.1 op, jobsOk_step h.2.1 op, h.2.2.1,
      fun x hx => retired_step (h.2.2.2 x hx) op⟩)
    (fun _ _ h => ⟨inv_step h.1 .waitCompletion, jobsOk_step h.2.1 .waitCompletion,
      wait_delivered h.2.1 h.2.2.1 h.2.2.2⟩)
    ops [] (create c) ⟨inv_create c, jobsOk_create c, List.nodup_nil, by simp⟩
  have hnd : (((create c).trace ops).filterMap deliveredId).Nodup := by simpa using h.2.2.1
  refine (List.pairwise_filterMap.1 hnd).imp fun hne hd₁ hd₂ => ?_
  exact hne _ (by simp [deliveredId, hd₁]) _ (by simp [deliveredId, hd₂])

theorem reach_run (c : SchedulerConfig) (ops : List Op) :
    ((create c).run ops).Inv ∧ ((create c).run ops).JobsOk :=
  @run_induction (fun t => t.Inv ∧ t.JobsOk) _ ⟨inv_create c, jobsOk_create c⟩
    (fun _ op h => reach_step h op) ops

/-- **After `cancel p`, no job of page `p` dispatched before it delivers a result.** The jobs
dispatched before are those with ids below the next one. -/
theorem trace_discarded_after_cancel (c : SchedulerConfig) (ops₁ : List Op) (page : Nat)
    (ops₂ : List Op) :
    let s := (create c).run (ops₁ ++ [.cancel page])
    ∀ e ∈ s.trace ops₂, e.2.1.job.request.page = page → e.2.1.job.id < s.nextId →
      e.2.2.isDiscarded = true := by
  intro s
  have hr : Retired (·.request.page = page) s.nextId s := by
    refine ⟨Nat.le_refl _, fun j hj hp => ?_⟩
    obtain ⟨q, st, h⟩ := cancel_eq ((create c).run ops₁) page
    simp only [s, run_append, run_cons, run_nil, Op.step, h, List.mem_filter] at hj
    simp [hp] at hj
  exact trace_discarded_of_retired (reach_run c _) hr ops₂

/-- **After `stop`, no job dispatched before it delivers a result.** -/
theorem trace_discarded_after_stop (c : SchedulerConfig) (ops₁ ops₂ : List Op) :
    let s := (create c).run (ops₁ ++ [.stop])
    ∀ e ∈ s.trace ops₂, e.2.1.job.id < s.nextId → e.2.2.isDiscarded = true := by
  intro s e he hlt
  have hr : Retired (fun _ => True) s.nextId s := by
    refine ⟨Nat.le_refl _, fun j hj _ => ?_⟩
    obtain ⟨q, st, h⟩ := stop_eq ((create c).run ops₁)
    simp only [s, run_append, run_cons, run_nil, Op.step, h, settle_active] at hj
    exact absurd hj List.not_mem_nil
  exact trace_discarded_of_retired (reach_run c _) hr ops₂ e he trivial hlt

end Scheduler

end Schedule
end Thumbnailer
