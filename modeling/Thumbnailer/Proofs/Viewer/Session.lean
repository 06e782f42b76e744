import Thumbnailer.Viewer.Model
import Thumbnailer.Proofs.Generator.Run
import Thumbnailer.Proofs.Cache.PageCacheContents

/-!
# Runs of a model and its generator

A model is driven by its owner, and the generator it drives changes under it: the owner calls
the generator directly, and workers end jobs. `Session.Op` names each of these events:

* a call on the model (`request`, `preload`, `sync`, the setters, the page cache's own
  settings);
* anything that can happen to the generator on its own (`Engine.Op`), worker outcomes with any
  result included;
* a worker letting a running job through against the document (`release`), as the generator's
  own `finishPage` does.

An event that reads the clock (a request, a sync, a cleanup, a new document, a tick, a pump, a
release) carries the instant it happens at, so a run may let any time pass between events.

`Session.run` performs a sequence of them and fails where the model or the generator would
overflow a counter. `Session.synced` lists the events the model's syncs took from its inbox
along a run: those are the only events the model ever applies.

The generator's default size and quality change only through its setters
(`Engine.Op.setsDefaults`): every other call keeps `Engine.defaults`. The model calls those
setters only from its own setters, which then forget every cached thumbnail. Apart from a
sync, no call brings a picture into the model's cache (`Quiet`).
-/

namespace Thumbnailer

/-- A computation in `Except` succeeds through a bind exactly when both halves do. -/
theorem except_bind_eq_ok {ε α β : Type} {x : Except ε α} {f : α → Except ε β} {b : β} :
    x >>= f = .ok b ↔ ∃ a, x = .ok a ∧ f a = .ok b := by
  cases x <;> simp [bind, Except.bind]

namespace Generator
namespace Engine

open Schedule Page

/-! ### The defaults requests get -/

/-- The size and quality a request gets unless it says otherwise. -/
def defaults (g : Engine) : Target × Float := (g.thumbnailSize, g.quality)

@[simp] theorem emit_defaults (g : Engine) (e : Event) : (g.emit e).defaults = g.defaults := rfl

@[simp] theorem moveTo_defaults (g : Engine) (page : Nat) (s : PageState) :
    (g.moveTo page s).defaults = g.defaults := rfl

@[simp] theorem setScheduler_defaults (g : Engine) (s : Scheduler) :
    ({ g with scheduler := s }).defaults = g.defaults := rfl

theorem admitQueued_defaults (g : Engine) : g.admitQueued.defaults = g.defaults := by
  unfold admitQueued
  split
  · rfl
  · dsimp only
    split
    · rfl
    · simp [foldl_moveTo_keeps defaults (fun _ _ _ => rfl)]

theorem runEarly_defaults (g : Engine) : g.runEarly.defaults = g.defaults := by
  obtain ⟨s, hs⟩ := runEarly_eq g
  rw [hs, setScheduler_defaults]

theorem dispatch_defaults (g : Engine) : g.dispatch.defaults = g.defaults := by
  rw [dispatch, runEarly_defaults, admitQueued_defaults]

theorem enqueue_defaults (g : Engine) (page : Nat) (v : Variant) (priority : Int) :
    (g.enqueue page v priority).2.defaults = g.defaults := by
  unfold enqueue
  dsimp only
  split <;> rfl

theorem enqueueAll_defaults (g : Engine) (v : Variant) (pages : List (Nat × Int)) :
    (g.enqueueAll v pages).2.defaults = g.defaults := by
  unfold enqueueAll
  refine List.foldlRecOn (motive := fun acc : Nat × Engine => acc.2.defaults = g.defaults) _ _ rfl
    fun acc h x _ => ?_
  have he := enqueue_defaults acc.2 x.1 v x.2
  unfold enqueueCounted
  split <;>
  · rename_i g' hq
    rw [hq] at he
    exact he.trans h

theorem afterEnqueue_defaults (g : Engine) (n : Nat) : (g.afterEnqueue n).defaults = g.defaults := by
  unfold afterEnqueue
  split
  · exact dispatch_defaults _
  · rfl

theorem generateWith_defaults (g : Engine) (page : Nat) (o : Options) :
    (g.generateWith page o).2.defaults = g.defaults := by
  unfold generateWith
  dsimp only
  split
  · rfl
  · have he := enqueue_defaults g page (g.variant o) o.priority
    split <;>
    · rename_i g' hq
      rw [hq] at he
      simpa [dispatch_defaults] using he

theorem generateRange_defaults (g : Engine) (first last : Nat) (size : Option Target)
    (quality : Option Float) : (g.generateRange first last size quality).2.defaults = g.defaults := by
  unfold generateRange
  split
  · rfl
  · dsimp only
    split
    · rfl
    · split
      · rfl
      · rw [afterEnqueue_defaults, enqueueAll_defaults]

theorem generateBatch_defaults (g : Engine) (pages : List Nat) :
    (g.generateBatch pages).2.defaults = g.defaults := by
  unfold generateBatch
  split
  · rfl
  · dsimp only
    rw [afterEnqueue_defaults, enqueueAll_defaults]

theorem handleOne_defaults (g : Engine) (c : Completion) : (g.handleOne c).defaults = g.defaults := by
  cases c <;> simp [handleOne, settle_keeps defaults (fun _ _ _ => rfl)] <;> rfl

theorem handleCompletions_defaults (g : Engine) (cs : List Completion) :
    (g.handleCompletions cs).defaults = g.defaults := by
  rw [handleCompletions_eq]
  split
  · rfl
  · rw [emit_defaults]
    exact List.foldlRecOn (motive := fun g' : Engine => g'.defaults = g.defaults) _ _ rfl
      fun g' h c _ => (handleOne_defaults g' c).trans h

theorem batchTick_defaults (g : Engine) (now : Instant) : (g.batchTick now).defaults = g.defaults := by
  unfold batchTick
  dsimp only
  split <;> rfl

theorem batchIfDue_defaults (g : Engine) (now : Instant) : (g.batchIfDue now).defaults = g.defaults := by
  unfold batchIfDue
  split
  · exact batchTick_defaults _ now
  · rfl

theorem tick_defaults (g : Engine) (now : Instant) : (g.tick now).2.defaults = g.defaults := by
  unfold tick
  dsimp only
  rw [dispatch_defaults, batchIfDue_defaults, handleCompletions_defaults]
  rfl

theorem pump_defaults (g : Engine) (now : Instant) : (g.pump now).2.defaults = g.defaults := by
  unfold pump
  dsimp only
  split
  · rw [tick_defaults, handleCompletions_defaults]
    exact dispatch_defaults g
  · rw [tick_defaults]
    exact dispatch_defaults g

theorem releaseQueued_defaults (g : Engine) (removed : List Schedule.Request) :
    (g.releaseQueued removed).defaults = g.defaults :=
  releaseQueued_keeps defaults (fun _ _ => rfl) (fun _ _ _ => rfl) g removed

theorem cancelRequest_defaults (g : Engine) (page : Nat) :
    (g.cancelRequest page).defaults = g.defaults :=
  cancelRequest_keeps defaults (fun _ _ => rfl) (fun _ _ _ => rfl) g page

theorem setPriority_defaults (g : Engine) (page : Nat) (priority : Int) :
    (g.setPriority page priority).defaults = g.defaults := rfl

theorem stop_defaults (g : Engine) : g.stop.defaults = g.defaults := by
  unfold stop
  dsimp only
  rw [emit_defaults, emit_defaults, releaseQueued_defaults]
  rfl

/-- Whether an event is one of the generator's setters of its defaults. -/
def Op.setsDefaults : Op → Bool
  | .setThumbnailSize _ | .setQuality _ => true
  | _ => false

/-- **Only the generator's setters change its defaults.** -/
theorem Op.step_defaults (op : Op) (h : op.setsDefaults = false) (g : Engine) :
    (op.step g).defaults = g.defaults := by
  cases op with
  | generate page o => exact generateWith_defaults g page o
  | generateRange first last size quality => exact generateRange_defaults g first last size quality
  | generateBatch pages => exact generateBatch_defaults g pages
  | tick now => exact tick_defaults g now
  | pump now => exact pump_defaults g now
  | finish i result =>
    simp only [Op.step]
    split <;> rfl
  | cancelRequest page => exact cancelRequest_defaults g page
  | clearQueue =>
    simp only [Op.step]
    unfold Engine.clearQueue
    dsimp only
    rw [emit_defaults, releaseQueued_defaults]
    rfl
  | resume | start => exact dispatch_defaults _
  | stop => exact stop_defaults g
  | setThumbnailSize _ | setQuality _ => cases h
  | setPriority _ _ | pause | setDocument _ | setRenderMode _ | setCacheStrategy _
  | setMaxConcurrentJobs _ | setMaxRetries _ | setGpuEnabled _ | setCompressionEnabled _
  | setCompressionQuality _ | setCacheCapacity _ | setMemoryPoolSize _ | setDevicePixelRatio _ => rfl

/-- Running a job changes the backend only. -/
theorem runJob_defaults {g g' : Engine} {r : Schedule.Request} {l : Lookup} {now : Instant}
    {result : Except Render.JobFailure Raster.Bitmap} (h : g.runJob r l now = .ok (result, g')) :
    g'.defaults = g.defaults := by
  unfold runJob at h
  split at h
  · -- a panicking lookup may answer before rendering; a rendering comes back with the
    -- engine's backend replaced
    cases l with
    | panics msg =>
      dsimp only at h
      split at h
      · cases h
        rfl
      · obtain ⟨⟨_, _⟩, -, hr⟩ := except_bind_eq_ok.1 h
        cases hr
        rfl
    | found | missing | failing _ | blank =>
      obtain ⟨⟨_, _⟩, -, hr⟩ := except_bind_eq_ok.1 h
      cases hr
      rfl
  · cases h
    rfl

/-- Letting a job through renders it and posts its outcome; the defaults stay. -/
theorem release_defaults {g g' : Engine} {j : Job} {l : Lookup} {now : Instant}
    (h : g.release j l now = .ok g') :
    g'.defaults = g.defaults := by
  obtain ⟨⟨result, g₁⟩, hrun, hpost⟩ := except_bind_eq_ok.1 h
  cases hpost
  rw [runEarly_defaults, setScheduler_defaults]
  exact runJob_defaults hrun

end Engine
end Generator

namespace Viewer

open Generator Schedule Cache Config

/-! ### Events -/

/-- What can happen to a model and the generator it drives. -/
inductive Session.Op where
  | request (page : Nat) (now : Instant)
  | requestRange (start stop : Nat) (now : Instant)
  | preload (first last : Nat)
  | refresh (page : Nat)
  | setViewport (start stop margin : Nat)
  | setThumbnailSize (size : Page.Target)
  | setQuality (quality : Float)
  | setDocument (document : Option Page.Source) (now : Instant)
  | sync (now : Instant)
  | clearCache
  | setCacheSize (items : Nat)
  | setMemoryLimit (bytes : Nat)
  | cleanup (now : Instant)
  /-- Anything that happens to the generator on its own. -/
  | generator (op : Engine.Op)
  /-- The worker running the job in slot `i` of the scheduler's `running` lets it through,
  the document behaving as `lookup` says. -/
  | release (i : Nat) (lookup : Lookup) (now : Instant)

namespace Session

/-- Performs an event; fails where a counter would overflow. -/
def Op.step : Op → Model → Engine → Except Overflow (Model × Engine)
  | .request page now, m, g => pure (m.request g page now).2
  | .requestRange start stop now, m, g => pure (m.requestRange g start stop now).2
  | .preload first last, m, g => pure (m.preload g first last).2
  | .refresh page, m, g => pure (m.refresh g page)
  | .setViewport start stop margin, m, g => pure (m.setViewport g start stop margin)
  | .setThumbnailSize size, m, g => pure (m.setThumbnailSize g size)
  | .setQuality q, m, g => pure (m.setQuality g q)
  | .setDocument src now, m, g => m.setDocument g src now
  | .sync now, m, g => do
    let (_, m, g) ← m.sync g now
    pure (m, g)
  | .clearCache, m, g => pure (m.clearCache, g)
  | .setCacheSize n, m, g => pure (m.setCacheSize n, g)
  | .setMemoryLimit n, m, g => pure (m.setMemoryLimit n, g)
  | .cleanup now, m, g => pure ((m.cleanup now).2, g)
  | .generator op, m, g => pure (m, op.step g)
  | .release i l now, m, g =>
    match g.scheduler.running[i]? with
    | some j => do pure (m, ← g.release j l now)
    | none => pure (m, g)

/-- The state after a sequence of events, unless a counter overflowed on the way. -/
def run : Model × Engine → List Op → Except Overflow (Model × Engine)
  | s, [] => pure s
  | s, op :: ops => do run (← op.step s.1 s.2) ops

/-- The events waiting in the model's inbox. -/
def pending (m : Model) (g : Engine) : List Event :=
  match g.bus.drain m.inbox with
  | some (events, _) => events
  | none => []

/-- The events an event makes the model apply: those a sync takes from its inbox. -/
def Op.synced : Op → Model → Engine → List Event
  | .sync _, m, g => pending m g
  | _, _, _ => []

/-- Every event the model's syncs took from its inbox along a run, in order. -/
def synced : Model × Engine → List Op → List Event
  | _, [] => []
  | s, op :: ops =>
    op.synced s.1 s.2 ++
      match op.step s.1 s.2 with
      | .ok s' => synced s' ops
      | .error _ => []

/-- Whether an event leaves the generator's defaults to the model: it is no call of the
generator's own setters. -/
def Op.leavesDefaults : Op → Bool
  | .generator op => !op.setsDefaults
  | _ => true

theorem run_cons_ok {s s' : Model × Engine} {op : Op} {ops : List Op} (h : run s (op :: ops) = .ok s') :
    ∃ t, op.step s.1 s.2 = .ok t ∧ run t ops = .ok s' :=
  except_bind_eq_ok.1 h

theorem synced_cons_of_ok {s t : Model × Engine} {op : Op} (ops : List Op) (h : op.step s.1 s.2 = .ok t) :
    synced s (op :: ops) = op.synced s.1 s.2 ++ synced t ops := by
  simp [synced, h]

end Session

/-! ### What the model's calls do to its cache and to the defaults -/

namespace Model

/-- A call that brings no picture into the model's cache and keeps the generator's defaults. -/
structure Quiet (m : Model) (g : Engine) (m' : Model) (g' : Engine) : Prop where
  cache : m.cache.Keeps m'.cache
  defaults : g'.defaults = g.defaults

theorem Quiet.refl (m : Model) (g : Engine) : Quiet m g m g := ⟨PageCache.Keeps.refl _, rfl⟩

theorem Quiet.trans {m₁ m₂ m₃ : Model} {g₁ g₂ g₃ : Engine} (h₁ : Quiet m₁ g₁ m₂ g₂)
    (h₂ : Quiet m₂ g₂ m₃ g₃) : Quiet m₁ g₁ m₃ g₃ :=
  ⟨h₁.cache.trans h₂.cache, h₂.defaults.trans h₁.defaults⟩

theorem submit_quiet (m : Model) (g : Engine) (page : Nat) :
    Quiet m g (m.submit g page).2.1 (m.submit g page).2.2 := by
  have hd := Engine.generateWith_defaults g page { priority := m.priorityFor page }
  unfold submit Engine.generate
  rcases hq : g.generateWith page { priority := m.priorityFor page } with ⟨_ | ⟨⟩, g'⟩ <;>
    rw [hq] at hd <;> exact ⟨PageCache.Keeps.refl _, hd⟩

theorem request_quiet (m : Model) (g : Engine) (page : Nat) (now : Instant) :
    Quiet m g (m.request g page now).2.1 (m.request g page now).2.2 := by
  have hget : Quiet m g { m with cache := (m.cache.get (cacheKey page) now).2 } g :=
    ⟨PageCache.get_keeps _ _ now, rfl⟩
  unfold request
  dsimp only
  split
  · exact hget
  · split
    · exact hget
    · exact hget.trans (submit_quiet _ _ _)

theorem requestRange_quiet (m : Model) (g : Engine) (start stop : Nat) (now : Instant) :
    Quiet m g (m.requestRange g start stop now).2.1 (m.requestRange g start stop now).2.2 := by
  unfold requestRange
  refine List.foldlRecOn (motive := fun acc : Nat × Model × Engine => Quiet m g acc.2.1 acc.2.2) _ _
    (Quiet.refl m g) fun ⟨n, m₁, g₁⟩ h i _ => ?_
  have hr := h.trans (request_quiet m₁ g₁ (min start stop + i) now)
  dsimp only
  rcases hq : m₁.request g₁ (min start stop + i) now with ⟨_ | b, m₂, g₂⟩ <;> rw [hq] at hr <;> exact hr

theorem preload_quiet (m : Model) (g : Engine) (first last : Nat) :
    Quiet m g (m.preload g first last).2.1 (m.preload g first last).2.2 := by
  unfold preload
  simp only
  split
  · exact Quiet.refl m g
  · split
    · exact Quiet.refl m g
    · refine List.foldlRecOn (motive := fun acc : Nat × Model × Engine => Quiet m g acc.2.1 acc.2.2) _ _
        (Quiet.refl m g) fun acc h i _ => ?_
      split
      · exact h
      · -- a page not cached and not loading is submitted
        have hs := h.trans (submit_quiet acc.2.1 acc.2.2 (min first last - m.config.preloadRange + i))
        rcases hq : acc.2.1.submit acc.2.2 (min first last - m.config.preloadRange + i) with
          ⟨_ | _, m₂, g₂⟩ <;> rw [hq] at hs <;> exact hs

theorem refresh_quiet (m : Model) (g : Engine) (page : Nat) :
    Quiet m g (m.refresh g page).1 (m.refresh g page).2 := by
  unfold refresh
  dsimp only
  refine Quiet.trans ⟨PageCache.remove_keeps m.cache (cacheKey page), ?_⟩ (submit_quiet _ _ page)
  exact Engine.cancelRequest_defaults _ page

theorem setViewport_quiet (m : Model) (g : Engine) (start stop margin : Nat) :
    Quiet m g (m.setViewport g start stop margin).1 (m.setViewport g start stop margin).2 := by
  refine ⟨PageCache.Keeps.refl _, ?_⟩
  unfold setViewport
  exact List.foldlRecOn (motive := fun g' : Engine => g'.defaults = g.defaults) _ _ rfl
    fun g' h page _ => (Engine.setPriority_defaults g' page _).trans h

/-- Resetting forgets every picture. -/
theorem reset_pictures (m : Model) (g : Engine) : (m.reset g).1.cache.pictures = [] := by
  unfold reset
  dsimp only
  split <;> rfl

end Model

end Viewer
end Thumbnailer
