import Thumbnailer.Proofs.Generator.PageAgreement
import Thumbnailer.Proofs.Generator.Stamps

/-!
# What the generator announces

Every event the generator sends goes to each subscriber still listening, appended to its inbox
(`Bus.inbox_foldl_emit`). `Announces g g' made failed` says that `g'` is `g` after sending some
events, `made` of them thumbnails and `failed` of them errors.

A thumbnail is announced exactly when a completion handled is a thumbnail made, and an error
exactly when one is a final failure or when `generateWith` refuses a request; every other event
the generator sends is bookkeeping: the queue size, the number of active jobs, a cancellation, or
progress (`Engine.Op.announces`, `Engine.run_announces`). A refused `generateRange` or
`generateBatch` sends nothing.

A cancellation that removes anything sends one `cancelled` event for its page, as long as the
page table agrees with the scheduler (`cancelRequest_announces_cancelled`), which it does in
every reachable state.
-/

namespace Thumbnailer
namespace Schedule

/-- Whether the completion is a failure for good. -/
def Completion.isFailed : Completion → Bool
  | .failed .. => true
  | _ => false

end Schedule

namespace Generator

namespace Event

/-- Whether the event announces a thumbnail. -/
def isGenerated : Event → Bool
  | .generated .. => true
  | _ => false

/-- Whether the event announces an error. -/
def isError : Event → Bool
  | .error .. => true
  | _ => false

/-- Whether the event announces a cancellation. -/
def isCancelled : Event → Bool
  | .cancelled _ => true
  | _ => false

end Event

namespace Bus

/-- Whether subscriber `id` listens: draining it answers. -/
def Listens (b : Bus) (id : Nat) : Prop := (b.drain id).isSome

/-- The events waiting for subscriber `id`, as draining it would take them; none when it does
not listen. -/
def inbox (b : Bus) (id : Nat) : List Event := ((b.drain id).map (·.1)).getD []

theorem listens_iff (b : Bus) (id : Nat) :
    b.Listens id ↔ (b.subscribers.find? fun s => s.id == id && s.listening).isSome := by
  unfold Listens drain
  split <;> simp_all

theorem inbox_eq (b : Bus) (id : Nat) :
    b.inbox id = ((b.subscribers.find? fun s => s.id == id && s.listening).map (·.inbox)).getD [] := by
  unfold inbox drain
  split <;> rename_i h <;> simp [h]

/-- Sending an event appends it to every listening subscriber's inbox. -/
theorem find?_emit (b : Bus) (e : Event) (id : Nat) :
    (b.emit e).subscribers.find? (fun s => s.id == id && s.listening) =
      (b.subscribers.find? fun s => s.id == id && s.listening).map
        fun s => { s with inbox := s.inbox ++ [e] } := by
  simp only [emit, List.find?_map, List.find?_filter, Function.comp_def]
  congr 2
  funext s
  by_cases hs : s.id = id <;> cases s.listening <;> simp [hs]

theorem Listens.emit {b : Bus} {id : Nat} (h : b.Listens id) (e : Event) : (b.emit e).Listens id := by
  rw [listens_iff, find?_emit, Option.isSome_map]
  exact (listens_iff b id).1 h

theorem inbox_emit {b : Bus} {id : Nat} (h : b.Listens id) (e : Event) :
    (b.emit e).inbox id = b.inbox id ++ [e] := by
  obtain ⟨s, hs⟩ := Option.isSome_iff_exists.1 ((listens_iff b id).1 h)
  rw [inbox_eq, inbox_eq, find?_emit, hs]
  rfl

/-- **A listening subscriber receives every event sent, in order.** -/
theorem inbox_foldl_emit {b : Bus} {id : Nat} (h : b.Listens id) (evs : List Event) :
    (evs.foldl emit b).inbox id = b.inbox id ++ evs ∧ (evs.foldl emit b).Listens id := by
  induction evs generalizing b with
  | nil => exact ⟨(List.append_nil _).symm, h⟩
  | cons e evs ih =>
    obtain ⟨h₁, h₂⟩ := ih (h.emit e)
    rw [List.foldl_cons, h₁, inbox_emit h]
    exact ⟨by simp, h₂⟩

end Bus

open Schedule Render Page

namespace Engine

/-! ### Counting what is sent -/

/-- `g'` is `g` after sending some events in order, `made` of them thumbnails and `failed` of
them errors. -/
def Announces (g g' : Engine) (made failed : Nat) : Prop :=
  ∃ evs : List Event, g'.bus = evs.foldl Bus.emit g.bus ∧
    (evs.filter (·.isGenerated)).length = made ∧ (evs.filter (·.isError)).length = failed

theorem Announces.same {g g' : Engine} (h : g'.bus = g.bus) : Announces g g' 0 0 :=
  ⟨[], h, rfl, rfl⟩

theorem Announces.emit (g : Engine) (e : Event) :
    Announces g (g.emit e) (if e.isGenerated then 1 else 0) (if e.isError then 1 else 0) :=
  ⟨[e], rfl, by cases hg : e.isGenerated <;> simp [hg], by cases he : e.isError <;> simp [he]⟩

/-- Sending bookkeeping: the queue size, the active jobs, a cancellation or progress. -/
theorem Announces.note {g : Engine} {e : Event} (hg : e.isGenerated = false) (he : e.isError = false) :
    Announces g (g.emit e) 0 0 := by
  simpa [hg, he] using Announces.emit g e

theorem Announces.trans {g₁ g₂ g₃ : Engine} {a b c d : Nat} (h₁ : Announces g₁ g₂ a b)
    (h₂ : Announces g₂ g₃ c d) : Announces g₁ g₃ (a + c) (b + d) := by
  obtain ⟨evs₁, hb₁, ha₁, he₁⟩ := h₁
  obtain ⟨evs₂, hb₂, ha₂, he₂⟩ := h₂
  refine ⟨evs₁ ++ evs₂, by rw [hb₂, hb₁, List.foldl_append], ?_, ?_⟩
  · rw [List.filter_append, List.length_append, ha₁, ha₂]
  · rw [List.filter_append, List.length_append, he₁, he₂]

/-- What is sent depends on the bus only. -/
theorem Announces.from_bus {g₀ g g' : Engine} {a b : Nat} (hb : g.bus = g₀.bus)
    (h : Announces g g' a b) : Announces g₀ g' a b := by
  simpa using (Announces.same hb).trans h

theorem Announces.trans_same {g₁ g₂ g₃ : Engine} {a b : Nat} (h : Announces g₁ g₂ a b)
    (hb : g₃.bus = g₂.bus) : Announces g₁ g₃ a b := by
  simpa using h.trans (Announces.same hb)

/-- A bookkeeping event after others. -/
theorem Announces.then_note {g₁ g₂ : Engine} {a b : Nat} {e : Event} (h : Announces g₁ g₂ a b)
    (hg : e.isGenerated = false) (he : e.isError = false) : Announces g₁ (g₂.emit e) a b := by
  simpa using h.trans (Announces.note hg he)

/-! ### What each call sends -/

theorem settle_bus (g : Engine) (page : Nat) (s : PageState) : (g.settle page s).bus = g.bus :=
  settle_keeps Engine.bus (fun _ _ _ => rfl) g page s

theorem releaseQueued_announces (g : Engine) (removed : List Schedule.Request) :
    Announces g (g.releaseQueued removed) 0 0 := by
  unfold releaseQueued
  -- each page released sends at most a cancellation
  refine List.foldlRecOn (motive := fun g' => Announces g g' 0 0) _ _ (Announces.same rfl)
    fun g' h page _ => ?_
  unfold releasePage
  split
  · exact h
  · split
    · exact h.trans_same rfl
    · rw [transition_eq]
      split
      · rename_i heq
        obtain ⟨-, rfl⟩ := Prod.mk.inj heq
        exact h.then_note rfl rfl
      · rename_i heq
        obtain ⟨-, rfl⟩ := Prod.mk.inj heq
        exact h.trans_same rfl

theorem admitQueued_announces (g : Engine) : Announces g g.admitQueued 0 0 := by
  unfold admitQueued
  split
  · exact Announces.same rfl
  · dsimp only
    split
    · exact Announces.same rfl
    · -- marking the started pages sends nothing; the counts are bookkeeping
      have hm : Announces g (g.scheduler.dispatch.1.foldl (fun g r => g.moveTo r.page .rendering)
          { g with scheduler := g.scheduler.dispatch.2 }) 0 0 :=
        Announces.same (foldl_moveTo_keeps Engine.bus (fun _ _ _ => rfl) _ _ _)
      exact (hm.then_note rfl rfl).then_note rfl rfl

/-- Jobs that fail at once post their failures and send nothing. -/
theorem dispatch_announces (g : Engine) : Announces g g.dispatch 0 0 :=
  (admitQueued_announces g).trans (Announces.same (runEarly_bus _))

theorem enqueue_bus (g : Engine) (page : Nat) (v : Variant) (priority : Int) :
    (g.enqueue page v priority).2.bus = g.bus := by
  unfold enqueue
  dsimp only
  split <;> rfl

theorem enqueueAll_bus (g : Engine) (v : Variant) (pages : List (Nat × Int)) :
    (g.enqueueAll v pages).2.bus = g.bus := by
  unfold enqueueAll
  refine List.foldlRecOn (motive := fun acc : Nat × Engine => acc.2.bus = g.bus) _ _ rfl
    fun acc h x _ => ?_
  have he := enqueue_bus acc.2 x.1 v x.2
  unfold enqueueCounted
  split <;> rename_i g' hq <;> rw [hq] at he <;> exact he.trans h

theorem afterEnqueue_announces (g : Engine) (n : Nat) : Announces g (g.afterEnqueue n) 0 0 := by
  unfold afterEnqueue
  split
  · exact (Announces.note rfl rfl).trans (dispatch_announces _)
  · exact Announces.same rfl

/-- **A refused request is announced as an error**; an accepted one is bookkeeping only. -/
theorem generateWith_announces (g : Engine) (page : Nat) (o : Options) :
    Announces g (g.generateWith page o).2 0 (if (g.generateWith page o).1.isOk then 0 else 1) := by
  rcases Option.eq_none_or_eq_some (g.validate page (g.variant o).size) with hv | ⟨e, hv⟩
  · -- accepted: queued or not, only the queue size is announced
    have he := enqueue_bus g page (g.variant o) o.priority
    unfold generateWith
    simp only [hv]
    rcases hq : g.enqueue page (g.variant o) o.priority with ⟨_ | _, g'⟩ <;> rw [hq] at he
    · simpa [Except.isOk, Except.toBool] using Announces.same he
    · simpa [Except.isOk, Except.toBool] using
        ((Announces.same he).then_note rfl rfl).trans (dispatch_announces _)
  · unfold generateWith
    simp only [hv]
    simpa [Except.isOk, Except.toBool, Event.isGenerated, Event.isError] using
      Announces.emit g (.error page e.message)

/-- A range sends no error, even when it is refused. -/
theorem generateRange_announces (g : Engine) (first last : Nat) (size : Option Target)
    (quality : Option Float) : Announces g (g.generateRange first last size quality).2 0 0 := by
  unfold generateRange
  split
  · exact Announces.same rfl
  · dsimp only
    split
    · exact Announces.same rfl
    · split
      · exact Announces.same rfl
      · exact (Announces.same (enqueueAll_bus _ _ _)).trans (afterEnqueue_announces _ _)

/-- A batch sends no error, even when it is refused. -/
theorem generateBatch_announces (g : Engine) (pages : List Nat) :
    Announces g (g.generateBatch pages).2 0 0 := by
  unfold generateBatch
  split
  · exact Announces.same rfl
  · exact (Announces.same (enqueueAll_bus _ _ _)).trans (afterEnqueue_announces _ _)

/-- **A completion handled announces what it is**: a thumbnail made, or an error for a failure
for good; a retry only announces the queue size, and a discard nothing. -/
theorem handleOne_announces (g : Engine) (c : Completion) :
    Announces g (g.handleOne c) (if c.isFinished then 1 else 0) (if c.isFailed then 1 else 0) := by
  cases c with
  | finished r b =>
    exact (Announces.same (settle_bus _ _ _)).trans (Announces.emit _ (.generated r.page r.size r.quality b))
  | retrying r e => exact Announces.note rfl rfl
  | failed r e =>
    exact (Announces.same (settle_bus _ _ _)).trans (Announces.emit _ (.error r.page e.message))
  | discarded p => exact Announces.same rfl

theorem handleCompletions_announces (g : Engine) (cs : List Completion) :
    Announces g (g.handleCompletions cs) (cs.filter (·.isFinished)).length
      (cs.filter (·.isFailed)).length := by
  have key : ∀ (cs : List Completion) (g : Engine), Announces g (cs.foldl handleOne g)
      (cs.filter (·.isFinished)).length (cs.filter (·.isFailed)).length := by
    intro cs
    induction cs with
    | nil => exact fun g => Announces.same rfl
    | cons c cs ih =>
      intro g
      have h := (handleOne_announces g c).trans (ih (g.handleOne c))
      rw [List.foldl_cons, List.filter_cons, List.filter_cons]
      cases hf : c.isFinished <;> cases hx : c.isFailed <;> simp only [hf, hx] at h ⊢ <;>
        simpa [Nat.add_comm] using h
  rw [handleCompletions_eq]
  split
  · rename_i h
    simpa [List.isEmpty_iff.1 h] using Announces.same (g := g) rfl
  · exact (key cs g).then_note rfl rfl

theorem batchTick_announces (g : Engine) (now : Instant) : Announces g (g.batchTick now) 0 0 := by
  unfold batchTick
  dsimp only
  split
  · exact Announces.same rfl
  · exact Announces.note rfl rfl

theorem batchIfDue_announces (g : Engine) (now : Instant) : Announces g (g.batchIfDue now) 0 0 := by
  unfold batchIfDue
  split
  · -- recording the instant sends nothing
    have hl : Announces g { g with lastBatch := now } 0 0 := Announces.same rfl
    simpa using hl.trans (batchTick_announces _ now)
  · exact Announces.same rfl

/-- What a scheduler's resolutions come to, counted among their completions. -/
theorem count_completions (es : List (Scheduler × Outcome × Completion)) (p : Completion → Bool) :
    ((es.map (·.2.2)).filter p).length = (es.filter (p ·.2.2)).length := by
  rw [List.filter_map, List.length_map]
  rfl

/-- **One event of the scheduler whose completions the generator handles** announces the
thumbnails made and the failures for good among its resolutions. -/
theorem announces_handle (sop : Scheduler.Op) (g : Engine) :
    Announces g ({ g with scheduler := (sop.step g.scheduler).2 }.handleCompletions (sop.step g.scheduler).1)
      ((sop.trace g.scheduler).filter (·.2.2.isFinished)).length
      ((sop.trace g.scheduler).filter (·.2.2.isFailed)).length := by
  have h := handleCompletions_announces { g with scheduler := (sop.step g.scheduler).2 } (sop.step g.scheduler).1
  simp only [Scheduler.Op.step_fst, count_completions] at h ⊢
  exact Announces.from_bus rfl h

theorem tick_announces (g : Engine) (now : Instant) :
    Announces g (g.tick now).2 ((Scheduler.Op.drainCompletions.trace g.scheduler).filter (·.2.2.isFinished)).length
      ((Scheduler.Op.drainCompletions.trace g.scheduler).filter (·.2.2.isFailed)).length := by
  let h := { g with scheduler := g.scheduler.drainCompletions.2 }.handleCompletions
    g.scheduler.drainCompletions.1
  have hh : Announces g h ((Scheduler.Op.drainCompletions.trace g.scheduler).filter (·.2.2.isFinished)).length
      ((Scheduler.Op.drainCompletions.trace g.scheduler).filter (·.2.2.isFailed)).length :=
    announces_handle .drainCompletions g
  -- a batch tick and the dispatch after it are bookkeeping
  have hb : Announces g (h.batchIfDue now)
      ((Scheduler.Op.drainCompletions.trace g.scheduler).filter (·.2.2.isFinished)).length
      ((Scheduler.Op.drainCompletions.trace g.scheduler).filter (·.2.2.isFailed)).length := by
    simpa using hh.trans (batchIfDue_announces h now)
  have ht := hb.trans (dispatch_announces _)
  simp only [Nat.add_zero] at ht
  exact ht

theorem pump_announces (g : Engine) (now : Instant) :
    let es := Scheduler.Op.waitCompletion.trace g.dispatch.scheduler ++
      Scheduler.Op.drainCompletions.trace g.dispatch.scheduler.waitCompletion.2
    Announces g (g.pump now).2 (es.filter (·.2.2.isFinished)).length (es.filter (·.2.2.isFailed)).length := by
  intro es
  -- the completion waited for, if any, is handled; then the tick drains
  let h := { g.dispatch with scheduler := g.dispatch.scheduler.waitCompletion.2 }.handleCompletions
    g.dispatch.scheduler.waitCompletion.1.toList
  have hw : Announces g.dispatch h
      ((Scheduler.Op.waitCompletion.trace g.dispatch.scheduler).filter (·.2.2.isFinished)).length
      ((Scheduler.Op.waitCompletion.trace g.dispatch.scheduler).filter (·.2.2.isFailed)).length :=
    announces_handle .waitCompletion g.dispatch
  have hh : h.scheduler = g.dispatch.scheduler.waitCompletion.2 := handleCompletions_scheduler _ _
  have ht := tick_announces h now
  rw [hh] at ht
  have hp := ((dispatch_announces g).trans hw).trans ht
  rw [pump_eq]
  simpa [es, List.filter_append] using hp

/-- **A cancellation is bookkeeping only**: the cancellation of the page, the queue size and the
number of active jobs. -/
theorem cancelRequest_announces (g : Engine) (page : Nat) : Announces g (g.cancelRequest page) 0 0 := by
  unfold cancelRequest
  dsimp only
  split
  · exact Announces.same rfl
  · rw [transition_eq]
    split <;> split <;>
    · rename_i heq
      obtain ⟨-, rfl⟩ := Prod.mk.inj heq
      repeat refine Announces.then_note ?_ rfl rfl
      exact Announces.same rfl

theorem clearQueue_announces (g : Engine) : Announces g g.clearQueue 0 0 :=
  (Announces.from_bus rfl (releaseQueued_announces _ _)).then_note rfl rfl

theorem stop_announces (g : Engine) : Announces g g.stop 0 0 := by
  unfold stop
  dsimp only
  exact ((Announces.from_bus rfl (releaseQueued_announces _ _)).then_note rfl rfl).then_note rfl rfl

theorem setThumbnailSize_announces (g : Engine) (size : Target) :
    Announces g (g.setThumbnailSize size) 0 0 := by
  unfold setThumbnailSize
  split
  · exact Announces.same rfl
  · dsimp only
    split
    · exact Announces.same rfl
    · exact (Announces.from_bus rfl (releaseQueued_announces _ _)).then_note rfl rfl

theorem replaceDocument_announces (g : Engine) (src : Option Source) :
    Announces g (g.replaceDocument src) 0 0 := by
  unfold replaceDocument
  dsimp only
  exact ((Announces.same rfl).then_note rfl rfl).then_note rfl rfl

/-! ### Every event and every run -/

/-- Whether an event is a call of `generateWith` that is refused. -/
def Op.rejected : Op → Engine → Bool
  | .generate page o, g => !(g.generateWith page o).1.isOk
  | _, _ => false

/-- The calls of `generateWith` refused along a run. -/
def rejections (g : Engine) : List Op → Nat
  | [] => 0
  | op :: ops => (if op.rejected g then 1 else 0) + rejections (op.step g) ops

/-- **Each event announces the thumbnails made and the failures for good among the completions
it handles, and the request it refuses.** -/
theorem Op.announces (op : Op) (g : Engine) :
    Announces g (op.step g) ((op.trace g).filter (·.2.2.isFinished)).length
      (((op.trace g).filter (·.2.2.isFailed)).length + if op.rejected g then 1 else 0) := by
  cases op with
  | generate page o =>
    have h := generateWith_announces g page o
    cases hok : (g.generateWith page o).1.isOk <;> simpa [Op.step, Op.trace, Op.rejected, hok] using h
  | generateRange first last size quality =>
    exact generateRange_announces g first last size quality
  | generateBatch pages => exact generateBatch_announces g pages
  | tick now => simpa [Op.step, Op.trace, Op.rejected] using tick_announces g now
  | pump now => simpa [Op.step, Op.trace, Op.rejected] using pump_announces g now
  | finish i result =>
    simp only [Op.step]
    split <;> exact Announces.same rfl
  | cancelRequest page => exact cancelRequest_announces g page
  | clearQueue => exact clearQueue_announces g
  | resume => exact Announces.from_bus rfl (dispatch_announces _)
  | start => exact Announces.from_bus rfl (dispatch_announces _)
  | stop => exact stop_announces g
  | setThumbnailSize size => exact setThumbnailSize_announces g size
  | setDocument src => exact replaceDocument_announces g src
  | setPriority _ _ | pause | setQuality _ | setRenderMode _ | setCacheStrategy _
  | setMaxConcurrentJobs _ | setMaxRetries _ | setGpuEnabled _ | setCompressionEnabled _
  | setCompressionQuality _ | setCacheCapacity _ | setMemoryPoolSize _ | setDevicePixelRatio _ =>
    exact Announces.same rfl

/-- **What a run announces**: a thumbnail for each thumbnail made among the completions it
handles, and an error for each failure for good and each request `generateWith` refused. -/
theorem run_announces (g : Engine) (ops : List Op) :
    Announces g (g.run ops) ((g.trace ops).filter (·.2.2.isFinished)).length
      (((g.trace ops).filter (·.2.2.isFailed)).length + g.rejections ops) := by
  induction ops generalizing g with
  | nil => exact Announces.same rfl
  | cons op ops ih =>
    have h := (op.announces g).trans (ih (op.step g))
    simp only [trace, rejections, run_cons, List.filter_append, List.length_append]
    have hf : ((op.trace g).filter (·.2.2.isFailed)).length + (if op.rejected g then 1 else 0) +
        ((((op.step g).trace ops).filter (·.2.2.isFailed)).length + (op.step g).rejections ops) =
        ((op.trace g).filter (·.2.2.isFailed)).length +
          (((op.step g).trace ops).filter (·.2.2.isFailed)).length +
          ((if op.rejected g then 1 else 0) + (op.step g).rejections ops) := by
      omega
    rw [← hf]
    exact h

/-! ### Cancellations -/

/-- A page queued or rendering may always be cancelled. -/
theorem transition_cancelled {t : PageStates} {page : Nat} (h : (t.get page).isPending = true) :
    (t.transition page .cancelled).1 = true := by
  unfold PageStates.transition
  generalize t.get page = st at h ⊢
  cases st <;> simp_all [PageState.isPending, PageState.canTransitionTo]

/-- **A cancellation that removes anything announces it once**, for its page, when the page
table agrees with the scheduler: the page has work, so it is queued or rendering and moves to
cancelled. -/
theorem cancelRequest_announces_cancelled {g : Engine} (h : g.StatesAgree) {page : Nat}
    (hne : (g.scheduler.cancel page).1.isEmpty = false) :
    ∃ evs : List Event, (g.cancelRequest page).bus = evs.foldl Bus.emit g.bus ∧
      evs.filter (·.isCancelled) = [.cancelled page] := by
  have hw : g.scheduler.isQueued page = true ∨ g.scheduler.hasActive page = true := by
    rw [Scheduler.cancel_isEmpty] at hne
    cases hq : g.scheduler.isQueued page <;> simp_all
  have ht : (g.states.transition page .cancelled).1 = true := transition_cancelled ((h page).2.2 hw)
  unfold cancelRequest
  simp only [hne, transition_eq, ht, Bool.false_eq_true, ↓reduceIte]
  split
  · exact ⟨[.cancelled page, .queueSize _, .activeJobs _], rfl, rfl⟩
  · exact ⟨[.cancelled page, .queueSize _], rfl, rfl⟩

end Engine
end Generator
end Thumbnailer
