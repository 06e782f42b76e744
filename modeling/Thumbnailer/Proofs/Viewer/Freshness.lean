import Thumbnailer.Proofs.Viewer.Session

/-!
# The model never serves a stale thumbnail

The model caches a thumbnail only when a sync applies a `generated` event for the generator's
current size and for a quality within `qualityEpsilon` of its current one (`Model.isCurrent`,
checked against the defaults at the time of the sync). The defaults change only through the
model's setters, which forget every cached thumbnail at once; renders started before such a
change still arrive afterwards, as ordinary events, and the check at sync time turns them
away.

`Model.Fresh evs m g` says that every picture in the model's cache came from a `generated`
event among `evs` for its page, current for `g`. It holds of a new model, and every event of
a session keeps it, the events the model's syncs took from its inbox added to `evs`
(`Model.Fresh.step`). So along every run in which nobody calls the generator's own setters,
whatever the model is asked, whatever else happens to the generator and in whatever order
workers end their jobs, the cache holds only current thumbnails from events the model applied,
and `thumbnail` and `request` answer only those (`cached_thumbnails_are_current`).
-/

namespace Thumbnailer
namespace Viewer

open Generator Schedule Cache

namespace Model

theorem isCurrent_iff {g : Engine} {size : Page.Target} {quality : Float} :
    isCurrent g size quality = true ↔ size = g.thumbnailSize ∧ (quality - g.quality).abs < qualityEpsilon := by
  simp [isCurrent]

/-- Whether a thumbnail is current depends on the generator's defaults only. -/
theorem isCurrent_congr {g g' : Engine} (h : g'.defaults = g.defaults) (size : Page.Target) (quality : Float) :
    isCurrent g' size quality = isCurrent g size quality := by
  obtain ⟨hs, hq⟩ := Prod.mk.inj h
  simp only [isCurrent, hs, hq]

/-! ### What a sync brings in -/

/-- **Applying an event brings in at most its own thumbnail, and only a current one.** -/
theorem apply_pictures {m m' : Model} {g : Engine} {now : Instant} {e : Event} {updated : Bool}
    (h : m.apply g now e = .ok (updated, m')) :
    ∀ x ∈ m'.cache.pictures, x ∈ m.cache.pictures ∨ ∃ page size quality, x.1 = cacheKey page ∧
      e = .generated page size quality x.2 ∧ isCurrent g size quality = true := by
  intro x hx
  cases e with
  | generated page size quality b =>
    by_cases hc : isCurrent g size quality = true
    · -- a current thumbnail is stored under its page's key
      simp only [apply, hc, Bool.not_true, Bool.false_eq_true, ↓reduceIte] at h
      obtain ⟨⟨stored, cache⟩, hins, hset⟩ := except_bind_eq_ok.1 h
      cases hset
      rcases PageCache.insert_pictures hins x hx with hx | rfl
      · exact .inl hx
      · exact .inr ⟨page, size, quality, rfl, rfl, hc⟩
    · simp only [apply, hc, Bool.not_false, ↓reduceIte] at h
      cases h
      exact .inl hx
  | error page message =>
    cases h
    exact .inl hx
  | cancelled page =>
    simp only [apply] at h
    split at h <;>
    · cases h
      exact .inl hx
  | queueSize _ | activeJobs _ | progress _ _ =>
    cases h
    exact .inl hx

theorem foldlM_applyCounted_pictures (g : Engine) (events : List Event) {now : Instant}
    {acc acc' : Nat × Model} (h : events.foldlM (applyCounted g now) acc = .ok acc') :
    ∀ x ∈ acc'.2.cache.pictures, x ∈ acc.2.cache.pictures ∨ ∃ page size quality, x.1 = cacheKey page ∧
      Event.generated page size quality x.2 ∈ events ∧ isCurrent g size quality = true := by
  induction events generalizing acc with
  | nil =>
    cases h
    exact fun x hx => .inl hx
  | cons e es ih =>
    -- the first event is applied, then the others to what it left
    rw [List.foldlM_cons] at h
    obtain ⟨acc₁, h₁, h₂⟩ := except_bind_eq_ok.1 h
    obtain ⟨⟨updated, m₁⟩, happly, hcount⟩ := except_bind_eq_ok.1 h₁
    cases hcount
    intro x hx
    rcases ih h₂ x hx with hx | ⟨page, size, quality, hk, hmem, hc⟩
    · rcases apply_pictures happly x hx with hx | ⟨page, size, quality, hk, rfl, hc⟩
      · exact .inl hx
      · exact .inr ⟨page, size, quality, hk, List.mem_cons_self, hc⟩
    · exact .inr ⟨page, size, quality, hk, List.mem_cons_of_mem e hmem, hc⟩

/-- **A sync brings in only current thumbnails from the events in the model's inbox**, and
leaves the generator's defaults alone. -/
theorem sync_pictures {m m' : Model} {g g' : Engine} {now : Instant} {n : Nat}
    (h : m.sync g now = .ok (n, m', g')) :
    g'.defaults = g.defaults ∧ ∀ x ∈ m'.cache.pictures, x ∈ m.cache.pictures ∨
      ∃ page size quality, x.1 = cacheKey page ∧
        Event.generated page size quality x.2 ∈ Session.pending m g ∧ isCurrent g size quality = true := by
  unfold sync at h
  split at h
  · rename_i events bus hdrain
    obtain ⟨⟨n₁, m₁⟩, hfold, hpure⟩ := except_bind_eq_ok.1 h
    cases hpure
    have hpending : Session.pending m g = events := by simp [Session.pending, hdrain]
    refine ⟨rfl, fun x hx => ?_⟩
    rw [hpending]
    -- the events are checked against the generator with its inbox drained: same defaults
    have hd : ({ g with bus } : Engine).defaults = g.defaults := rfl
    simpa only [isCurrent_congr hd] using
      foldlM_applyCounted_pictures { g with bus } events hfold x hx
  · cases h
    exact ⟨rfl, fun x hx => .inl hx⟩

/-! ### The invariant -/

/-- Every picture the model's cache holds came from a `generated` event among `evs` for its
page, made at the generator's current size and at a quality within the tolerance of its
current one. -/
def Fresh (evs : List Event) (m : Model) (g : Engine) : Prop :=
  ∀ x ∈ m.cache.pictures, ∃ page size quality, x.1 = cacheKey page ∧
    Event.generated page size quality x.2 ∈ evs ∧ isCurrent g size quality = true

theorem fresh_of_pictures_eq_nil {evs : List Event} {m : Model} {g : Engine}
    (h : m.cache.pictures = []) : Fresh evs m g := by
  intro x hx
  rw [h] at hx
  cases hx

theorem Fresh.mono {evs evs' : List Event} {m : Model} {g : Engine} (h : Fresh evs m g)
    (hsub : evs ⊆ evs') : Fresh evs' m g := by
  intro x hx
  obtain ⟨page, size, quality, hk, hmem, hc⟩ := h x hx
  exact ⟨page, size, quality, hk, hsub hmem, hc⟩

/-- A call that brings in no picture and keeps the defaults keeps the cache fresh. -/
theorem Fresh.quiet {evs : List Event} {m m' : Model} {g g' : Engine} (h : Fresh evs m g)
    (hq : Quiet m g m' g') : Fresh evs m' g' := by
  intro x hx
  obtain ⟨page, size, quality, hk, hmem, hc⟩ := h x (hq.cache hx)
  exact ⟨page, size, quality, hk, hmem, by rwa [isCurrent_congr hq.defaults]⟩

theorem fresh_create (g : Engine) (config : Config.ModelConfig) (cache : Config.CacheConfig) :
    Fresh [] (create g config cache).1 (create g config cache).2 := by
  refine fresh_of_pictures_eq_nil ?_
  unfold create
  dsimp only
  split <;> rfl

theorem Fresh.reset {evs : List Event} (m : Model) (g : Engine) : Fresh evs (m.reset g).1 (m.reset g).2 :=
  fresh_of_pictures_eq_nil (reset_pictures m g)

/-- **Every event of a session keeps the cache fresh**, counting the events its sync takes
from the model's inbox, as long as it is no call of the generator's own setters. -/
theorem Fresh.step {evs : List Event} {m : Model} {g : Engine} (h : Fresh evs m g) {op : Session.Op}
    (hop : op.leavesDefaults = true) {s : Model × Engine} (hs : op.step m g = .ok s) :
    Fresh (evs ++ op.synced m g) s.1 s.2 := by
  -- every event but a sync adds no event to those applied
  have hkeep : ∀ {m' : Model} {g' : Engine}, Quiet m g m' g' → Fresh (evs ++ op.synced m g) m' g' :=
    fun hq => (h.quiet hq).mono (List.subset_append_left _ _)
  cases op with
  | request page now =>
    cases hs
    exact hkeep (request_quiet m g page now)
  | requestRange start stop now =>
    cases hs
    exact hkeep (requestRange_quiet m g start stop now)
  | preload first last =>
    cases hs
    exact hkeep (preload_quiet m g first last)
  | refresh page =>
    cases hs
    exact hkeep (refresh_quiet m g page)
  | setViewport start stop margin =>
    cases hs
    exact hkeep (setViewport_quiet m g start stop margin)
  | setThumbnailSize size =>
    cases hs
    unfold setThumbnailSize
    split
    · exact hkeep (Quiet.refl m g)
    · exact Fresh.reset m _
  | setQuality q =>
    cases hs
    exact Fresh.reset m _
  | setDocument src now =>
    obtain ⟨g', -, hr⟩ := except_bind_eq_ok.1 hs
    cases hr
    exact Fresh.reset m g'
  | sync now =>
    obtain ⟨⟨n, m', g'⟩, hsync, hr⟩ := except_bind_eq_ok.1 hs
    cases hr
    obtain ⟨hd, hpic⟩ := sync_pictures hsync
    intro x hx
    rcases hpic x hx with hx | ⟨page, size, quality, hk, hmem, hc⟩
    · obtain ⟨page, size, quality, hk, hmem, hc⟩ := h x hx
      exact ⟨page, size, quality, hk, List.mem_append_left _ hmem, by rwa [isCurrent_congr hd]⟩
    · exact ⟨page, size, quality, hk, List.mem_append_right _ hmem, by rwa [isCurrent_congr hd]⟩
  | clearCache =>
    cases hs
    exact hkeep ⟨PageCache.clear_keeps _, rfl⟩
  | setCacheSize n =>
    cases hs
    exact hkeep ⟨PageCache.setMaxItems_keeps _ n, rfl⟩
  | setMemoryLimit n =>
    cases hs
    exact hkeep ⟨PageCache.setMaxBytes_keeps _ n, rfl⟩
  | cleanup now =>
    cases hs
    exact hkeep ⟨PageCache.cleanupAt_keeps _ now, rfl⟩
  | generator op =>
    cases hs
    have hsets : op.setsDefaults = false := by simpa [Session.Op.leavesDefaults] using hop
    exact hkeep ⟨PageCache.Keeps.refl _, op.step_defaults hsets g⟩
  | release i l now =>
    simp only [Session.Op.step] at hs
    split at hs
    · obtain ⟨g', hrel, hr⟩ := except_bind_eq_ok.1 hs
      cases hr
      exact hkeep ⟨PageCache.Keeps.refl _, Engine.release_defaults hrel⟩
    · cases hs
      exact hkeep (Quiet.refl m g)

/-- **Every run keeps the cache fresh.** -/
theorem Fresh.run {evs : List Event} {s s' : Model × Engine} (h : Fresh evs s.1 s.2) (ops : List Session.Op)
    (hops : ∀ op ∈ ops, op.leavesDefaults = true) (hrun : Session.run s ops = .ok s') :
    Fresh (evs ++ Session.synced s ops) s'.1 s'.2 := by
  induction ops generalizing evs s with
  | nil =>
    cases hrun
    simpa [Session.synced] using h
  | cons op ops ih =>
    obtain ⟨t, hstep, hrest⟩ := Session.run_cons_ok hrun
    have ht := ih (h.step (hops op List.mem_cons_self) hstep) (fun o ho => hops o (List.mem_cons_of_mem op ho))
      hrest
    rwa [Session.synced_cons_of_ok ops hstep, ← List.append_assoc]

end Model

/-- **The model never serves a stale thumbnail.** Start a model over any generator and run any
sequence of calls on the model, calls on the generator other than its own setters of the
default size and quality, and workers ending jobs in any order with any outcome. In every
state reached, every bitmap in the model's page cache, and so every bitmap `thumbnail` or
`request` answers for a page, comes from a `generated` event that one of the model's syncs
applied, for that page, made at the generator's current default size and at a quality within
0.001 of its current default quality. -/
theorem cached_thumbnails_are_current (g₀ : Engine) (config : Config.ModelConfig)
    (cacheConfig : Config.CacheConfig) (ops : List Session.Op) (hops : ∀ op ∈ ops, op.leavesDefaults = true)
    {m : Model} {g : Engine} (hrun : Session.run (Model.create g₀ config cacheConfig) ops = .ok (m, g)) :
    let served := fun (key : Nat) (b : Raster.Bitmap) => ∃ page size quality, key = cacheKey page ∧
      Event.generated page size quality b ∈ Session.synced (Model.create g₀ config cacheConfig) ops ∧
      size = g.thumbnailSize ∧ (quality - g.quality).abs < qualityEpsilon
    (∀ x ∈ m.cache.pictures, served x.1 x.2) ∧
      (∀ page b, m.thumbnail page = some b → served (cacheKey page) b) ∧
      (∀ page now b, (m.request g page now).1 = some b → served (cacheKey page) b) := by
  intro served
  have hf := (Model.fresh_create g₀ config cacheConfig).run ops hops hrun
  have hall : ∀ x ∈ m.cache.pictures, served x.1 x.2 := fun x hx => by
    obtain ⟨page, size, quality, hk, hmem, hc⟩ := hf x hx
    exact ⟨page, size, quality, hk, by simpa using hmem, Model.isCurrent_iff.1 hc⟩
  refine ⟨hall, fun page b hb => hall _ (PageCache.peek_mem_pictures hb), fun page now b hb => ?_⟩
  -- a request answers from the cache's lookup
  unfold Model.request at hb
  dsimp only at hb
  split at hb
  · rename_i b' hget
    cases hb
    exact hall _ (PageCache.get_mem_pictures hget)
  · split at hb <;> cases hb

/-- A one-page document whose page rasterizes to an 8 × 8 bitmap at every resolution. -/
def squareTile : Page.Source where
  numPages := 1
  pageSize := fun _ => some ⟨612, 792⟩
  rasterize := fun _ _ _ _ => .ok (Raster.Bitmap.decodedOf 8 8)

/-- A model opens a one-page document and asks for its page; the size changes while the render
runs, the worker lets it through, the generator pumps, and the model syncs: it takes the
thumbnail of the old size and keeps nothing. -/
theorem cached_thumbnails_are_current_across_resize :
    let s := Model.create (Engine.create { cache := { compressionEnabled := false } } none) {} {}
    let ops : List Session.Op :=
      [.setDocument (some squareTile) (Instant.tick 1), .request 0 (Instant.tick 2),
        .setThumbnailSize ⟨80, 120⟩, .release 0 .found (Instant.tick 3),
        .generator (.pump (Instant.tick 4)), .sync (Instant.tick 5)]
    ∃ m g, Session.run s ops = .ok (m, g) ∧ g.generated = 1 ∧
      "generated" ∈ (Session.synced s ops).map Event.name ∧ m.cache.pictures = [] ∧
      ∀ x ∈ m.cache.pictures, ∃ page size quality, x.1 = cacheKey page ∧
        Event.generated page size quality x.2 ∈ Session.synced s ops ∧
        size = g.thumbnailSize ∧ (quality - g.quality).abs < qualityEpsilon := by
  intro s ops
  -- the run is evaluated by the kernel: the thumbnail's own size, which goes through a
  -- rounding, is never looked at
  have hok : (Session.run s ops).isOk = true := by decide +kernel
  obtain ⟨⟨m, g⟩, hrun⟩ : ∃ p, Session.run s ops = .ok p := by
    cases h : Session.run s ops with
    | ok p => exact ⟨p, rfl⟩
    | error e => simp [h, Except.isOk, Except.toBool] at hok
  have hcount : (Session.run s ops).toOption.map (fun p => (p.2.generated, p.1.cache.pictures.length)) =
      some (1, 0) := by decide +kernel
  rw [hrun] at hcount
  simp only [Except.toOption, Option.map_some, Option.some.injEq, Prod.mk.injEq,
    List.length_eq_zero_iff] at hcount
  exact ⟨m, g, hrun, hcount.1, by decide +kernel, hcount.2,
    (cached_thumbnails_are_current _ _ _ ops (by decide) hrun).1⟩

end Viewer
end Thumbnailer
