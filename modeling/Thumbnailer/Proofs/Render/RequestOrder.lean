import Thumbnailer.Proofs.Cache.StoredSizes
import Thumbnailer.Proofs.Render.DpiMemo
import Thumbnailer.Render.Backend

/-!
# How the backend answers a thumbnail request

`Backend.render` looks at a request in a fixed order: the box, then the page, then (with
compression on) the cache under the variant's key, and only then a rasterizer. Each way through
has its own equation (`render_of_empty`, `render_of_invalid`, `render_of_hit`,
`render_of_lookup_error`, `render_of_miss`, `render_of_uncompressed`); `request_cases` and
`render_eq_ok` say which ways there are, and everything else is read from them:

* the GPU rasterizes only when it is enabled, wanted, attached and available, and a GPU that
  fails sends the page to the source, so no answer is a GPU error (`rasterize_cases`);
* a thumbnail has no side zero and fits its box; one served from the cache does too, since the
  cache holds only sizes that fit their keys (`Sound`, kept by every request of a session);
* an overflow of a word can only come from storing a fresh thumbnail;
* a GPU that always fails changes nothing but the count of GPU calls (`render_of_failing`).

Main statement: `render_follows_request_order`.
-/

namespace Thumbnailer

namespace Raster

/-- Resizing gives the size asked for, whatever the bitmap. -/
theorem Bitmap.resize_dims (b : Bitmap) (k m : Nat) (f : Filter) :
    (b.resize k m f).width = k ∧ (b.resize k m f).height = m := by
  unfold Bitmap.resize
  split
  · exact ⟨rfl, rfl⟩
  · split
    · rename_i h
      simp only [Bool.and_eq_true, decide_eq_true_eq] at h
      exact h
    · split <;> exact ⟨rfl, rfl⟩

end Raster

namespace Cache

/-- The standard codec takes exactly the sides from 1 to 65535. -/
theorem codec_accepts_iff {w h : Nat} :
    codec.accepts w h = true ↔ 1 ≤ w ∧ w ≤ 65535 ∧ 1 ≤ h ∧ h ≤ 65535 := by
  have hmax : codec.maxSide = 65535 := rfl
  simp only [Codec.accepts, hmax, Bool.and_eq_true, decide_eq_true_eq]
  omega

end Cache

namespace Render

open Raster Page Cache

/-- What a backend needs of its image operations: a resize gives the size asked for, and the
codec refuses a bitmap with a side of 0 or over 65535. -/
structure Imaging.Lawful (im : Imaging) : Prop where
  resize_dims : ∀ b w h f, (im.resize b w h f).width = w ∧ (im.resize b w h f).height = h
  encode_sides : ∀ b q n, im.encode b q = some n →
    1 ≤ b.width ∧ b.width ≤ 65535 ∧ 1 ≤ b.height ∧ b.height ≤ 65535

/-- The standard operations are lawful: the resampler gives the size asked for, and the codec
accepts sides from 1 up to its largest, 65535. -/
theorem Imaging.lawful_standard : Imaging.standard.Lawful where
  resize_dims := Bitmap.resize_dims
  encode_sides b q n h := by
    simp only [Imaging.standard, Codec.encode] at h
    split at h
    · rename_i hacc
      exact codec_accepts_iff.1 hacc
    · cases h

theorem Preference.wantsGpu_iff (p : Preference) (w : Nat) :
    p.wantsGpu w = true ↔ p = .gpuAccelerated ∨ p = .hybrid ∧ smallThumbnailWidth < w := by
  cases p <;> simp [Preference.wantsGpu]

/-- The key a request's variant is cached under at `dpi`: the page as a 32-bit word, the box,
the DPI and the quality. -/
def Request.cacheKey (r : Request) (dpi : Float) : Key :=
  Key.make (r.page % Nat.pow 2 32) r.target.width r.target.height dpi r.quality

/-- The page source's raster at `dpi`, its failure named for the page. -/
def sourceRaster (s : Source) (r : Request) (dpi : Float) : Except RenderError Bitmap :=
  (s.rasterize r.page dpi dpi none).mapError (.source r.page)

/-- The thumbnail a raster gives: an empty raster is an error, any other is scaled into the box
with `resize`. -/
def Request.thumbnailOf (r : Request) (resize : Bitmap → Nat → Nat → Filter → Bitmap)
    (raster : Except RenderError Bitmap) : Except RenderError Bitmap :=
  raster >>= fun R => if R.isEmpty then .error (.emptyRaster r.page) else .ok (Backend.scaleToFit resize R r.target)

/-- A request that passes both checks, for a page of this size. -/
structure Admits (s : Source) (r : Request) (size : Size) : Prop where
  target : r.target.isEmpty = false
  page : r.page < s.numPages
  size : s.pageSize r.page = some size

/-- A size with no side zero that fits the box. -/
def fitsIn (t : Target) (w h : Nat) : Prop := 1 ≤ w ∧ w ≤ t.width ∧ 1 ≤ h ∧ h ≤ t.height

/-- The cache once a request's thumbnail is stored under `k` with `encode`; an error stores
nothing. -/
def cacheResult (encode : Bitmap → Nat → Option Nat) (c : Compressed) (k : Key) (now : Instant) :
    Except RenderError Bitmap → Except Overflow Compressed
  | .ok t => (·.2) <$> c.insertWith encode k t now
  | .error _ => pure c

/-- A request with a box not empty names a page the source has, or fails the page check. -/
theorem admits_or_invalid (s : Source) {r : Request} (hv : r.target.isEmpty = false) :
    (∃ size, Admits s r size) ∨ s.numPages ≤ r.page ∨ s.pageSize r.page = none := by
  rcases hs : s.pageSize r.page with _ | size
  · exact .inr (.inr rfl)
  · by_cases hp : r.page < s.numPages
    · exact .inl ⟨size, hv, hp, hs⟩
    · exact .inr (.inl (Nat.not_lt.1 hp))

namespace Backend

variable {now : Instant}

/-- What a request comes to when its raster is made: the thumbnail or its error, and the
rasterizer calls. -/
def fresh (b : Backend) (s : Source) (r : Request) (dpi : Float) : Rendered :=
  { result := r.thumbnailOf b.imaging.resize (b.rasterize s r dpi).1, calls := (b.rasterize s r dpi).2 }

/-! ### Routing between the rasterizers -/

theorem selectedGpu_eq_some_iff (b : Backend) (r : Request) (g : Gpu) :
    b.selectedGpu r = some g ↔ b.gpuEnabled = true ∧
      (r.preference = .gpuAccelerated ∨ r.preference = .hybrid ∧ smallThumbnailWidth < r.target.width) ∧
      b.gpu = some g ∧ g.available = true := by
  rw [← Preference.wantsGpu_iff]
  unfold selectedGpu
  cases b.gpuEnabled <;> cases r.preference.wantsGpu r.target.width <;> simp [Option.filter_eq_some_iff]

/-- The raster depends only on the GPU and its switch. -/
@[simp] theorem rasterize_mk (b : Backend) (d : DpiCalculator) (c : Compressed) (on : Bool) (im : Imaging) :
    ({ dpi := d, cache := c, gpu := b.gpu, gpuEnabled := b.gpuEnabled, compressionEnabled := on,
       imaging := im } : Backend).rasterize = b.rasterize := rfl

/-- **One raster:** from the source when no GPU is selected, from the GPU when it succeeds, and
from the source after one GPU call when it fails. -/
theorem rasterize_cases (b : Backend) (s : Source) (r : Request) (dpi : Float) :
    (b.selectedGpu r = none ∧ b.rasterize s r dpi = (sourceRaster s r dpi, { cpu := 1 })) ∨
    (∃ g R, b.selectedGpu r = some g ∧ g.rasterize s r.page dpi = .ok R ∧
      b.rasterize s r dpi = (.ok R, { gpu := 1 })) ∨
    (∃ g e, b.selectedGpu r = some g ∧ g.rasterize s r.page dpi = .error e ∧
      b.rasterize s r dpi = (sourceRaster s r dpi, { cpu := 1, gpu := 1 })) := by
  unfold rasterize
  rcases hg : b.selectedGpu r with _ | g
  · exact .inl ⟨rfl, rfl⟩
  · rcases hr : g.rasterize s r.page dpi with e | R
    · exact .inr (.inr ⟨g, e, rfl, hr, by simp only [hr]; rfl⟩)
    · exact .inr (.inl ⟨g, R, rfl, hr, by simp only [hr]⟩)

theorem sourceRaster_eq_error {s : Source} {r : Request} {dpi : Float} {e : RenderError}
    (h : sourceRaster s r dpi = .error e) : ∃ m, e = .source r.page m := by
  unfold sourceRaster at h
  rcases hs : s.rasterize r.page dpi dpi none with m | R <;> simp [hs, Except.mapError] at h
  exact ⟨m, h.symm⟩

/-- A raster that failed failed in the source. -/
theorem rasterize_eq_error {b : Backend} {s : Source} {r : Request} {dpi : Float} {e : RenderError}
    (h : (b.rasterize s r dpi).1 = .error e) : ∃ m, e = .source r.page m := by
  rcases rasterize_cases b s r dpi with ⟨-, hr⟩ | ⟨g, R, -, -, hr⟩ | ⟨g, e', -, -, hr⟩ <;> rw [hr] at h
  · exact sourceRaster_eq_error h
  · cases h
  · exact sourceRaster_eq_error h

/-! ### Scaling into the box -/

theorem fitSide_pos (side : Nat) (ratio : Float) (bound : Nat) : 1 ≤ fitSide side ratio bound :=
  Nat.le_max_left _ _

theorem fitSide_le {bound : Nat} (side : Nat) (ratio : Float) (hb : 1 ≤ bound) : fitSide side ratio bound ≤ bound :=
  Nat.max_le.2 ⟨hb, Nat.min_le_right _ _⟩

theorem fitsIn_fitSide {t : Target} (ht : t.isEmpty = false) (w h : Nat) (ratio : Float) :
    fitsIn t (fitSide w ratio t.width) (fitSide h ratio t.height) := by
  simp only [Target.isEmpty, Bool.or_eq_false_iff, decide_eq_false_iff_not] at ht
  exact ⟨fitSide_pos _ _ _, fitSide_le _ _ (by omega), fitSide_pos _ _ _, fitSide_le _ _ (by omega)⟩

/-- **A scaled raster fits its box**, for every raster and every ratio the float arithmetic
gives, NaN and infinities included: each side is clamped into `1 ≤ · ≤ bound`. -/
theorem scaleToFit_fits {im : Imaging} (him : im.Lawful) (R : Bitmap) {t : Target} (ht : t.isEmpty = false) :
    fitsIn t (scaleToFit im.resize R t).width (scaleToFit im.resize R t).height := by
  simp only [scaleToFit]
  split
  · -- the raster is kept only when both sides already are the fitted ones
    rename_i h
    simp only [Bool.and_eq_true, decide_eq_true_eq] at h
    have hfit := fitsIn_fitSide ht R.width R.height
      (minNum (Float.ofNat t.width / Float.ofNat R.width) (Float.ofNat t.height / Float.ofNat R.height))
    rwa [h.1, h.2] at hfit
  · rw [(him.resize_dims _ _ _ _).1, (him.resize_dims _ _ _ _).2]
    exact fitsIn_fitSide ht _ _ _

theorem thumbnailOf_eq_ok {r : Request} {resize : Bitmap → Nat → Nat → Filter → Bitmap}
    {raster : Except RenderError Bitmap} {t : Bitmap}
    (h : r.thumbnailOf resize raster = .ok t) : ∃ R, raster = .ok R ∧ t = scaleToFit resize R r.target := by
  unfold Request.thumbnailOf at h
  rcases raster with e | R
  · cases h
  · by_cases hR : R.isEmpty = true <;> simp [hR, bind, Except.bind] at h
    exact ⟨R, rfl, h.symm⟩

theorem thumbnailOf_eq_error {r : Request} {resize : Bitmap → Nat → Nat → Filter → Bitmap}
    {raster : Except RenderError Bitmap} {e : RenderError}
    (h : r.thumbnailOf resize raster = .error e) : raster = .error e ∨ e = .emptyRaster r.page := by
  unfold Request.thumbnailOf at h
  rcases raster with e' | R
  · exact .inl h
  · by_cases hR : R.isEmpty = true <;> simp [hR, bind, Except.bind] at h
    exact .inr h.symm

theorem fresh_fits {b : Backend} {s : Source} {r : Request} {dpi : Float} {t : Bitmap}
    (him : b.imaging.Lawful) (hv : r.target.isEmpty = false) (h : (b.fresh s r dpi).result = .ok t) :
    fitsIn r.target t.width t.height := by
  obtain ⟨R, -, rfl⟩ := thumbnailOf_eq_ok h
  exact scaleToFit_fits him R hv

/-- A fresh answer fails only in the source or on an empty raster. -/
theorem fresh_eq_error {b : Backend} {s : Source} {r : Request} {dpi : Float} {e : RenderError}
    (h : (b.fresh s r dpi).result = .error e) : (∃ m, e = .source r.page m) ∨ e = .emptyRaster r.page := by
  rcases thumbnailOf_eq_error h with h | h
  · exact .inl (rasterize_eq_error h)
  · exact .inr h

/-! ### The ways through a request -/

theorem render_of_empty {b : Backend} {s : Source} {r : Request} (h : r.target.isEmpty = true) :
    b.render s r now = .ok ({ result := .error (.zeroTargetSize r.target.width r.target.height) }, b) := by
  simp [render, h, pure, Except.pure]

theorem render_of_invalid {b : Backend} {s : Source} {r : Request} (h : r.target.isEmpty = false)
    (hp : s.numPages ≤ r.page ∨ s.pageSize r.page = none) :
    b.render s r now = .ok ({ result := .error (.invalidPage r.page s.numPages) }, b) := by
  have hf : (s.pageSize r.page).filter (fun _ => r.page < s.numPages) = none := by
    rcases hp with hp | hp
    · cases s.pageSize r.page <;> simp [Option.filter, Nat.not_lt.2 hp]
    · simp [hp]
  simp [render, h, hf, pure, Except.pure]

/-- **A request is refused for its box or its page, or admitted at a DPI.** -/
theorem request_cases (b : Backend) (s : Source) (r : Request) :
    (∃ e, b.render s r now = .ok ({ result := .error e }, b) ∧
      ((r.target.isEmpty = true ∧ e = .zeroTargetSize r.target.width r.target.height) ∨
        (r.target.isEmpty = false ∧ (s.numPages ≤ r.page ∨ s.pageSize r.page = none) ∧
          e = .invalidPage r.page s.numPages))) ∨
    ∃ size dpi d, Admits s r size ∧ b.dpi.thumbnailDpi r.target size r.quality = (dpi, d) := by
  cases hv : r.target.isEmpty
  · rcases admits_or_invalid s hv with ⟨size, ha⟩ | hp
    · exact .inr ⟨size, _, _, ha, rfl⟩
    · exact .inl ⟨_, render_of_invalid hv hp, .inr ⟨rfl, hp, rfl⟩⟩
  · exact .inl ⟨_, render_of_empty hv, .inl ⟨rfl, rfl⟩⟩

section Admitted

variable {b : Backend} {s : Source} {r : Request} {size : Size} {dpi : Float} {d : DpiCalculator}

theorem render_of_uncompressed (ha : Admits s r size) (hd : b.dpi.thumbnailDpi r.target size r.quality = (dpi, d))
    (hoff : b.compressionEnabled = false) :
    b.render s r now = .ok (b.fresh s r dpi, { b with dpi := d }) := by
  simp only [render, ha.target, ha.page, ha.size, hd, hoff, Option.filter_some, decide_true, if_true,
    Bool.false_eq_true, if_false, rasterize_mk]
  unfold fresh Request.thumbnailOf
  cases (b.rasterize s r dpi).1 with
  | error e => rfl
  | ok R => by_cases hR : R.isEmpty = true <;> simp [hR, bind, Except.bind, pure, Except.pure]

theorem render_of_hit (ha : Admits s r size) (hd : b.dpi.thumbnailDpi r.target size r.quality = (dpi, d))
    (hon : b.compressionEnabled = true) {bm : Bitmap} {c : Compressed}
    (hl : b.cache.lookup (r.cacheKey dpi) now = .ok (some bm, c)) :
    b.render s r now = .ok ({ result := .ok bm, cacheHit := true }, { b with dpi := d, cache := c }) := by
  unfold Request.cacheKey at hl
  simp only [render, ha.target, ha.page, ha.size, hd, hon, Option.filter_some, decide_true, if_true,
    Bool.false_eq_true, if_false]
  simp only [bind, Except.bind, hl, pure, Except.pure]

theorem render_of_lookup_error (ha : Admits s r size) (hd : b.dpi.thumbnailDpi r.target size r.quality = (dpi, d))
    (hon : b.compressionEnabled = true) {e : Overflow}
    (hl : b.cache.lookup (r.cacheKey dpi) now = .error e) : b.render s r now = .error e := by
  unfold Request.cacheKey at hl
  simp only [render, ha.target, ha.page, ha.size, hd, hon, Option.filter_some, decide_true, if_true,
    Bool.false_eq_true, if_false]
  simp only [bind, Except.bind, hl]

theorem render_of_miss (ha : Admits s r size) (hd : b.dpi.thumbnailDpi r.target size r.quality = (dpi, d))
    (hon : b.compressionEnabled = true) {c : Compressed}
    (hl : b.cache.lookup (r.cacheKey dpi) now = .ok (none, c)) :
    b.render s r now = (fun c' => (b.fresh s r dpi, { b with dpi := d, cache := c' })) <$>
      cacheResult b.imaging.encode c (r.cacheKey dpi) now (r.thumbnailOf b.imaging.resize (b.rasterize s r dpi).1) := by
  unfold Request.cacheKey at hl
  simp only [render, ha.target, ha.page, ha.size, hd, hon, Option.filter_some, decide_true, if_true,
    Bool.false_eq_true, if_false]
  simp only [bind, Except.bind, hl, rasterize_mk]
  unfold fresh Request.thumbnailOf cacheResult Request.cacheKey
  cases (b.rasterize s r dpi).1 with
  | error e => rfl
  | ok R =>
    by_cases hR : R.isEmpty = true
    · simp [hR, bind, Except.bind, pure, Except.pure, Functor.map, Except.map]
    · simp only [hR, Bool.false_eq_true, if_false, bind, Except.bind]
      cases c.insertWith _ _ _ _ <;> rfl

/-- Everything an admitted request can come to: the cached variant, or a fresh answer with the
cache as it was, or as storing the answer left it. -/
theorem render_eq_ok (ha : Admits s r size) (hd : b.dpi.thumbnailDpi r.target size r.quality = (dpi, d))
    {out : Rendered} {b' : Backend} (h : b.render s r now = .ok (out, b')) :
    (b.compressionEnabled = true ∧ ∃ bm c, b.cache.lookup (r.cacheKey dpi) now = .ok (some bm, c) ∧
      out = { result := .ok bm, cacheHit := true } ∧ b' = { b with dpi := d, cache := c }) ∨
    (out = b.fresh s r dpi ∧
      ((b.compressionEnabled = false ∧ b' = { b with dpi := d }) ∨
        (b.compressionEnabled = true ∧ ∃ c c', b.cache.lookup (r.cacheKey dpi) now = .ok (none, c) ∧
          cacheResult b.imaging.encode c (r.cacheKey dpi) now out.result = .ok c' ∧ b' = { b with dpi := d, cache := c' }))) := by
  by_cases hon : b.compressionEnabled = true
  · rcases hl : b.cache.lookup (r.cacheKey dpi) now with e | ⟨_ | bm, c⟩
    · rw [render_of_lookup_error ha hd hon hl] at h
      cases h
    · rw [render_of_miss ha hd hon hl] at h
      rcases hc : cacheResult b.imaging.encode c (r.cacheKey dpi) now (r.thumbnailOf b.imaging.resize (b.rasterize s r dpi).1) with e | c'
      · simp [hc, Functor.map, Except.map] at h
      · simp only [hc, Functor.map, Except.map, Except.ok.injEq, Prod.mk.injEq] at h
        obtain ⟨rfl, rfl⟩ := h
        exact .inr ⟨rfl, .inr ⟨hon, c, c', rfl, hc, rfl⟩⟩
    · rw [render_of_hit ha hd hon hl, Except.ok.injEq, Prod.mk.injEq] at h
      exact .inl ⟨hon, bm, c, rfl, h.1.symm, h.2.symm⟩
  · have hoff : b.compressionEnabled = false := Bool.eq_false_iff.2 hon
    rw [render_of_uncompressed ha hd hoff, Except.ok.injEq, Prod.mk.injEq] at h
    exact .inr ⟨h.1.symm, .inl ⟨hoff, h.2.symm⟩⟩

/-- An overflow stops a request only in the cache: in its lookup, or in storing a thumbnail. -/
theorem render_eq_error (ha : Admits s r size) (hd : b.dpi.thumbnailDpi r.target size r.quality = (dpi, d))
    {e : Overflow} (h : b.render s r now = .error e) :
    b.compressionEnabled = true ∧ ((∃ e', b.cache.lookup (r.cacheKey dpi) now = .error e') ∨
      ∃ c t, b.cache.lookup (r.cacheKey dpi) now = .ok (none, c) ∧ r.thumbnailOf b.imaging.resize (b.rasterize s r dpi).1 = .ok t) := by
  by_cases hon : b.compressionEnabled = true
  · refine ⟨hon, ?_⟩
    rcases hl : b.cache.lookup (r.cacheKey dpi) now with e' | ⟨_ | bm, c⟩
    · exact .inl ⟨e', rfl⟩
    · rw [render_of_miss ha hd hon hl] at h
      -- an error stores nothing, so only a thumbnail can overflow
      rcases ht : r.thumbnailOf b.imaging.resize (b.rasterize s r dpi).1 with e'' | t
      · simp [ht, cacheResult, Functor.map, Except.map, pure, Except.pure] at h
      · exact .inr ⟨c, t, rfl, rfl⟩
    · rw [render_of_hit ha hd hon hl] at h
      cases h
  · rw [render_of_uncompressed ha hd (Bool.eq_false_iff.2 hon)] at h
    cases h

end Admitted

/-! ### What the cache holds -/

/-- What the cache may hold under a key: a size the codec accepts that fits the key's box. -/
def StoredFits (k : Key) (st : Stored) : Prop :=
  fitsIn ⟨k.width, k.height⟩ st.width st.height ∧ st.width ≤ codec.maxSide ∧ st.height ≤ codec.maxSide

/-- A backend whose cache holds only sizes that fit their keys, with its pool within the largest
budget, built with lawful image operations. -/
structure Sound (b : Backend) : Prop where
  stored : b.cache.Holds StoredFits
  pool : b.cache.PoolWithin
  imaging : b.imaging.Lawful

theorem storedFits_small (k : Key) (st : Stored) (h : StoredFits k st) : st.width ≤ 65535 ∧ st.height ≤ 65535 :=
  h.2

theorem sound_create (cfg : Config.CacheConfig) (ratio : Float) {im : Imaging} (him : im.Lawful) :
    Sound (create cfg ratio im) where
  stored := Compressed.holds_create _ _ _
  pool := fun p hp => by
    cases hp
    exact Pool.withinCeiling_create _
  imaging := him

theorem Sound.of_cache {b b' : Backend} (hb : Sound b) (hc : b'.cache = b.cache) (hi : b'.imaging = b.imaging) :
    Sound b' :=
  ⟨hc ▸ hb.stored, hc ▸ hb.pool, hi ▸ hb.imaging⟩

/-- Storing a thumbnail that fits its request's box keeps the cache sound. -/
theorem sound_cacheResult {im : Imaging} (him : im.Lawful) {c c' : Compressed} {r : Request} {dpi : Float}
    {res : Except RenderError Bitmap} (hs : c.Holds StoredFits) (hp : c.PoolWithin)
    (hfit : ∀ t, res = .ok t → fitsIn r.target t.width t.height)
    (h : cacheResult im.encode c (r.cacheKey dpi) now res = .ok c') : c'.Holds StoredFits ∧ c'.PoolWithin := by
  cases res with
  | error e =>
    simp only [cacheResult, pure, Except.pure, Except.ok.injEq] at h
    subst h
    exact ⟨hs, hp⟩
  | ok t =>
    rcases hi : c.insertWith im.encode (r.cacheKey dpi) t now with e | ⟨res, c''⟩
    · simp [cacheResult, hi, Functor.map, Except.map] at h
    · simp only [cacheResult, hi, Functor.map, Except.map, Except.ok.injEq] at h
      subst h
      refine ⟨hs.insertWith ?_ hi, hp.insertWith hi⟩
      intro cost henc
      -- the codec takes only sides from 1 to 65535
      obtain ⟨-, hw, -, hh⟩ := him.encode_sides t _ cost henc
      exact ⟨hfit t rfl, hw, hh⟩

/-- **Every request keeps the cache sound**: a hit only counts an access, and a fresh thumbnail
fits the box its key names. -/
theorem Sound.render {b b' : Backend} {s : Source} {r : Request} {out : Rendered} (hb : Sound b)
    (h : b.render s r now = .ok (out, b')) : Sound b' := by
  rcases request_cases b s r with ⟨e, hr, -⟩ | ⟨size, dpi, d, ha, hd⟩
  · rw [hr] at h
    cases h
    exact hb
  · rcases render_eq_ok ha hd h with ⟨-, bm, c, hl, -, rfl⟩ | ⟨hout, ⟨-, rfl⟩ | ⟨-, c, c', hl, hc, rfl⟩⟩
    · exact ⟨hb.stored.lookup (fun _ _ hst => hst) hl, hb.pool.lookup hl, hb.imaging⟩
    · exact hb.of_cache rfl rfl
    · subst hout
      obtain ⟨hs, hp⟩ := sound_cacheResult hb.imaging (hb.stored.lookup (fun _ _ hst => hst) hl)
        (hb.pool.lookup hl) (fun _ ht => fresh_fits hb.imaging ha.target ht) hc
      exact ⟨hs, hp, hb.imaging⟩

/-- A request a session makes of its backend. -/
inductive Op where
  | render (s : Source) (r : Request) (now : Instant)
  | setGpuEnabled (on : Bool)
  | setCompressionEnabled (on : Bool)
  | setRatio (ratio : Float)
  | invalidatePage (page : Nat)
  | clearCache
  | setCacheCapacity (capacity : Nat)
  | setCacheQuality (quality : Nat)

/-- The backend after one request; a render may stop on an overflow. -/
def Op.step (b : Backend) : Op → Except Overflow Backend
  | .render s r now => (·.2) <$> b.render s r now
  | .setGpuEnabled on => pure { b with gpuEnabled := on }
  | .setCompressionEnabled on => pure { b with compressionEnabled := on }
  | .setRatio ratio => pure (b.setRatio ratio).2
  | .invalidatePage page => pure { b with cache := (b.cache.invalidatePage page).2 }
  | .clearCache => pure { b with cache := b.cache.clear }
  | .setCacheCapacity capacity => pure { b with cache := b.cache.setCapacity capacity }
  | .setCacheQuality quality => pure { b with cache := b.cache.setQuality quality }

/-- The backend after a session's requests, stopping at the first overflow. -/
def run (b : Backend) : List Op → Except Overflow Backend
  | [] => pure b
  | op :: ops =>
    match op.step b with
    | .ok b' => run b' ops
    | .error e => .error e

theorem Sound.step {b b' : Backend} (hb : Sound b) {op : Op} (h : op.step b = .ok b') : Sound b' := by
  cases op with
  | render s r now =>
    rcases hr : b.render s r now with e | ⟨out, b''⟩
    · simp [Op.step, hr, Functor.map, Except.map] at h
    · simp only [Op.step, hr, Functor.map, Except.map, Except.ok.injEq] at h
      subst h
      exact hb.render hr
  | setGpuEnabled on => cases h; exact hb.of_cache rfl rfl
  | setCompressionEnabled on => cases h; exact hb.of_cache rfl rfl
  | setRatio ratio => cases h; exact hb.of_cache rfl rfl
  | invalidatePage page => cases h; exact ⟨hb.stored.invalidatePage page, fun p hp => hb.pool p hp, hb.imaging⟩
  | clearCache => cases h; exact ⟨hb.stored.clear, fun p hp => hb.pool p hp, hb.imaging⟩
  | setCacheCapacity capacity =>
    cases h; exact ⟨hb.stored.setCapacity capacity, fun p hp => hb.pool p hp, hb.imaging⟩
  | setCacheQuality quality => cases h; exact ⟨hb.stored.setQuality quality, fun p hp => hb.pool p hp, hb.imaging⟩

/-- Every backend a session reaches is sound. -/
theorem Sound.run {b b' : Backend} (hb : Sound b) {ops : List Op} (h : Backend.run b ops = .ok b') : Sound b' := by
  induction ops generalizing b with
  | nil =>
    cases h
    exact hb
  | cons op ops ih =>
    unfold Backend.run at h
    rcases hs : op.step b with e | b''
    · simp [hs] at h
    · simp only [hs] at h
      exact ih (hb.step hs) h

/-! ### What a sound backend answers -/

section Sound

variable {b : Backend} {s : Source} {r : Request} {size : Size} {dpi : Float} {d : DpiCalculator}

/-- **A cached variant is served decoded**, without a rasterizer call. -/
theorem Sound.render_of_cached (hb : Sound b) (ha : Admits s r size)
    (hd : b.dpi.thumbnailDpi r.target size r.quality = (dpi, d)) (hon : b.compressionEnabled = true)
    {st : Stored} (hst : b.cache.entries.peek? (r.cacheKey dpi) = some st) :
    ∃ c, b.render s r now = .ok ({ result := .ok (Bitmap.decodedOf st.width st.height), cacheHit := true },
      { b with dpi := d, cache := c }) := by
  obtain ⟨c, hl⟩ := hb.stored.lookup_of_peek?_some storedFits_small hb.pool hst now
  exact ⟨c, render_of_hit ha hd hon hl⟩

/-- A variant that is not cached, or a backend with compression off, answers from one raster. -/
theorem Sound.render_of_not_cached (hb : Sound b) (ha : Admits s r size)
    (hd : b.dpi.thumbnailDpi r.target size r.quality = (dpi, d))
    (hmiss : b.compressionEnabled = true → b.cache.entries.peek? (r.cacheKey dpi) = none)
    {out : Rendered} {b' : Backend} (h : b.render s r now = .ok (out, b')) : out = b.fresh s r dpi := by
  rcases render_eq_ok ha hd h with ⟨hon, bm, c, hl, -, -⟩ | ⟨hout, -⟩
  · -- a key that is not cached cannot hit
    rw [hb.stored.lookup_of_peek?_none (hmiss hon) now] at hl
    simp at hl
  · exact hout

/-- **A fresh thumbnail is cached under its key**: on a sound backend with compression on, a
request whose key is not cached and whose raster gives a thumbnail the codec takes, with room for
it under the ceiling and in the word, is answered with that thumbnail, and its size is stored. -/
theorem Sound.render_stores (now : Instant) (hb : Sound b) (hs : b.cache.Synced) (ha : Admits s r size)
    (hd : b.dpi.thumbnailDpi r.target size r.quality = (dpi, d)) (hon : b.compressionEnabled = true)
    (hmiss : b.cache.entries.peek? (r.cacheKey dpi) = none) {t : Bitmap}
    (ht : r.thumbnailOf b.imaging.resize (b.rasterize s r dpi).1 = .ok t) {cost : Nat}
    (henc : b.imaging.encode t b.cache.quality = some cost) (hcap : cost ≤ b.cache.entries.maxCost)
    (hroom : b.cache.entries.currentCost + cost < wordSize) :
    ∃ c, b.render s r now = .ok (b.fresh s r dpi, { b with dpi := d, cache := c }) ∧
      c.entries.peek? (r.cacheKey dpi) = some ⟨t.width, t.height, 0⟩ := by
  have hl := hb.stored.lookup_of_peek?_none hmiss now
  -- the miss counts a miss and keeps the entries, the pool and the codec quality
  have hs₁ := (@Compressed.Synced.lookup b.imaging.encode _ _ _ _ _ hs hl).1
  have hpool : Compressed.PoolWithin { b.cache with stats := { b.cache.stats with misses := b.cache.stats.misses + 1 } } :=
    fun p hp => hb.pool p hp
  -- the codec takes only sides up to 65535, so the staging buffer is granted
  obtain ⟨-, hw, -, hh⟩ := hb.imaging.encode_sides t _ cost henc
  obtain ⟨c, hins, hpeek⟩ := hs₁.insertWith_stores (k := r.cacheKey dpi) (hpool.stage_isOk now hw hh) henc hcap hroom
  refine ⟨c, ?_, hpeek⟩
  rw [render_of_miss ha hd hon hl, ht]
  simp only [cacheResult, hins, Functor.map, Except.map]

/-- **A thumbnail has no side zero and fits its box**, whether fresh or cached. -/
theorem Sound.render_fits (hb : Sound b) {out : Rendered} {b' : Backend} {t : Bitmap}
    (h : b.render s r now = .ok (out, b')) (ht : out.result = .ok t) : fitsIn r.target t.width t.height := by
  rcases request_cases b s r with ⟨e, hr, -⟩ | ⟨size, dpi, d, ha, hd⟩
  · rw [hr] at h
    cases h
    cases ht
  · rcases render_eq_ok ha hd h with ⟨-, bm, c, hl, rfl, -⟩ | ⟨rfl, -⟩
    · -- the size decoded is one stored under the request's key
      cases ht
      obtain ⟨st, hfit, hw, hh⟩ := hb.stored.lookup_hit hl
      rw [hw, hh]
      exact hfit.1
    · exact fresh_fits hb.imaging ha.target ht

/-- An answer's error comes from the checks, from the source, or from an empty raster. -/
theorem render_errors {out : Rendered} {b' : Backend} {e : RenderError}
    (h : b.render s r now = .ok (out, b')) (he : out.result = .error e) :
    (r.target.isEmpty = true ∧ e = .zeroTargetSize r.target.width r.target.height) ∨
    (r.target.isEmpty = false ∧ (s.numPages ≤ r.page ∨ s.pageSize r.page = none) ∧
      e = .invalidPage r.page s.numPages) ∨
    ((∃ size, Admits s r size) ∧ ((∃ m, e = .source r.page m) ∨ e = .emptyRaster r.page)) := by
  rcases request_cases b s r with ⟨e', hr, hrefused⟩ | ⟨size, dpi, d, ha, hd⟩
  · rw [hr] at h
    cases h
    cases he
    exact hrefused.imp_right .inl
  · rcases render_eq_ok ha hd h with ⟨-, bm, c, -, rfl, -⟩ | ⟨rfl, -⟩
    · cases he
    · exact .inr (.inr ⟨⟨size, ha⟩, fresh_eq_error he⟩)

/-- **No answer is a GPU error.** -/
theorem render_ne_gpu {out : Rendered} {b' : Backend} (h : b.render s r now = .ok (out, b')) (m : String) :
    out.result ≠ .error (.gpu m) := by
  intro he
  rcases render_errors h he with ⟨-, he⟩ | ⟨-, -, he⟩ | ⟨-, ⟨m', he⟩ | he⟩ <;> cases he

/-- An overflow of a word stops a request on a sound backend only while a fresh thumbnail is
stored: the lookup cannot overflow. -/
theorem Sound.render_eq_error (hb : Sound b) {e : Overflow} (h : b.render s r now = .error e) :
    b.compressionEnabled = true ∧ ∃ size dpi d t, Admits s r size ∧
      b.dpi.thumbnailDpi r.target size r.quality = (dpi, d) ∧ b.cache.entries.peek? (r.cacheKey dpi) = none ∧
      r.thumbnailOf b.imaging.resize (b.rasterize s r dpi).1 = .ok t := by
  rcases request_cases b s r with ⟨e', hr, -⟩ | ⟨size, dpi, d, ha, hd⟩
  · rw [hr] at h
    cases h
  · obtain ⟨hon, ⟨e', hl⟩ | ⟨c, t, hl, ht⟩⟩ := Backend.render_eq_error ha hd h
    · obtain ⟨o, c', hok⟩ := Compressed.lookup_isOk storedFits_small hb.stored hb.pool (r.cacheKey dpi) now
      rw [hl] at hok
      cases hok
    · refine ⟨hon, size, dpi, d, t, ha, hd, ?_, ht⟩
      -- a cached key would have hit
      rcases hst : b.cache.entries.peek? (r.cacheKey dpi) with _ | st
      · rfl
      · obtain ⟨c', hhit⟩ := hb.stored.lookup_of_peek?_some storedFits_small hb.pool hst now
        rw [hl] at hhit
        simp at hhit

end Sound

/-! ### A GPU that always fails -/

/-- An answer and the backend after it with the GPU taken away: no GPU calls, none attached. -/
def withoutGpu (p : Rendered × Backend) : Rendered × Backend :=
  ({ p.1 with calls := { p.1.calls with gpu := 0 } }, { p.2 with gpu := none })

/-- With a GPU that always fails, the raster is the source's, after one GPU call when the GPU is
selected. -/
theorem rasterize_of_failing {g : Gpu} (hfail : ∀ s p dpi, ∃ e, g.rasterize s p dpi = .error e)
    (b : Backend) (s : Source) (r : Request) (dpi : Float) :
    ((({ b with gpu := some g } : Backend).rasterize s r dpi).1,
      { (({ b with gpu := some g } : Backend).rasterize s r dpi).2 with gpu := 0 }) =
      ({ b with gpu := none } : Backend).rasterize s r dpi := by
  have hnone : ({ b with gpu := none } : Backend).rasterize s r dpi = (sourceRaster s r dpi, { cpu := 1 }) := by
    simp [rasterize, selectedGpu, sourceRaster]
  rw [hnone]
  rcases rasterize_cases { b with gpu := some g } s r dpi with ⟨-, hr⟩ | ⟨g₁, R, hg, hR, -⟩ | ⟨g₁, e, -, -, hr⟩
  · rw [hr]
  · -- the GPU selected is the one attached, and it fails
    obtain ⟨-, -, hgg, -⟩ := (selectedGpu_eq_some_iff _ _ _).1 hg
    cases Option.some.inj hgg
    obtain ⟨e, he⟩ := hfail s r.page dpi
    rw [he] at hR
    cases hR
  · rw [hr]

theorem fresh_of_failing {g : Gpu} (hfail : ∀ s p dpi, ∃ e, g.rasterize s p dpi = .error e)
    (b : Backend) (s : Source) (r : Request) (dpi : Float) :
    { ({ b with gpu := some g } : Backend).fresh s r dpi with
        calls := { (({ b with gpu := some g } : Backend).fresh s r dpi).calls with gpu := 0 } } =
      ({ b with gpu := none } : Backend).fresh s r dpi := by
  unfold fresh
  rw [← rasterize_of_failing hfail b s r dpi]

/-- **A GPU that always fails changes nothing but the count of GPU calls**: the answer, the cache
and the memo are those of a backend with no GPU. -/
theorem render_of_failing {g : Gpu} (hfail : ∀ s p dpi, ∃ e, g.rasterize s p dpi = .error e)
    (b : Backend) (s : Source) (r : Request) :
    withoutGpu <$> ({ b with gpu := some g } : Backend).render s r now = ({ b with gpu := none } : Backend).render s r now := by
  cases hv : r.target.isEmpty
  · rcases admits_or_invalid s hv with ⟨size, ha⟩ | hp
    · rcases hd : b.dpi.thumbnailDpi r.target size r.quality with ⟨dpi, d⟩
      have hd₁ : ({ b with gpu := some g } : Backend).dpi.thumbnailDpi r.target size r.quality = (dpi, d) := hd
      have hd₀ : ({ b with gpu := none } : Backend).dpi.thumbnailDpi r.target size r.quality = (dpi, d) := hd
      by_cases hon : b.compressionEnabled = true
      · rcases hl : b.cache.lookup (r.cacheKey dpi) now with e | ⟨_ | bm, c⟩
        · rw [render_of_lookup_error ha hd₁ hon hl, render_of_lookup_error ha hd₀ hon hl]
          rfl
        · rw [render_of_miss ha hd₁ hon hl, render_of_miss ha hd₀ hon hl]
          -- the cache is offered the same raster either way
          have hsame : (({ b with gpu := some g } : Backend).rasterize s r dpi).1 =
              (({ b with gpu := none } : Backend).rasterize s r dpi).1 := by
            rw [← rasterize_of_failing hfail b s r dpi]
          rw [hsame, ← fresh_of_failing hfail b s r dpi]
          cases cacheResult _ c (r.cacheKey dpi) now _ <;> rfl
        · rw [render_of_hit ha hd₁ hon hl, render_of_hit ha hd₀ hon hl]
          rfl
      · have hoff : b.compressionEnabled = false := Bool.eq_false_iff.2 hon
        rw [render_of_uncompressed ha hd₁ hoff, render_of_uncompressed ha hd₀ hoff,
          ← fresh_of_failing hfail b s r dpi]
        rfl
    · rw [render_of_invalid hv hp, render_of_invalid hv hp]
      rfl
  · rw [render_of_empty hv, render_of_empty hv]
    rfl

/-! ### Main statement -/

/-- How a backend answers the request `r` on the source `s`. -/
structure AnswersInOrder (b : Backend) (s : Source) (r : Request) (now : Instant) : Prop where
  /-- An empty box is refused first. -/
  emptyBox : r.target.isEmpty = true →
    b.render s r now = .ok ({ result := .error (.zeroTargetSize r.target.width r.target.height) }, b)
  /-- Then a page the source does not have. -/
  missingPage : r.target.isEmpty = false → s.numPages ≤ r.page ∨ s.pageSize r.page = none →
    b.render s r now = .ok ({ result := .error (.invalidPage r.page s.numPages) }, b)
  /-- Then, with compression on, a cached variant is served decoded, with no rasterizer call. -/
  cached : ∀ size dpi d st, Admits s r size → b.dpi.thumbnailDpi r.target size r.quality = (dpi, d) →
    b.compressionEnabled = true → b.cache.entries.peek? (r.cacheKey dpi) = some st →
    ∃ c, b.render s r now = .ok ({ result := .ok (Bitmap.decodedOf st.width st.height), cacheHit := true },
      { b with dpi := d, cache := c })
  /-- Otherwise the answer is made from one raster. -/
  rasterized : ∀ size dpi d out b', Admits s r size → b.dpi.thumbnailDpi r.target size r.quality = (dpi, d) →
    (b.compressionEnabled = true → b.cache.entries.peek? (r.cacheKey dpi) = none) →
    b.render s r now = .ok (out, b') → out = b.fresh s r dpi
  /-- The GPU used is the one attached, when it is enabled, wanted and available. -/
  selected : ∀ g, b.selectedGpu r = some g ↔ b.gpuEnabled = true ∧
    (r.preference = .gpuAccelerated ∨ r.preference = .hybrid ∧ smallThumbnailWidth < r.target.width) ∧
    b.gpu = some g ∧ g.available = true
  /-- The raster is the source's, the selected GPU's, or the source's after the GPU failed. -/
  routed : ∀ dpi, (b.selectedGpu r = none ∧ b.rasterize s r dpi = (sourceRaster s r dpi, { cpu := 1 })) ∨
    (∃ g R, b.selectedGpu r = some g ∧ g.rasterize s r.page dpi = .ok R ∧
      b.rasterize s r dpi = (.ok R, { gpu := 1 })) ∨
    (∃ g e, b.selectedGpu r = some g ∧ g.rasterize s r.page dpi = .error e ∧
      b.rasterize s r dpi = (sourceRaster s r dpi, { cpu := 1, gpu := 1 }))
  /-- An error comes from the checks, from the source, or from an empty raster. -/
  errors : ∀ out b' e, b.render s r now = .ok (out, b') → out.result = .error e →
    (r.target.isEmpty = true ∧ e = .zeroTargetSize r.target.width r.target.height) ∨
    (r.target.isEmpty = false ∧ (s.numPages ≤ r.page ∨ s.pageSize r.page = none) ∧
      e = .invalidPage r.page s.numPages) ∨
    ((∃ size, Admits s r size) ∧ ((∃ m, e = .source r.page m) ∨ e = .emptyRaster r.page))
  /-- So no answer is a GPU error. -/
  noGpuError : ∀ out b' m, b.render s r now = .ok (out, b') → out.result ≠ .error (.gpu m)
  /-- A thumbnail, fresh or cached, has no side zero and fits the box. -/
  fits : ∀ out b' t, b.render s r now = .ok (out, b') → out.result = .ok t → fitsIn r.target t.width t.height
  /-- An overflow of a word stops a request only while a fresh thumbnail is stored. -/
  overflow : ∀ e, b.render s r now = .error e → b.compressionEnabled = true ∧ ∃ size dpi d t, Admits s r size ∧
    b.dpi.thumbnailDpi r.target size r.quality = (dpi, d) ∧ b.cache.entries.peek? (r.cacheKey dpi) = none ∧
    r.thumbnailOf b.imaging.resize (b.rasterize s r dpi).1 = .ok t
  /-- A GPU that always fails changes nothing but the count of GPU calls. -/
  failingGpu : ∀ g : Gpu, (∀ s p dpi, ∃ e, g.rasterize s p dpi = .error e) →
    withoutGpu <$> ({ b with gpu := some g } : Backend).render s r now = ({ b with gpu := none } : Backend).render s r now

/-- **Every backend a session reaches answers every request in order**: the box, the page, the
cache, then one raster, with thumbnails that fit their box, for every image operations whose
resize gives the size asked for and whose codec refuses sides of 0 or over 65535. -/
theorem render_follows_request_order (cfg : Config.CacheConfig) (ratio : Float) (imaging : Imaging)
    (himaging : imaging.Lawful) (gpu : Option Gpu) (ops : List Op) {b : Backend}
    (hrun : run { create cfg ratio imaging with gpu := gpu } ops = .ok b)
    (s : Source) (r : Request) (now : Instant) : AnswersInOrder b s r now := by
  have h0 : Sound { create cfg ratio imaging with gpu := gpu } := (sound_create cfg ratio himaging).of_cache rfl rfl
  have hb : Sound b := h0.run hrun
  exact {
    emptyBox := render_of_empty
    missingPage := render_of_invalid
    cached := fun _ _ _ _ ha hd hon hst => hb.render_of_cached ha hd hon hst
    rasterized := fun _ _ _ _ _ ha hd hmiss h => hb.render_of_not_cached ha hd hmiss h
    selected := selectedGpu_eq_some_iff b r
    routed := rasterize_cases b s r
    errors := fun _ _ _ h he => render_errors h he
    noGpuError := fun _ _ m h => render_ne_gpu h m
    fits := fun _ _ _ h ht => hb.render_fits h ht
    overflow := fun _ h => hb.render_eq_error h
    failingGpu := fun _ hfail => render_of_failing hfail b s r }

/-- A one-page letter document whose page rasterizes to a blank 8 × 8 bitmap. -/
def blankLetter : Source where
  numPages := 1
  pageSize := fun _ => some ⟨612, 792⟩
  rasterize := fun _ _ _ _ => .ok (Bitmap.blank 8 8)

/-- The same request twice on a new backend: the first answer is rasterized on the CPU, fits its
box and is stored; the second is served from the cache at the size stored. -/
theorem render_follows_request_order_on_repeat :
    let b₀ : Backend := { create {} 1.0 .standard with gpu := none }
    let r : Request := { page := 0, target := ⟨64, 64⟩ }
    Imaging.standard.Lawful ∧ ∃ b₁ t,
      b₀.render blankLetter r (Instant.tick 1) = .ok ({ result := .ok t, calls := { cpu := 1 } }, b₁) ∧
      fitsIn r.target t.width t.height ∧ run b₀ [.render blankLetter r (Instant.tick 1)] = .ok b₁ ∧
      ∃ b₂, b₁.render blankLetter r (Instant.tick 2) =
        .ok ({ result := .ok (Bitmap.decodedOf t.width t.height), cacheHit := true }, b₂) := by
  intro b₀ r
  have ha : Admits blankLetter r ⟨612, 792⟩ := ⟨rfl, by decide, rfl⟩
  obtain ⟨dpi, d, hd⟩ : ∃ dpi d, b₀.dpi.thumbnailDpi r.target ⟨612, 792⟩ r.quality = (dpi, d) := ⟨_, _, rfl⟩
  have hb₀ : Sound b₀ := (sound_create {} 1.0 Imaging.lawful_standard).of_cache rfl rfl
  -- the page is rasterized on the CPU, and the raster is not empty: it is scaled into the box
  have hras : b₀.rasterize blankLetter r dpi = (.ok (Bitmap.blank 8 8), { cpu := 1 }) := rfl
  let t := scaleToFit Bitmap.resize (Bitmap.blank 8 8) r.target
  have ht : r.thumbnailOf b₀.imaging.resize (b₀.rasterize blankLetter r dpi).1 = .ok t := by
    rw [hras]
    rfl
  have hfit : fitsIn r.target t.width t.height := scaleToFit_fits Imaging.lawful_standard _ rfl
  -- a thumbnail of at most 64 × 64 encodes to far less than the cache holds
  have hsides : t.width * t.height ≤ 64 * 64 := Nat.mul_le_mul hfit.2.1 hfit.2.2.2
  have henc : b₀.imaging.encode t b₀.cache.quality = some (codec.encodedSize t.width t.height) := by
    have hacc : codec.accepts t.width t.height = true := by
      have hbox : r.target.width = 64 ∧ r.target.height = 64 := ⟨rfl, rfl⟩
      obtain ⟨h₁, h₂, h₃, h₄⟩ := hfit
      exact codec_accepts_iff.2 ⟨h₁, by omega, h₃, by omega⟩
    simp only [b₀, create, Imaging.standard, Codec.encode, hacc, if_true]
  have hcap : codec.encodedSize t.width t.height ≤ b₀.cache.entries.maxCost := by
    have hmax : b₀.cache.entries.maxCost = 33554432 := rfl
    simp only [Codec.encodedSize, hmax]
    omega
  have hroom : b₀.cache.entries.currentCost + codec.encodedSize t.width t.height < wordSize := by
    have hcur : b₀.cache.entries.currentCost = 0 := rfl
    have hword : wordSize = 18446744073709551616 := rfl
    simp only [Codec.encodedSize, hcur, hword]
    omega
  obtain ⟨c, hr, hpeek⟩ := hb₀.render_stores (Instant.tick 1) (Compressed.synced_create _ _ _) ha hd rfl rfl ht henc hcap hroom
  have hr₁ : b₀.render blankLetter r (Instant.tick 1) =
      .ok ({ result := .ok t, calls := { cpu := 1 } }, { b₀ with dpi := d, cache := c }) := by
    rw [hr, fresh, ht, hras]
  have hrun : run b₀ [.render blankLetter r (Instant.tick 1)] = .ok { b₀ with dpi := d, cache := c } := by
    simp only [run, Op.step, hr₁, Functor.map, Except.map]
    rfl
  have hall := render_follows_request_order {} 1.0 .standard Imaging.lawful_standard none
  -- the second request finds its DPI in the memo, and under it the stored size
  have hd₁ : d.thumbnailDpi r.target ⟨612, 792⟩ r.quality = (dpi, d) :=
    DpiCalculator.thumbnailDpi_again DpiCache.wf_empty hd
  obtain ⟨_, hhit⟩ := (hall [.render blankLetter r (Instant.tick 1)] hrun blankLetter r (Instant.tick 2)).cached
    _ _ _ _ ha hd₁ rfl hpeek
  exact ⟨Imaging.lawful_standard, _, t, hr₁, (hall [] rfl blankLetter r (Instant.tick 1)).fits _ _ t hr₁ rfl, hrun, _,
    hhit⟩

end Backend
end Render
end Thumbnailer
