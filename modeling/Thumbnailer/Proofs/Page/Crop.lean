import Thumbnailer.Page.Synthetic
import Thumbnailer.Proofs.Raster.Pixels

/-!
# Crops of a synthetic page are parts of its full raster

A synthetic page rasterized at `dx × dy` DPI is `W × H` pixels, each side of the page converted
to pixels. A crop converts its corner `(L, T)` and its size `w × h` the same way and cuts them to
the raster: the corner to `(min L W, min T H)`, the size to what is left of the raster past the
unclamped corner, `min w (W - L)` by `min h (H - T)`, the subtractions stopping at zero. Every
pixel is painted from its position in the full raster, so the crop is exactly the part of the full
raster at that corner and of that size (`crop_is_subimage`). The part lies inside the raster, and
the raster's sides are 32-bit words, so no pixel coordinate of the crop leaves its word.

A page the document does not have is refused with `no page N`, whether or not a crop is asked.
-/

namespace Thumbnailer
namespace Page

theorem toPixels_lt (x : Float) : toPixels x < 2 ^ 32 := UInt32.toNat_lt _

namespace Synthetic

open Raster

theorem rasterize_of_length_le {d : Synthetic} {p : Nat} (hp : d.pages.length ≤ p) (dx dy : Float)
    (crop : Option Crop) : d.rasterize p dx dy crop = .error ("no page " ++ toString p) := by
  simp [rasterize, List.getElem?_eq_none hp]

/-- **A crop of a synthetic page is the part of the full raster it names.** A page past the
document's end is refused with `no page N`. For a page of the document, the full raster is
`W × H`, every pixel painted from its own position; a crop whose corner and size convert to
`(L, T)` and `w × h` is the part of the full raster with top-left pixel `(min L W, min T H)` and
size `min w (W - L)` by `min h (H - T)`. That part lies inside the raster, whose sides are 32-bit
words. -/
theorem crop_is_subimage (d : Synthetic) (p : Nat) (dx dy : Float) (r : Crop) :
    (d.pages.length ≤ p →
      ∀ crop, d.rasterize p dx dy crop = .error ("no page " ++ toString p)) ∧
    ∀ size, d.pages[p]? = some size →
      let W := (size.pixelsAt dx dy).1
      let H := (size.pixelsAt dx dy).2
      let L := toPixels (r.x * dx / pointsPerInch)
      let T := toPixels (r.y * dy / pointsPerInch)
      let w := toPixels (r.width * dx / pointsPerInch)
      let h := toPixels (r.height * dy / pointsPerInch)
      ∃ full, d.rasterize p dx dy none = .ok full ∧ full.dims = (W, H) ∧
        (∀ x y, x < W → y < H → full.pixel? x y = some (paint p x y W H)) ∧
        d.rasterize p dx dy (some r) =
          .ok (full.sub (min L W) (min T H) (min w (W - L)) (min h (H - T))) ∧
        min L W + min w (W - L) ≤ W ∧ min T H + min h (H - T) ≤ H ∧
        W < 2 ^ 32 ∧ H < 2 ^ 32 := by
  refine ⟨fun hp crop => rasterize_of_length_le hp dx dy crop, fun size hp => ?_⟩
  intro W H L T w h
  refine ⟨Bitmap.ofFn W H fun x y => paint p x y W H, ?_, rfl,
    fun x y hx hy => Bitmap.pixel?_ofFn _ hx hy, ?_, by omega, by omega, toPixels_lt _,
    toPixels_lt _⟩
  · simp [rasterize, hp, window]
    rfl
  · -- the window lies inside the raster, so the part is the painting shifted to its corner
    rw [Bitmap.sub_ofFn _ (by omega) (by omega)]
    simp [rasterize, hp, window]
    rfl

/-- One page of 72 × 72 points at 100 DPI, cropped from its centre on, as in the program's own
test; page 1 does not exist. -/
theorem crop_is_subimage_of_quarter :
    let d : Synthetic := ⟨[⟨72, 72⟩]⟩
    let r : Crop := ⟨36, 36, 72, 72⟩
    (d.pages.length ≤ 1 ∧ d.rasterize 1 100 100 (some r) = .error "no page 1") ∧
      d.pages[0]? = some ⟨72, 72⟩ ∧
      ∃ full l t w h, d.rasterize 0 100 100 none = .ok full ∧
        d.rasterize 0 100 100 (some r) = .ok (full.sub l t w h) ∧ l + w ≤ full.width ∧
        t + h ≤ full.height := by
  intro d r
  obtain ⟨full, hfull, hdims, -, hcrop, hw, hh, -⟩ :=
    (crop_is_subimage d 0 100 100 r).2 ⟨72, 72⟩ rfl
  simp only [Bitmap.dims, Prod.mk.injEq] at hdims
  refine ⟨⟨by decide, (crop_is_subimage d 1 100 100 r).1 (by decide) (some r)⟩, rfl,
    full, _, _, _, _, hfull, hcrop, hdims.1 ▸ hw, hdims.2 ▸ hh⟩

end Synthetic
end Page
end Thumbnailer
