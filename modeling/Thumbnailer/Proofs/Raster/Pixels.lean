import Thumbnailer.Raster.Bitmap
import Mathlib

/-!
# Reading the pixels of a bitmap

A bitmap stores its pixels row after row, four bytes each. `Bitmap.pixel?` reads the pixel at a
column and a row back from those bytes, and `Bitmap.sub` is the part of a bitmap with a given
top-left pixel and size, as the image library's crop hands it out.

The bytes of a bitmap drawn from a function are one list per row, each the four bytes of its
pixels in turn (`render_data`). Reading byte `k` of pixel `(x, y)` is then indexing block `y` of
`4 w` bytes and, in it, block `x` of four (`getElem?_flatMap_blocks`), so every pixel inside the
bitmap reads back as the function's value there (`pixel?_ofFn`). Only those pixels make the
bytes (`render_congr`), so a part lying inside a drawn bitmap is the same function shifted to
its corner (`sub_ofFn`).
-/

namespace Thumbnailer
namespace Raster

/-- The four bytes of a pixel, in the order a bitmap stores them. -/
def Rgba.bytes (p : Rgba) : List UInt8 := [p.r, p.g, p.b, p.a]

@[simp] theorem Rgba.length_bytes (p : Rgba) : p.bytes.length = 4 := rfl

/-- In a list made of blocks of `n` elements, element `k` of block `i` sits at `n * i + k`. -/
theorem getElem?_flatMap_blocks {α β : Type} {g : α → List β} {n : Nat} (l : List α)
    (hlen : ∀ a ∈ l, (g a).length = n) (i : Nat) {k : Nat} (hk : k < n) :
    (l.flatMap g)[n * i + k]? = l[i]?.bind fun a => (g a)[k]? := by
  induction l generalizing i with
  | nil => simp
  | cons a l ih =>
    have ha := hlen a List.mem_cons_self
    rw [List.flatMap_cons]
    cases i with
    | zero => simp [List.getElem?_append_left (ha ▸ hk : k < (g a).length)]
    | succ i =>
      -- the first block is skipped whole
      rw [List.getElem?_append_right (by rw [ha, Nat.mul_succ]; omega),
        show n * (i + 1) + k - (g a).length = n * i + k by rw [ha, Nat.mul_succ]; omega,
        ih (fun b hb => hlen b (List.mem_cons_of_mem _ hb)) i]
      simp

theorem byteArray_getElem?_eq (bs : ByteArray) (i : Nat) : bs[i]? = bs.data[i]? := by
  by_cases h : i < bs.size
  · rw [getElem?_pos bs i h, ByteArray.getElem_eq_getElem_data, Array.getElem?_eq_getElem]
  · rw [getElem?_neg bs i h, Array.getElem?_eq_none]
    exact Nat.le_of_not_lt h

namespace Bitmap

/-- The pixel at column `x` and row `y`, read from the bytes: `none` outside the bitmap, or
when the codec restored its pixels. -/
def pixel? (b : Bitmap) (x y : Nat) : Option Rgba :=
  if x < b.width ∧ y < b.height then
    b.bytes?.bind fun bs => do
      let i := 4 * (y * b.width + x)
      pure ⟨← bs[i]?, ← bs[i + 1]?, ← bs[i + 2]?, ← bs[i + 3]?⟩
  else none

/-- The part of `b` that is `w` pixels wide and `h` high, with top-left pixel `(x, y)`; a pixel
that `b` lacks is transparent black. -/
def sub (b : Bitmap) (x y w h : Nat) : Bitmap :=
  ofFn w h fun i j => (b.pixel? (x + i) (y + j)).getD ⟨0, 0, 0, 0⟩

/-- Drawing the pixels of a row appends their bytes. -/
theorem foldl_push_row (f : Nat → Nat → Rgba) (y : Nat) (xs : List Nat) (acc : ByteArray) :
    (xs.foldl (fun acc x =>
      let p := f x y
      ((acc.push p.r).push p.g |>.push p.b).push p.a) acc).data.toList =
      acc.data.toList ++ xs.flatMap fun x => (f x y).bytes := by
  induction xs generalizing acc with
  | nil => simp
  | cons x xs ih =>
    rw [List.foldl_cons, ih]
    simp [Rgba.bytes]

/-- **The bytes of a drawn bitmap**: row after row, the four bytes of each pixel. -/
theorem render_data (w h : Nat) (f : Nat → Nat → Rgba) :
    (render w h f).data.toList =
      (List.range h).flatMap fun y => (List.range w).flatMap fun x => (f x y).bytes := by
  unfold render
  suffices ∀ (ys : List Nat) (acc : ByteArray), (ys.foldl (fun acc y =>
      (List.range w).foldl (fun acc x =>
        let p := f x y
        ((acc.push p.r).push p.g |>.push p.b).push p.a) acc) acc).data.toList =
      acc.data.toList ++ ys.flatMap fun y => (List.range w).flatMap fun x => (f x y).bytes by
    rw [this]
    rfl
  intro ys
  induction ys with
  | nil => simp
  | cons y ys ih =>
    intro acc
    rw [List.foldl_cons, ih, foldl_push_row]
    simp

/-- **Each pixel of a bitmap drawn from `f` reads back as `f` there.** -/
theorem pixel?_ofFn {w h x y : Nat} (f : Nat → Nat → Rgba) (hx : x < w) (hy : y < h) :
    (ofFn w h f).pixel? x y = some (f x y) := by
  -- byte `k` of the pixel is byte `4 x + k` of row `y`, and every row holds `4 w` bytes
  have hbyte : ∀ k < 4, (render w h f)[4 * (y * w + x) + k]? = (f x y).bytes[k]? := by
    intro k hk
    have hrow : ∀ y' ∈ List.range h,
        ((List.range w).flatMap fun x => (f x y').bytes).length = 4 * w := by
      intro y' _
      simp [List.length_flatMap, Nat.mul_comm]
    rw [byteArray_getElem?_eq, ← Array.getElem?_toList, render_data,
      show 4 * (y * w + x) + k = 4 * w * y + (4 * x + k) by ring,
      getElem?_flatMap_blocks _ hrow y (by omega), List.getElem?_range hy, Option.bind_some,
      getElem?_flatMap_blocks _ (fun _ _ => Rgba.length_bytes _) x hk, List.getElem?_range hx,
      Option.bind_some]
  have h₀ := hbyte 0 (by omega)
  have h₁ := hbyte 1 (by omega)
  have h₂ := hbyte 2 (by omega)
  have h₃ := hbyte 3 (by omega)
  simp only [Nat.add_zero] at h₀
  simp [pixel?, ofFn, bytes?, hx, hy, h₀, h₁, h₂, h₃, Rgba.bytes]

/-- Only the pixels inside the bitmap make its bytes. -/
theorem render_congr {w h : Nat} {f g : Nat → Nat → Rgba}
    (hfg : ∀ x < w, ∀ y < h, f x y = g x y) : render w h f = render w h g := by
  refine ByteArray.ext (Array.ext' ?_)
  rw [render_data, render_data]
  refine List.flatMap_congr fun y hy => List.flatMap_congr fun x hx => ?_
  rw [hfg x (List.mem_range.1 hx) y (List.mem_range.1 hy)]

theorem ofFn_congr {w h : Nat} {f g : Nat → Nat → Rgba}
    (hfg : ∀ x < w, ∀ y < h, f x y = g x y) : ofFn w h f = ofFn w h g := by
  simp only [ofFn, render_congr hfg]

/-- **A part inside a drawn bitmap is drawn from the same function, shifted to its corner.** -/
theorem sub_ofFn {w h x y w' h' : Nat} (f : Nat → Nat → Rgba) (hw : x + w' ≤ w)
    (hh : y + h' ≤ h) : (ofFn w h f).sub x y w' h' = ofFn w' h' fun i j => f (x + i) (y + j) := by
  unfold sub
  refine ofFn_congr fun i hi j hj => ?_
  rw [pixel?_ofFn f (by omega) (by omega)]
  rfl

end Bitmap
end Raster
end Thumbnailer
