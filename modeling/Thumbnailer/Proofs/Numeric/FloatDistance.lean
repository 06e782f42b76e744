import Mathlib
/-!
# The distance between two doubles is symmetric

Two requests are the same work when their qualities differ by less than a tolerance, measured
as `(a - b).abs`. Whether that relation is symmetric is a question about IEEE 754 subtraction:
`a - b` and `b - a` round the same exact difference with opposite signs, and rounding to
nearest, ties to even, treats both signs alike. So `(a - b).abs = (b - a).abs` for every pair of
doubles, NaNs and infinities included (`Float.abs_sub_comm`).

The proof goes through the logical model of `Float`: a double is a bit pattern, unpacked into a
sign, a mantissa and an exponent, operated on, rounded and packed again. Every step below only
moves the sign around, and `abs` forgets it.
-/

namespace Thumbnailer

open Float.Model

/-- Rounding a magnitude gives the same magnitude whatever sign it carries. -/
theorem roundWithAccuracy_abs (spec : Format) (s t : UnpackedFloat.Sign) (m : Nat) (e : Int)
    (a : UnpackedFloat.Accuracy) :
    (UnpackedFloat.roundWithAccuracy spec s m e a).abs =
      (UnpackedFloat.roundWithAccuracy spec t m e a).abs := by
  simp only [UnpackedFloat.roundWithAccuracy]
  split <;> rfl

/-- **Normalizing `-m` and `m` gives results of one magnitude.** A negative mantissa is
rounded as its magnitude with a negative sign, so only the sign differs. -/
theorem normalize_neg_abs (spec : Format) (m e : Int) :
    (UnpackedFloat.normalize spec (-m) e .positive).abs =
      (UnpackedFloat.normalize spec m e .positive).abs := by
  simp only [UnpackedFloat.normalize]
  rcases Int.lt_trichotomy m 0 with h | rfl | h
  · have h₁ : compare (-m) 0 = .gt := Int.compare_eq_gt.2 (by omega)
    have h₂ : compare m 0 = .lt := Int.compare_eq_lt.2 h
    rw [h₁, h₂, Int.neg_neg]
    exact roundWithAccuracy_abs ..
  · rfl
  · have h₁ : compare (-m) 0 = .lt := Int.compare_eq_lt.2 (by omega)
    have h₂ : compare m 0 = .gt := Int.compare_eq_gt.2 h
    rw [h₁, h₂, Int.neg_neg]
    exact roundWithAccuracy_abs ..

/-- **Subtraction is antisymmetric up to sign** on unpacked doubles: a NaN stays a NaN,
infinities and zeros swap their signs, and two finite operands are aligned to the smaller
exponent and normalized from opposite mantissas. -/
theorem sub_abs_comm (spec : Format) (a b : UnpackedFloat) :
    (UnpackedFloat.sub spec a b).abs = (UnpackedFloat.sub spec b a).abs := by
  cases a with
  | notANumber => cases b <;> rfl
  | infinity s =>
    cases b with
    | infinity t => cases s <;> cases t <;> rfl
    | notANumber | zero _ | finite _ _ _ _ => rfl
  | zero s =>
    cases b with
    | zero t => cases s <;> cases t <;> rfl
    | notANumber | infinity _ | finite _ _ _ _ => rfl
  | finite s m e hm =>
    cases b with
    | notANumber | infinity _ | zero _ => rfl
    | finite t n f hn =>
      simp only [UnpackedFloat.sub, Int.min_comm f e]
      rw [← normalize_neg_abs, Int.neg_sub]

/-- The sign bit is the only part of a packed double that unpacking hands to the sign. -/
theorem unpack_packComponents_abs (spec : Format) (s t : UnpackedFloat.Sign)
    (E : BitVec spec.exponentBits) (M : BitVec spec.mantissaBitsWithoutImplicit) :
    (UnpackedFloat.unpack spec (UnpackedFloat.packComponents spec s E M)).abs =
      (UnpackedFloat.unpack spec (UnpackedFloat.packComponents spec t E M)).abs := by
  simp only [UnpackedFloat.unpack, UnpackedFloat.unpackMantissa_packComponents,
    UnpackedFloat.unpackExponent_packComponents]
  split_ifs <;> rfl

/-- Packing and unpacking again keeps magnitudes apart from signs: the magnitude read back
depends on the magnitude packed. -/
theorem unpack_pack_abs (spec : Format) (x : UnpackedFloat) :
    (UnpackedFloat.unpack spec (UnpackedFloat.pack spec x)).abs =
      (UnpackedFloat.unpack spec (UnpackedFloat.pack spec x.abs)).abs := by
  cases x with
  | notANumber => rfl
  | infinity s => exact unpack_packComponents_abs ..
  | zero s => exact unpack_packComponents_abs ..
  | finite s m e hm =>
    simp only [UnpackedFloat.pack, UnpackedFloat.abs, UnpackedFloat.packedInfinity]
    split_ifs <;> exact unpack_packComponents_abs ..

/-- **`|a - b| = |b - a|` for doubles.** -/
theorem Float.abs_sub_comm (a b : Float) : (a - b).abs = (b - a).abs := by
  -- `abs` of a difference, unfolded to the model: subtract, pack, unpack, drop the sign, pack.
  have h (x y : Float) : (x - y).abs = Float.ofModel (Float.Model.pack
      (UnpackedFloat.unpack .binary64 (UnpackedFloat.pack .binary64
        (UnpackedFloat.sub .binary64 x.toModel.unpack y.toModel.unpack))).abs) := rfl
  rw [h, h, unpack_pack_abs, sub_abs_comm, ← unpack_pack_abs]

end Thumbnailer
