import Mathlib
import Thumbnailer.Proofs.Numeric.FloatBits

/-!
# Rounding to nearest, ties to even

The float model rounds an exact result in two steps. `roundWithAccuracy` shifts a mantissa
down to the target exponent of the format, keeping a round bit and a sticky bit for what it
shifts out; it rounds to nearest with ties to even, and shifts once more if rounding carried into
a fifty-fourth bit. This module proves that the result is the double nearest to the exact value.

What an extended mantissa says of an exact rational `y` is `Represents`: every one-bit shift
keeps it (`Represents.shiftRight`), and rounding then gives the integer nearest to `y`
(`Represents.roundedMantissa_eq`). The other side is `Binary.IsNearest x v`: `v` lies within half
a unit of the last place of the double `x`, within a quarter below a power of two where the double
below is closer, and on either end only when the mantissa of `x` is even.

Main statements: `roundWithAccuracy_eq_of_isNearest`, and from it division
(`div_eq_of_isNearest`), the conversion of exact values (`round_eq_of_isNearest`) and the
reading of a decimal `M · 10^-k` (`ofScientific_eq_of_isNearest`) on both of its paths: the
division of two exact doubles when `M < 2^53` and `k ≤ 22`, the model's own division otherwise.
-/

open Float.Model Float.Model.UnpackedFloat

namespace Thumbnailer
namespace Decimal

/-! ### Round and sticky bits -/

/-- What an extended mantissa says of the exact value `y`, counted in units of its last place:
the mantissa is the whole part of `y`, the round bit says whether the rest is at least one half,
the sticky bit whether the rest is anything but `0` or one half. -/
def Represents (em : ExtendedMantissa) (y : ℚ) : Prop :=
  match em.roundBit, em.stickyBit with
  | false, false => y = em.mantissa
  | false, true => (em.mantissa : ℚ) < y ∧ y < em.mantissa + 1 / 2
  | true, false => y = em.mantissa + 1 / 2
  | true, true => (em.mantissa : ℚ) + 1 / 2 < y ∧ y < em.mantissa + 1

section Represents

variable {em : ExtendedMantissa} {y : ℚ}

theorem Represents.bounds (h : Represents em y) : (em.mantissa : ℚ) ≤ y ∧ y < em.mantissa + 1 := by
  rcases em with ⟨m, r, s⟩
  cases r <;> cases s <;> simp only [Represents] at h <;> constructor <;> linarith

/-- The accuracy of a remainder `r` out of `d` describes `M + r / d`. -/
theorem represents_fraction (M r d : ℕ) (hd : 0 < d) (hr : r < d) :
    Represents (.ofMantissaAndAccuracy M (accuracyOfFraction r d)) (M + r / d) := by
  have hd' : (0 : ℚ) < d := by exact_mod_cast hd
  have hlt : (r : ℚ) / d < 1 := (div_lt_one hd').2 (by exact_mod_cast hr)
  unfold accuracyOfFraction
  split_ifs with h0
  · subst h0
    simp [Represents, ExtendedMantissa.ofMantissaAndAccuracy]
  · have hpos : (0 : ℚ) < r / d := div_pos (by exact_mod_cast Nat.pos_of_ne_zero h0) hd'
    rcases hc : compare (2 * r) d with _ | _ | _
    · have h2 : 2 * r < d := Nat.compare_eq_lt.1 hc
      have : (r : ℚ) / d < 1 / 2 := by
        rw [div_lt_iff₀ hd']
        have : ((2 * r : ℕ) : ℚ) < d := by exact_mod_cast h2
        push_cast at this
        linarith
      simp only [Represents, ExtendedMantissa.ofMantissaAndAccuracy]
      constructor <;> linarith
    · have h2 : 2 * r = d := Nat.compare_eq_eq.1 hc
      have : (r : ℚ) / d = 1 / 2 := by
        rw [div_eq_iff hd'.ne']
        have : ((2 * r : ℕ) : ℚ) = d := by exact_mod_cast h2
        push_cast at this
        linarith
      simp only [Represents, ExtendedMantissa.ofMantissaAndAccuracy]
      linarith
    · have h2 : d < 2 * r := Nat.compare_eq_gt.1 hc
      have : 1 / 2 < (r : ℚ) / d := by
        rw [lt_div_iff₀ hd']
        have : (d : ℚ) < ((2 * r : ℕ) : ℚ) := by exact_mod_cast h2
        push_cast at this
        linarith
      simp only [Represents, ExtendedMantissa.ofMantissaAndAccuracy]
      constructor <;> linarith

/-- One bit shifted out keeps the meaning, at twice the unit. -/
theorem Represents.shiftRightOne (h : Represents em y) : Represents em.shiftRightOne (y / 2) := by
  rcases em with ⟨m, r, s⟩
  have hm : ((m / 2 : ℕ) : ℚ) * 2 + ((m % 2 : ℕ) : ℚ) = m := by
    exact_mod_cast Nat.div_add_mod' m 2
  have hr : m % 2 = 0 ∨ m % 2 = 1 := Nat.mod_two_eq_zero_or_one m
  have h1 : ((1 : ℕ) != 0) = true := rfl
  rcases hr with hr | hr <;> cases r <;> cases s <;>
    simp only [Represents, ExtendedMantissa.shiftRightOne, hr, h1, bne_self_eq_false, Nat.cast_zero,
      Nat.cast_one, Bool.or_false, Bool.or_true] at h hm ⊢
  all_goals first | linarith | (constructor <;> linarith)

/-- Shifting out `n` bits keeps the meaning, at `2^n` times the unit. -/
theorem Represents.shiftRight (h : Represents em y) (n : ℕ) : Represents (em >>> n) (y / 2 ^ n) := by
  change Represents (n.repeat ExtendedMantissa.shiftRightOne em) _
  induction n with
  | zero => simpa [Nat.repeat] using h
  | succ n ih =>
    rw [Nat.repeat, pow_succ, ← div_div]
    exact ih.shiftRightOne

end Represents

/-- `r` is an integer nearest to `y`, and the even one when `y` lies halfway. -/
def NearestEven (y : ℚ) (r : ℕ) : Prop :=
  (r : ℚ) - 1 / 2 ≤ y ∧ y ≤ r + 1 / 2 ∧ (r % 2 = 1 → (r : ℚ) - 1 / 2 < y ∧ y < r + 1 / 2)

/-- **Rounding the mantissa gives the nearest integer, ties to even.** -/
theorem Represents.roundedMantissa_eq {em : ExtendedMantissa} {y : ℚ} {r : ℕ}
    (h : Represents em y) (hr : NearestEven y r) : em.roundedMantissa = r := by
  obtain ⟨hlo, hhi, hodd⟩ := hr
  rcases em with ⟨M, rb, sb⟩
  cases rb <;> cases sb <;>
    simp only [Represents, ExtendedMantissa.roundedMantissa, ExtendedMantissa.accuracy,
      Accuracy.roundToNearestEven] at h ⊢
  · -- `y = M`: only `M` is within one half
    have h1 : (r : ℚ) < M + 1 := by linarith
    have h2 : (M : ℚ) < r + 1 := by linarith
    have h1' : r < M + 1 := by exact_mod_cast h1
    have h2' : M < r + 1 := by exact_mod_cast h2
    omega
  · have h1 : (r : ℚ) < M + 1 := by linarith
    have h2 : (M : ℚ) < r + 1 := by linarith
    have h1' : r < M + 1 := by exact_mod_cast h1
    have h2' : M < r + 1 := by exact_mod_cast h2
    omega
  · -- `y = M + 1/2`: `M` or `M + 1`, whichever is even
    have h1 : (r : ℚ) ≤ M + 1 := by linarith
    have h2 : (M : ℚ) ≤ r := by linarith
    have h1' : r ≤ M + 1 := by exact_mod_cast h1
    have h2' : M ≤ r := by exact_mod_cast h2
    have heven : r % 2 = 0 := by
      by_contra hne
      obtain ⟨h3, h4⟩ := hodd (by omega)
      have h3' : (r : ℚ) < M + 1 := by linarith
      have h4' : (M : ℚ) < r := by linarith
      have h3'' : r < M + 1 := by exact_mod_cast h3'
      have h4'' : M < r := by exact_mod_cast h4'
      omega
    omega
  · have h1 : (r : ℚ) < M + 2 := by linarith
    have h2 : (M : ℚ) < r := by linarith
    have h1' : r < M + 2 := by exact_mod_cast h1
    have h2' : M < r := by exact_mod_cast h2
    omega

/-! ### Exponents -/

theorem targetExponent_binary64 (T : ℤ) :
    Format.binary64.targetExponent T = max (T - 53) (-1074) := rfl

theorem two_zpow_lt_iff {a b : ℤ} : (2 : ℚ) ^ a < 2 ^ b ↔ a < b :=
  zpow_lt_zpow_iff_right₀ one_lt_two

theorem two_zpow_le_iff {a b : ℤ} : (2 : ℚ) ^ a ≤ 2 ^ b ↔ a ≤ b :=
  zpow_le_zpow_iff_right₀ one_lt_two

theorem two_zpow_natCast_add (n : ℕ) (q : ℤ) : (2 : ℚ) ^ ((n : ℤ) + q) = 2 ^ n * 2 ^ q := by
  rw [zpow_add₀ two_ne_zero, zpow_natCast]

section Magnitude

variable {em : ExtendedMantissa} {v : ℚ} {E : ℤ}

/-- The exact value lies below the power of two just above the mantissa. -/
theorem Represents.lt_two_zpow (h : Represents em (v / 2 ^ E)) :
    v < 2 ^ totalExponent em.mantissa E := by
  have hE : (0 : ℚ) < 2 ^ E := zpow_pos two_pos E
  have h1 : (em.mantissa : ℚ) + 1 ≤ 2 ^ (em.mantissa.log2 + 1) := by
    exact_mod_cast Nat.lt_log2_self
  have h2 := h.bounds.2
  rw [div_lt_iff₀ hE] at h2
  calc v < (em.mantissa + 1) * 2 ^ E := h2
    _ ≤ 2 ^ (em.mantissa.log2 + 1) * 2 ^ E := by gcongr
    _ = 2 ^ totalExponent em.mantissa E := by
      rw [totalExponent, ← two_zpow_natCast_add]
      push_cast
      ring_nf

/-- A nonzero mantissa puts the exact value at or above its leading bit. -/
theorem Represents.two_zpow_le (h : Represents em (v / 2 ^ E)) (hM : 0 < em.mantissa) :
    2 ^ (totalExponent em.mantissa E - 1) ≤ v := by
  have hE : (0 : ℚ) < 2 ^ E := zpow_pos two_pos E
  have h1 : (2 : ℚ) ^ em.mantissa.log2 ≤ em.mantissa := by
    exact_mod_cast Nat.log2_self_le hM.ne'
  have h2 := h.bounds.1
  rw [le_div_iff₀ hE] at h2
  calc (2 : ℚ) ^ (totalExponent em.mantissa E - 1) = 2 ^ em.mantissa.log2 * 2 ^ E := by
        rw [totalExponent, ← two_zpow_natCast_add]
        ring_nf
    _ ≤ em.mantissa * 2 ^ E := by gcongr
    _ ≤ v := h2

end Magnitude

/-! ### The reals that round to a double -/

namespace Binary

/-- The lower end of the reals that round to `x`: half a unit of the last place below it, or
a quarter where the double below lies closer. -/
def lowerEnd (x : Binary) : ℚ := (x.m - if x.narrowBelow then 1 / 4 else 1 / 2) * 2 ^ x.q

/-- The upper end of the reals that round to `x`: half a unit of the last place above it. -/
def upperEnd (x : Binary) : ℚ := (x.m + 1 / 2) * 2 ^ x.q

/-- `x` is the double nearest to `v`: `v` lies between the two ends, and on an end only when
the mantissa is even (a tie goes to the even neighbour). -/
structure IsNearest (x : Binary) (v : ℚ) : Prop where
  lower : x.lowerEnd ≤ v
  upper : v ≤ x.upperEnd
  lower_lt : x.m % 2 = 1 → x.lowerEnd < v
  upper_lt : x.m % 2 = 1 → v < x.upperEnd

/-- A magnitude as `ofBits` decodes it from a finite nonzero double. -/
structure Valid (x : Binary) : Prop where
  canonical : Canonical x.m x.q
  narrowBelow_iff : x.narrowBelow = true ↔ x.m = 2 ^ 52 ∧ -1074 < x.q

theorem valid_ofBits {b : UInt64} (hb : FiniteWord b) : (ofBits b).Valid := by
  refine ⟨canonical_ofBits hb, ?_⟩
  have hF : fracField b < 2 ^ 52 := Nat.mod_lt _ (by norm_num)
  rw [ofBits_eq]
  split_ifs with hz
  · simp
  · simp only [Bool.and_eq_true, decide_eq_true_eq]
    omega

section Bounds

variable {x : Binary} {v : ℚ}

theorem IsNearest.lt_two_zpow (hx : x.Valid) (hv : x.IsNearest v) : v < 2 ^ ((53 : ℕ) + x.q) := by
  have hm : (x.m : ℚ) + 1 / 2 < 2 ^ 53 := by
    have : x.m + 1 ≤ 2 ^ 53 := hx.canonical.lt
    have : (x.m : ℚ) + 1 ≤ 2 ^ 53 := by exact_mod_cast this
    linarith
  calc v ≤ (x.m + 1 / 2) * 2 ^ x.q := hv.upper
    _ < 2 ^ 53 * 2 ^ x.q := by gcongr
    _ = 2 ^ ((53 : ℕ) + x.q) := (two_zpow_natCast_add 53 x.q).symm

/-- Away from the least exponent and from a power of two, `v` is above `2^52` units. -/
theorem IsNearest.two_zpow_lt_of_wide (hx : x.Valid) (hv : x.IsNearest v) (hq : x.q ≠ -1074)
    (hn : x.narrowBelow = false) : 2 ^ ((52 : ℕ) + x.q) < v := by
  have hm : 2 ^ 52 + 1 ≤ x.m := by
    have h1 := hx.canonical.normal.resolve_right hq
    have h2 : ¬ (x.m = 2 ^ 52 ∧ -1074 < x.q) := by
      rw [← hx.narrowBelow_iff, hn]
      simp
    have h3 := hx.canonical.le_exp
    omega
  have hm' : (2 : ℚ) ^ 52 + 1 ≤ x.m := by exact_mod_cast hm
  calc (2 : ℚ) ^ ((52 : ℕ) + x.q) = 2 ^ 52 * 2 ^ x.q := two_zpow_natCast_add 52 x.q
    _ < (x.m - 1 / 2) * 2 ^ x.q := by
      gcongr
      linarith
    _ = x.lowerEnd := by rw [lowerEnd, hn, if_neg (by simp)]
    _ ≤ v := hv.lower

/-- At a power of two with a narrower gap below, `v` is above `2^51` units. -/
theorem IsNearest.two_zpow_lt_of_narrow (hx : x.Valid) (hv : x.IsNearest v)
    (hn : x.narrowBelow = true) : 2 ^ ((51 : ℕ) + x.q) < v := by
  have hm := (hx.narrowBelow_iff.1 hn).1
  calc (2 : ℚ) ^ ((51 : ℕ) + x.q) = 2 ^ 51 * 2 ^ x.q := two_zpow_natCast_add 51 x.q
    _ < (x.m - 1 / 4) * 2 ^ x.q := by
      gcongr
      rw [hm]
      norm_num
    _ = x.lowerEnd := by rw [lowerEnd, hn, if_pos rfl]
    _ ≤ v := hv.lower

/-- In units of the last place of `x`, `v` rounds to the mantissa of `x`. -/
theorem IsNearest.nearestEven (hv : x.IsNearest v) : NearestEven (v / 2 ^ x.q) x.m := by
  have hq : (0 : ℚ) < 2 ^ x.q := zpow_pos two_pos _
  have hlo : (x.m - 1 / 2 : ℚ) * 2 ^ x.q ≤ x.lowerEnd := by
    unfold lowerEnd
    gcongr
    split_ifs <;> norm_num
  refine ⟨?_, ?_, fun hodd => ⟨?_, ?_⟩⟩
  · rw [le_div_iff₀ hq]
    exact hlo.trans hv.lower
  · rw [div_le_iff₀ hq]
    exact hv.upper
  · rw [lt_div_iff₀ hq]
    exact hlo.trans_lt (hv.lower_lt hodd)
  · rw [div_lt_iff₀ hq]
    exact hv.upper_lt hodd

/-- Just below a power of two with a narrower gap, `v` rounds to `2^53` units of the last place
below. -/
theorem IsNearest.nearestEven_of_narrow (hx : x.Valid) (hv : x.IsNearest v)
    (hn : x.narrowBelow = true) (hlt : v < 2 ^ ((52 : ℕ) + x.q)) :
    NearestEven (v / 2 ^ (x.q - 1)) (2 ^ 53) := by
  have hm := (hx.narrowBelow_iff.1 hn).1
  have hq : (0 : ℚ) < 2 ^ (x.q - 1) := zpow_pos two_pos _
  have hsplit : (2 : ℚ) ^ x.q = 2 * 2 ^ (x.q - 1) := by
    rw [← zpow_one_add₀ two_ne_zero]
    ring_nf
  have hlo : ((2 : ℚ) ^ 53 - 1 / 2) * 2 ^ (x.q - 1) = x.lowerEnd := by
    rw [lowerEnd, hn, if_pos rfl, hm, hsplit]
    push_cast
    ring
  have hhi : v < (2 : ℚ) ^ 53 * 2 ^ (x.q - 1) := by
    calc v < 2 ^ ((52 : ℕ) + x.q) := hlt
      _ = 2 ^ 53 * 2 ^ (x.q - 1) := by rw [two_zpow_natCast_add, hsplit]; ring
  refine ⟨?_, ?_, fun hodd => absurd hodd (by norm_num)⟩
  · rw [le_div_iff₀ hq, Nat.cast_pow, Nat.cast_ofNat, hlo]
    exact hv.lower
  · rw [div_le_iff₀ hq, Nat.cast_pow, Nat.cast_ofNat]
    linarith

end Bounds

end Binary

/-! ### Rounding -/

@[simp] theorem mantissa_ofMantissaAndAccuracy (M : ℕ) (acc : Accuracy) :
    (ExtendedMantissa.ofMantissaAndAccuracy M acc).mantissa = M := by
  rcases acc with _ | (_ | _ | _) <;> rfl

/-- Where the first shift of rounding lands: on the exponent of the nearest double `x`, or one
below it when `v` lies in the narrower gap under a power of two. -/
theorem target_cases {x : Binary} {v : ℚ} {M : ℕ} {E : ℤ} {acc : Accuracy} (hx : x.Valid)
    (hv : x.IsNearest v) (hrep : Represents (.ofMantissaAndAccuracy M acc) (v / 2 ^ E))
    (hE : E ≤ Format.binary64.targetExponent (totalExponent M E)) :
    Format.binary64.targetExponent (totalExponent M E) = x.q ∨
      (x.narrowBelow = true ∧ v < 2 ^ ((52 : ℕ) + x.q) ∧
        Format.binary64.targetExponent (totalExponent M E) = x.q - 1) := by
  rw [targetExponent_binary64] at hE ⊢
  have hq := hx.canonical.le_exp
  have hU : v < 2 ^ totalExponent M E := by
    simpa only [mantissa_ofMantissaAndAccuracy] using hrep.lt_two_zpow
  -- the target never passes `x.q`: a zero mantissa pins it to the least exponent
  have hle : max (totalExponent M E - 53) (-1074) ≤ x.q := by
    rcases Nat.eq_zero_or_pos M with hM | hM
    · have hT : totalExponent M E = 1 + E := by simp [totalExponent, hM]
      omega
    · have hL : (2 : ℚ) ^ (totalExponent M E - 1) ≤ v := by
        simpa only [mantissa_ofMantissaAndAccuracy] using hrep.two_zpow_le (by simpa using hM)
      have := two_zpow_lt_iff.1 (hL.trans_lt (hv.lt_two_zpow hx))
      omega
  by_cases hq0 : x.q = -1074
  · left
    omega
  cases hn : x.narrowBelow
  · left
    have := two_zpow_lt_iff.1 ((hv.two_zpow_lt_of_wide hx hq0 hn).trans hU)
    omega
  · by_cases hlt : v < 2 ^ ((52 : ℕ) + x.q)
    · right
      refine ⟨rfl, hlt, ?_⟩
      have h1 := two_zpow_lt_iff.1 ((hv.two_zpow_lt_of_narrow hx hn).trans hU)
      rcases Nat.eq_zero_or_pos M with hM | hM
      · have hT : totalExponent M E = 1 + E := by simp [totalExponent, hM]
        omega
      · have hL : (2 : ℚ) ^ (totalExponent M E - 1) ≤ v := by
          simpa only [mantissa_ofMantissaAndAccuracy] using hrep.two_zpow_le (by simpa using hM)
        have := two_zpow_lt_iff.1 (hL.trans_lt hlt)
        omega
    · left
      have := two_zpow_lt_iff.1 ((not_lt.1 hlt).trans_lt hU)
      omega

/-- A canonical pair needs no second shift. -/
theorem shiftToTargetExponent_canonical {m : ℕ} {q : ℤ} (hc : Canonical m q) :
    shiftToTargetExponent .binary64 m q .exact = (⟨m, false, false⟩, q) := by
  have hlog : m.log2 < 53 := (Nat.log2_lt hc.pos.ne').2 hc.lt
  have hq := hc.le_exp
  have ht : Format.binary64.targetExponent (totalExponent m q) = q := by
    rw [targetExponent_binary64, totalExponent]
    rcases hc.normal with hn | hq
    · have := (Nat.le_log2 hc.pos.ne').2 hn
      omega
    · omega
  simp only [shiftToTargetExponent, shiftToExponent, ht, sub_self, Int.toNat_zero, Nat.cast_zero,
    add_zero]
  rfl

/-- A mantissa that carried into `2^53` is shifted once, exactly. -/
theorem shiftToTargetExponent_carry {q : ℤ} (hq : -1074 < q) :
    shiftToTargetExponent .binary64 (2 ^ 53) (q - 1) .exact = (⟨2 ^ 52, false, false⟩, q) := by
  have ht : Format.binary64.targetExponent (totalExponent (2 ^ 53) (q - 1)) = q := by
    rw [targetExponent_binary64, totalExponent, Nat.log2_two_pow]
    omega
  simp only [shiftToTargetExponent, shiftToExponent, ht, show (q - (q - 1)).toNat = 1 by omega,
    show q - 1 + ((1 : ℕ) : ℤ) = q by omega]
  rfl

/-- **Rounding lands on the nearest double.** If the extended mantissa `(M, acc)` at exponent
`E` describes `v` and carries enough bits (`E` is at most the target exponent), rounding gives
the double nearest to `v`, whatever sign it is given. -/
theorem roundWithAccuracy_eq_of_isNearest {x : Binary} {v : ℚ} (hx : x.Valid) (hv : x.IsNearest v)
    (s : Sign) {M : ℕ} {E : ℤ} {acc : Accuracy}
    (hrep : Represents (.ofMantissaAndAccuracy M acc) (v / 2 ^ E))
    (hE : E ≤ Format.binary64.targetExponent (totalExponent M E)) :
    roundWithAccuracy .binary64 s M E acc = .finite s x.m x.q hx.canonical.pos := by
  set t := Format.binary64.targetExponent (totalExponent M E) with ht
  have hfirst : shiftToTargetExponent .binary64 M E acc =
      (ExtendedMantissa.ofMantissaAndAccuracy M acc >>> (t - E).toNat, t) := by
    simp only [shiftToTargetExponent, shiftToExponent, ← ht]
    congr 1
    omega
  -- after the first shift the mantissa describes `v` in units of `2^t`
  have hrep₁ : Represents (ExtendedMantissa.ofMantissaAndAccuracy M acc >>> (t - E).toNat)
      (v / 2 ^ t) := by
    have h := hrep.shiftRight (t - E).toNat
    rwa [div_div, ← zpow_natCast, ← zpow_add₀ two_ne_zero,
      show E + ((t - E).toNat : ℤ) = t by omega] at h
  have hcases := target_cases hx hv hrep hE
  rw [← ht] at hcases
  unfold roundWithAccuracy
  rw [hfirst]
  dsimp only
  generalize ExtendedMantissa.ofMantissaAndAccuracy M acc >>> (t - E).toNat = em₁ at hrep₁ ⊢
  rcases hcases with h | ⟨hn, hlt, h⟩
  · -- no carry: the rounded mantissa is that of `x`, already canonical at its exponent
    rw [h] at hrep₁ ⊢
    rw [hrep₁.roundedMantissa_eq hv.nearestEven, shiftToTargetExponent_canonical hx.canonical]
    rw [dif_neg hx.canonical.pos.ne']
  · -- a carry into `2^53` one place below, undone by one exact shift
    rw [h] at hrep₁ ⊢
    have hq : -1074 < x.q := ((hx.narrowBelow_iff.1 hn)).2
    rw [hrep₁.roundedMantissa_eq (hv.nearestEven_of_narrow hx hn hlt),
      shiftToTargetExponent_carry hq]
    have hm := (hx.narrowBelow_iff.1 hn).1
    simp only [hm]
    rfl

/-! ### Division, conversion and decimal reading -/

/-- The quotient of `m₁ · 2^s` by `m₂` keeps all but one of the bits the operands promise. -/
theorem log2_le_log2_div (m₁ m₂ s : ℕ) (h₁ : 0 < m₁) (h₂ : 0 < m₂) :
    m₁.log2 + s ≤ (m₁ * 2 ^ s / m₂).log2 + m₂.log2 + 1 := by
  by_cases hab : m₁.log2 + s ≤ m₂.log2
  · omega
  · set a := m₁.log2 + s
    set b := m₂.log2
    have hN : 2 ^ a ≤ m₁ * 2 ^ s := by
      rw [pow_add]
      exact Nat.mul_le_mul_right _ (Nat.log2_self_le h₁.ne')
    have hm₂ : m₂ < 2 ^ (b + 1) := Nat.lt_log2_self
    have hk : 2 ^ (a - b - 1) ≤ m₁ * 2 ^ s / m₂ := by
      rw [Nat.le_div_iff_mul_le h₂]
      calc 2 ^ (a - b - 1) * m₂ ≤ 2 ^ (a - b - 1) * 2 ^ (b + 1) := by gcongr
        _ = 2 ^ a := by rw [← pow_add]; congr 1; omega
        _ ≤ m₁ * 2 ^ s := hN
    have hpos : m₁ * 2 ^ s / m₂ ≠ 0 := by
      have : 1 ≤ 2 ^ (a - b - 1) := Nat.one_le_two_pow
      omega
    have := (Nat.le_log2 hpos).2 hk
    omega

/-- **Division rounds to the nearest double.** The quotient of two positive finite operands
is computed on a grid fine enough for every bit of the result, so rounding it gives the double
nearest to the exact quotient. -/
theorem div_eq_of_isNearest {x : Binary} (hx : x.Valid) {m₁ m₂ : ℕ} {e₁ e₂ : ℤ} (h₁ : 0 < m₁)
    (h₂ : 0 < m₂) (hv : x.IsNearest (m₁ * 2 ^ e₁ / (m₂ * 2 ^ e₂))) :
    UnpackedFloat.div .binary64 (.finite .positive m₁ e₁ h₁) (.finite .positive m₂ e₂ h₂) =
      .finite .positive x.m x.q hx.canonical.pos := by
  set E := min (e₁ - e₂)
    (Format.binary64.targetExponent (totalExponent m₁ e₁ - totalExponent m₂ e₂)) with hEdef
  set s := (e₁ - e₂ - E).toNat with hs
  have hsE : (s : ℤ) = e₁ - e₂ - E := by omega
  set N := m₁ <<< s with hNdef
  have hN : N = m₁ * 2 ^ s := Nat.shiftLeft_eq m₁ s
  -- the quotient `N / m₂` with its remainder describes the exact quotient on the grid `2^E`
  have hrep : Represents
      (ExtendedMantissa.ofMantissaAndAccuracy (N / m₂) (accuracyOfFraction (N % m₂) m₂))
      (m₁ * 2 ^ e₁ / (m₂ * 2 ^ e₂) / 2 ^ E) := by
    have h := represents_fraction (N / m₂) (N % m₂) m₂ h₂ (Nat.mod_lt _ h₂)
    have hm₂ : (m₂ : ℚ) ≠ 0 := by exact_mod_cast h₂.ne'
    have hsplit : (N / m₂ : ℕ) + ((N % m₂ : ℕ) : ℚ) / m₂ = (N : ℚ) / m₂ := by
      rw [eq_div_iff hm₂, add_mul, div_mul_cancel₀ _ hm₂]
      exact_mod_cast Nat.div_add_mod' N m₂
    have he₁ : (2 : ℚ) ^ e₁ = 2 ^ (s : ℤ) * 2 ^ e₂ * 2 ^ E := by
      rw [← zpow_add₀ two_ne_zero, ← zpow_add₀ two_ne_zero]
      congr 1
      omega
    rw [hsplit] at h
    convert h using 1
    rw [hN, he₁, zpow_natCast]
    push_cast
    field_simp
  -- enough bits: the grid is at or below the target exponent of the quotient
  have hE : E ≤ Format.binary64.targetExponent (totalExponent (N / m₂) E) := by
    have hlog := log2_le_log2_div m₁ m₂ s h₁ h₂
    rw [← hN] at hlog
    have hE₁ : E ≤ max (totalExponent m₁ e₁ - totalExponent m₂ e₂ - 53) (-1074) := by
      rw [hEdef, targetExponent_binary64]
      exact min_le_right _ _
    rw [targetExponent_binary64]
    simp only [totalExponent] at hE₁ ⊢
    omega
  exact roundWithAccuracy_eq_of_isNearest hx hv .positive hrep hE

theorem log2_mul_two_pow {M : ℕ} (hM : 0 < M) (d : ℕ) : (M * 2 ^ d).log2 = M.log2 + d := by
  have hpos : M * 2 ^ d ≠ 0 := (Nat.mul_pos hM (Nat.two_pow_pos d)).ne'
  have h1 : M.log2 + d ≤ (M * 2 ^ d).log2 := by
    rw [Nat.le_log2 hpos, pow_add]
    exact Nat.mul_le_mul_right _ (Nat.log2_self_le hM.ne')
  have h2 : (M * 2 ^ d).log2 < M.log2 + d + 1 := by
    rw [Nat.log2_lt hpos, show M.log2 + d + 1 = (M.log2 + 1) + d by omega, pow_add]
    exact Nat.mul_lt_mul_of_pos_right Nat.lt_log2_self (Nat.two_pow_pos d)
  omega

/-- **Rounding an exact dyadic value lands on the nearest double.** `round` first moves the
exponent down far enough, so the rounding step is `roundWithAccuracy_eq_of_isNearest`. -/
theorem round_eq_of_isNearest {x : Binary} (hx : x.Valid) {M : ℕ} {E : ℤ} (hM : 0 < M)
    (hv : x.IsNearest (M * 2 ^ E)) (s : Sign) :
    UnpackedFloat.round .binary64 s M E = .finite s x.m x.q hx.canonical.pos := by
  set t := Format.binary64.targetExponent (totalExponent M E) with ht
  set d := (E - t).toNat with hd
  have hdec : decreaseExponent M E t = (M * 2 ^ d, E - d) := by
    simp only [decreaseExponent, Nat.shiftLeft_eq, ← hd]
  have htot : totalExponent (M * 2 ^ d) (E - d) = totalExponent M E := by
    simp only [totalExponent, log2_mul_two_pow hM]
    push_cast
    ring
  have hrep : Represents (.ofMantissaAndAccuracy (M * 2 ^ d) .exact) (M * 2 ^ E / 2 ^ (E - d)) := by
    simp only [Represents, ExtendedMantissa.ofMantissaAndAccuracy]
    rw [zpow_sub₀ two_ne_zero, zpow_natCast]
    field_simp
    push_cast
    ring
  have hE : E - d ≤ Format.binary64.targetExponent (totalExponent (M * 2 ^ d) (E - d)) := by
    rw [htot, ← ht]
    omega
  unfold UnpackedFloat.round
  rw [← ht]
  dsimp only
  rw [hdec]
  exact roundWithAccuracy_eq_of_isNearest hx hv s hrep hE

namespace Binary

/-- A double is the nearest double to its own value. -/
theorem isNearest_value (x : Binary) : x.IsNearest (x.m * 2 ^ x.q) := by
  have hq : (0 : ℚ) < 2 ^ x.q := zpow_pos two_pos _
  have hlo : x.lowerEnd < x.m * 2 ^ x.q := by
    unfold lowerEnd
    gcongr
    split_ifs <;> linarith
  have hhi : (x.m : ℚ) * 2 ^ x.q < x.upperEnd := by
    unfold upperEnd
    gcongr
    linarith
  exact ⟨hlo.le, hhi.le, fun _ => hlo, fun _ => hhi⟩

end Binary

/-- A positive integer below `2^53` is a double. -/
theorem exists_valid_of_lt {M : ℕ} (h0 : 0 < M) (h : M < 2 ^ 53) :
    ∃ x : Binary, x.Valid ∧ (x.m : ℚ) * 2 ^ x.q = M := by
  have hlog : M.log2 < 53 := (Nat.log2_lt h0.ne').2 h
  set d := 52 - M.log2 with hd
  have hm : M * 2 ^ d < 2 ^ 53 ∧ 2 ^ 52 ≤ M * 2 ^ d := by
    have h1 := (Nat.log2_lt (Nat.mul_pos h0 (Nat.two_pow_pos d)).ne').1
      (by rw [log2_mul_two_pow h0]; omega : (M * 2 ^ d).log2 < 53)
    have h2 := (Nat.le_log2 (Nat.mul_pos h0 (Nat.two_pow_pos d)).ne').1
      (by rw [log2_mul_two_pow h0]; omega : 52 ≤ (M * 2 ^ d).log2)
    exact ⟨h1, h2⟩
  refine ⟨⟨M * 2 ^ d, (M.log2 : ℤ) - 52, decide (M * 2 ^ d = 2 ^ 52 ∧ -1074 < (M.log2 : ℤ) - 52)⟩,
    ⟨⟨Nat.mul_pos h0 (Nat.two_pow_pos d), hm.1, by simp only; omega, by simp only; omega,
      Or.inl hm.2⟩, by simp⟩, ?_⟩
  simp only
  push_cast
  rw [mul_assoc, ← zpow_natCast, ← zpow_add₀ two_ne_zero, show (d : ℤ) + (M.log2 - 52) = 0 by omega,
    zpow_zero, mul_one]

/-- A positive integer below `2^53` converts to a double exactly. -/
theorem unpack_toFloat {M : ℕ} (h0 : 0 < M) (h : M < 2 ^ 53) :
    ∃ m e hm, (M.toUInt64.toFloat).toModel.unpack = .finite .positive m e hm ∧
      (m : ℚ) * 2 ^ e = M := by
  obtain ⟨x, hx, hval⟩ := exists_valid_of_lt h0 h
  refine ⟨x.m, x.q, hx.canonical.pos, ?_, hval⟩
  have hM : M.toUInt64.toNat = M := by
    rw [Nat.toUInt64_eq, UInt64.toNat_ofNat_of_lt' (by change M < 2 ^ 64; omega)]
  have hn : UnpackedFloat.ofUInt64 .binary64 M.toUInt64 = UnpackedFloat.round .binary64 .positive M 0 := by
    simp only [UnpackedFloat.ofUInt64, UnpackedFloat.ofNat, UnpackedFloat.ofInt, UnpackedFloat.normalize,
      hM, Int.compare_eq_gt.2 (by omega : (0 : ℤ) < M), Int.toNat_natCast]
  have hv : x.IsNearest (M * 2 ^ (0 : ℤ)) := by
    rw [zpow_zero, mul_one, ← hval]
    exact x.isNearest_value
  change (Float.Model.pack (UnpackedFloat.ofUInt64 .binary64 M.toUInt64)).unpack = _
  rw [unpack_model_pack, hn, round_eq_of_isNearest hx h0 hv, unpack_pack_finite hx.canonical]

theorem powersOfTen_words : ∀ k : Fin 23,
    expField (Float.exactlyRepresentablePowersOfTen[k.1]!).toBits ≠ 2047 ∧
    (Float.exactlyRepresentablePowersOfTen[k.1]!).toBits.toNat / 2 ^ 63 = 0 ∧
    0 < (Binary.ofBits (Float.exactlyRepresentablePowersOfTen[k.1]!).toBits).m ∧
    -52 ≤ (Binary.ofBits (Float.exactlyRepresentablePowersOfTen[k.1]!).toBits).q ∧
    (Binary.ofBits (Float.exactlyRepresentablePowersOfTen[k.1]!).toBits).m *
      2 ^ ((Binary.ofBits (Float.exactlyRepresentablePowersOfTen[k.1]!).toBits).q + 52).toNat =
      10 ^ k.1 * 2 ^ 52 := by
  decide

/-- The table of the powers of ten up to `10^22` holds them exactly. -/
theorem unpack_powerOfTen {k : ℕ} (hk : k ≤ 22) :
    ∃ m e hm, (Float.exactlyRepresentablePowersOfTen[k]!).toModel.unpack = .finite .positive m e hm ∧
      (m : ℚ) * 2 ^ e = 10 ^ k := by
  obtain ⟨hE, hs, hpos, hq, hval⟩ := powersOfTen_words ⟨k, by omega⟩
  set b := (Float.exactlyRepresentablePowersOfTen[k]!).toBits
  have hb : FiniteWord b := ⟨hE, hpos⟩
  have hsign : signOf b = .positive := by
    apply sign_eq_of_toNat
    rw [toNat_toBitVec_signOf]
    exact hs
  refine ⟨_, _, hb.pos, (unpack_toModel _).trans ((unpack_eq_finite hb).trans (by rw [hsign])), ?_⟩
  have hv : ((Binary.ofBits b).m : ℚ) * 2 ^ (((Binary.ofBits b).q + 52).toNat : ℤ) = 10 ^ k * 2 ^ 52 := by
    rw [zpow_natCast]
    exact_mod_cast hval
  rw [show (((Binary.ofBits b).q + 52).toNat : ℤ) = (Binary.ofBits b).q + 52 by omega,
    zpow_add₀ two_ne_zero] at hv
  rw [← mul_assoc] at hv
  exact mul_right_cancel₀ (zpow_ne_zero _ two_ne_zero) (hv.trans (by norm_num))

/-- Nothing below half the least subnormal rounds to a nonzero double. -/
theorem Binary.IsNearest.two_zpow_le {x : Binary} {v : ℚ} (hx : x.Valid) (hv : x.IsNearest v) :
    (2 : ℚ) ^ (-1075 : ℤ) ≤ v := by
  have hm : (1 : ℚ) ≤ x.m := by exact_mod_cast hx.canonical.pos
  have hq : (2 : ℚ) ^ (-1074 : ℤ) ≤ 2 ^ x.q := two_zpow_le_iff.2 hx.canonical.le_exp
  have hδ : (1 / 2 : ℚ) ≤ x.m - if x.narrowBelow then 1 / 4 else 1 / 2 := by
    split_ifs <;> linarith
  calc (2 : ℚ) ^ (-1075 : ℤ) = 1 / 2 * 2 ^ (-1074 : ℤ) := by
        rw [show (-1075 : ℤ) = -1 + -1074 by norm_num, zpow_add₀ two_ne_zero]
        norm_num
    _ ≤ (x.m - if x.narrowBelow then 1 / 4 else 1 / 2) * 2 ^ x.q := by gcongr
    _ ≤ v := hv.lower

/-- **Reading `M · 10^-k` gives the nearest double.** Both ways `Float.ofScientific` computes
it, a division of two exact doubles when `M` and `10^k` are small and a division in the model
otherwise, round the exact quotient to nearest. -/
theorem ofScientific_eq_of_isNearest {x : Binary} (hx : x.Valid) {M k : ℕ} (hM : 0 < M)
    (hk : 0 < k) (hv : x.IsNearest (M / 10 ^ k)) :
    Float.ofScientific M true k =
      Float.ofModel (Float.Model.pack (.finite .positive x.m x.q hx.canonical.pos)) := by
  unfold Float.ofScientific
  by_cases hfast : M < 2 ^ 53 ∧ k ≤ 22
  · -- both operands are exact doubles, and the quotient rounds to `x`
    rw [dif_pos hfast]
    obtain ⟨m₁, e₁, h₁, hu₁, hv₁⟩ := unpack_toFloat hM hfast.1
    obtain ⟨m₂, e₂, h₂, hu₂, hv₂⟩ := unpack_powerOfTen hfast.2
    have hdom : k < Float.exactlyRepresentablePowersOfTen.size := by
      simp only [Float.exactlyRepresentablePowersOfTen, List.size_toArray, List.length_cons,
        List.length_nil]
      omega
    rw [getElem!_pos Float.exactlyRepresentablePowersOfTen k hdom] at hu₂
    change Float.ofModel (Float.Model.pack (UnpackedFloat.div .binary64
      (M.toUInt64.toFloat).toModel.unpack (Float.exactlyRepresentablePowersOfTen[k]).toModel.unpack)) = _
    rw [hu₁, hu₂, div_eq_of_isNearest hx h₁ h₂ (by rw [hv₁, hv₂]; exact hv)]
  · -- the model divides `M` by `10^k` after two guards that a value near a double passes
    rw [dif_neg hfast]
    change Float.ofModel (Float.Model.pack (UnpackedFloat.ofScientific .binary64 M (Int.negOfNat k))) = _
    have hlow := hv.two_zpow_le hx
    have hguard : k ≤ 2 ^ 11 + M.log2 := by
      have h10 : (0 : ℚ) < 10 ^ k := by positivity
      have h1 : (2 : ℚ) ^ k ≤ 10 ^ k := pow_le_pow_left₀ (by norm_num) (by norm_num) k
      have h2 : (M : ℚ) < 2 ^ (M.log2 + 1) := by exact_mod_cast Nat.lt_log2_self
      have h3 : (2 : ℚ) ^ (-1075 : ℤ) * 10 ^ k ≤ M := by
        rwa [le_div_iff₀ h10] at hlow
      have h4 : (2 : ℚ) ^ ((k : ℤ) - 1075) < 2 ^ ((M.log2 + 1 : ℕ) : ℤ) := by
        calc (2 : ℚ) ^ ((k : ℤ) - 1075) = 2 ^ (-1075 : ℤ) * 2 ^ k := by
              rw [← zpow_natCast, ← zpow_add₀ two_ne_zero]
              ring_nf
          _ ≤ 2 ^ (-1075 : ℤ) * 10 ^ k := by gcongr
          _ ≤ M := h3
          _ < 2 ^ (M.log2 + 1) := h2
          _ = 2 ^ ((M.log2 + 1 : ℕ) : ℤ) := (zpow_natCast _ _).symm
      have := two_zpow_lt_iff.1 h4
      omega
    have hneg : Int.negOfNat k = -(k : ℤ) := Int.negOfNat_eq
    simp only [UnpackedFloat.ofScientific, hM.ne', dif_neg, not_false_eq_true, hneg]
    rw [if_neg (by omega), if_neg (by omega), if_neg (by omega)]
    simp only [neg_neg, Int.toNat_natCast]
    rw [div_eq_of_isNearest hx hM (Nat.pos_of_ne_zero (by positivity)) (by simpa using hv)]

end Decimal
end Thumbnailer
