import Mathlib
import Thumbnailer.Decimal.Text

/-!
# The word of a double

A double is a 64-bit word: a sign bit, eleven exponent bits and fifty-two fraction bits. A
finite nonzero double with exponent field `E` and fraction field `F` has the magnitude
`m · 2^q` that `Decimal.Binary.ofBits` decodes: `m = 2^52 + F` and `q = E - 1075` for a normal
number (`E ≥ 1`), `m = F` and `q = -1074` for a subnormal one (`E = 0`). Such a pair is
*canonical* (`Canonical`): `m` has at most 53 bits, and exactly 53 unless `q` is the least
exponent.

The float model unpacks a word into a sign, a mantissa and an exponent, and packs them back.
Unpacking a finite nonzero word gives its sign and `Binary.ofBits` (`unpack_eq_finite`); packing
a canonical pair gives the word `encode` spells out (`toNat_pack_finite`); so the two are
inverse on canonical pairs (`unpack_pack_finite`), and a finite nonzero double is the packing of
its sign and magnitude (`eq_ofModel_pack`). The words outside are settled one by one: every NaN
is the canonical NaN, an infinity is `±1/0`, a zero is `±0`.
-/

open Float.Model Float.Model.UnpackedFloat

namespace Thumbnailer
namespace Decimal

/-! ### Fields -/

/-- The exponent field of a double's word. -/
def expField (b : UInt64) : Nat := b.toNat / 2 ^ 52 % 2 ^ 11

/-- The fraction field of a double's word. -/
def fracField (b : UInt64) : Nat := b.toNat % 2 ^ 52

theorem expField_lt (b : UInt64) : expField b < 2 ^ 11 := Nat.mod_lt _ (by norm_num)

theorem toNat_unpackExponent (b : UInt64) :
    (@unpackExponent .binary64 b.toBitVec).toNat = expField b := by
  simp [unpackExponent, expField, Nat.shiftRight_eq_div_pow]

theorem toNat_unpackMantissa (b : UInt64) :
    (@unpackMantissa .binary64 b.toBitVec).toNat = fracField b := by
  simp [unpackMantissa, fracField]

theorem toNat_unpackSign (b : UInt64) :
    (@unpackSign .binary64 b.toBitVec).toNat = b.toNat / 2 ^ 63 := by
  simp [unpackSign, Nat.shiftRight_eq_div_pow]
  have := b.toNat_lt
  omega

theorem ofBits_eq (b : UInt64) : Binary.ofBits b =
    if expField b = 0 then ⟨fracField b, -1074, false⟩
    else ⟨2 ^ 52 + fracField b, (expField b : Int) - 1075, fracField b = 0 && expField b > 1⟩ := by
  have he : ((b >>> 52) &&& 0x7FF).toNat = expField b := by
    simp only [UInt64.toNat_and, UInt64.toNat_shiftRight, Nat.shiftRight_eq_div_pow]
    rw [show (0x7FF : UInt64).toNat = 2 ^ 11 - 1 from rfl, Nat.and_two_pow_sub_one_eq_mod]
    rfl
  have hf : (b &&& 0xFFFFFFFFFFFFF).toNat = fracField b := by
    simp only [UInt64.toNat_and]
    rw [show (0xFFFFFFFFFFFFF : UInt64).toNat = 2 ^ 52 - 1 from rfl, Nat.and_two_pow_sub_one_eq_mod]
    rfl
  simp only [Binary.ofBits, he, hf]
  rfl

/-- The sign a double's word carries. -/
def signOf (b : UInt64) : Sign := Sign.ofBitVec (@unpackSign .binary64 b.toBitVec)

theorem toNat_toBitVec_signOf (b : UInt64) : (signOf b).toBitVec.toNat = b.toNat / 2 ^ 63 := by
  rw [← toNat_unpackSign]
  unfold signOf Sign.ofBitVec
  generalize @unpackSign .binary64 b.toBitVec = v
  split
  · subst_vars; rfl
  · have := v.isLt
    have : v.toNat ≠ 0 := fun h => by simp_all [← BitVec.toNat_inj]
    simp [Sign.toBitVec]
    omega

/-! ### Unpacking -/

/-- A finite nonzero double: its exponent field is not all ones and it has a nonzero magnitude. -/
structure FiniteWord (b : UInt64) : Prop where
  exp_ne : expField b ≠ 2047
  pos : 0 < (Binary.ofBits b).m

theorem exponentBias_binary64 : Format.binary64.exponentBias = 1023 := rfl

theorem toNat_one_append (v : BitVec 52) : (1#1 ++ v).toNat = 2 ^ 52 + v.toNat := by
  rw [BitVec.toNat_append, ← Nat.shiftLeft_add_eq_or_of_lt v.isLt]
  simp [Nat.shiftLeft_eq]

theorem unpack_eq_finite {b : UInt64} (hb : FiniteWord b) :
    UnpackedFloat.unpack .binary64 b.toBitVec =
      .finite (signOf b) (Binary.ofBits b).m (Binary.ofBits b).q hb.pos := by
  have hE := hb.exp_ne
  have hpos := hb.pos
  unfold UnpackedFloat.unpack
  have h1 : (@unpackExponent .binary64 b.toBitVec = -1#_) ↔ expField b = 2047 := by
    rw [← BitVec.toNat_inj, toNat_unpackExponent]
    exact Iff.rfl
  have h0 : (@unpackExponent .binary64 b.toBitVec = 0#_) ↔ expField b = 0 := by
    rw [← BitVec.toNat_inj, toNat_unpackExponent]
    exact Iff.rfl
  have hm0 : (@unpackMantissa .binary64 b.toBitVec = 0#_) ↔ fracField b = 0 := by
    rw [← BitVec.toNat_inj, toNat_unpackMantissa]
    exact Iff.rfl
  simp only [h1, hE, if_false, h0]
  by_cases hz : expField b = 0
  · have hm : (Binary.ofBits b).m = fracField b := by rw [ofBits_eq, if_pos hz]
    have hq : (Binary.ofBits b).q = -1074 := by rw [ofBits_eq, if_pos hz]
    have hf : fracField b ≠ 0 := by omega
    simp only [hz, if_true, hm0, hf, dif_neg, not_false_eq_true, toNat_unpackMantissa]
    congr 1
    · exact hm.symm
    · rw [hq, toNat_unpackExponent, hz, exponentBias_binary64]
      rfl
  · have hm : (Binary.ofBits b).m = 2 ^ 52 + fracField b := by rw [ofBits_eq, if_neg hz]
    have hq : (Binary.ofBits b).q = (expField b : Int) - 1075 := by rw [ofBits_eq, if_neg hz]
    simp only [hz, if_false]
    congr 1
    · rw [hm, toNat_one_append, toNat_unpackMantissa]
    · rw [hq, toNat_unpackExponent, exponentBias_binary64]
      rfl

/-! ### Canonical pairs and their words -/

/-- A magnitude `m · 2^q` in the form a double stores it: at most 53 bits, an exponent in
range, and exactly 53 bits unless the exponent is the least one (a subnormal number). -/
structure Canonical (m : Nat) (q : Int) : Prop where
  pos : 0 < m
  lt : m < 2 ^ 53
  le_exp : -1074 ≤ q
  exp_le : q ≤ 971
  normal : 2 ^ 52 ≤ m ∨ q = -1074

/-- The word of the double `±m · 2^q`: sign bit, biased exponent (zero for a subnormal number)
and the low 52 bits of the mantissa. -/
def encode (s : Sign) (m : Nat) (q : Int) : Nat :=
  s.toBitVec.toNat * 2 ^ 63 + (if 2 ^ 52 ≤ m then (q + 1075).toNat else 0) * 2 ^ 52 + m % 2 ^ 52

theorem toNat_packComponents (s : Sign) (e : BitVec 11) (f : BitVec 52) :
    (packComponents .binary64 s e f).toNat = s.toBitVec.toNat * 2 ^ 63 + e.toNat * 2 ^ 52 + f.toNat := by
  have hs : s.toBitVec.toNat < 2 := s.toBitVec.isLt
  simp only [packComponents, BitVec.toNat_append]
  rw [← Nat.shiftLeft_add_eq_or_of_lt f.isLt, ← Nat.shiftLeft_add_eq_or_of_lt e.isLt]
  simp only [Nat.shiftLeft_eq]
  ring

theorem log2_add_one_eq_iff {m : Nat} (hm : 0 < m) (hlt : m < 2 ^ 53) : m.log2 + 1 = 53 ↔ 2 ^ 52 ≤ m := by
  have h2 : m.log2 < 53 := (Nat.log2_lt hm.ne').2 hlt
  constructor
  · intro h
    exact (Nat.le_log2 hm.ne').1 (by omega)
  · intro h
    have := (Nat.le_log2 hm.ne').2 h
    omega

theorem toNat_pack_finite {s : Sign} {m : Nat} {q : Int} (hc : Canonical m q) :
    (UnpackedFloat.pack .binary64 (.finite s m q hc.pos)).toNat = encode s m q := by
  have hq := hc.le_exp
  have hq' := hc.exp_le
  have hlog := log2_add_one_eq_iff hc.pos hc.lt
  unfold UnpackedFloat.pack
  dsimp only
  split_ifs with hinf hnorm
  · change 2 ^ 11 ≤ (q + (1023 : Nat) + (52 : Nat)).toNat + 1 at hinf
    omega
  · have hn : 2 ^ 52 ≤ m := hlog.1 hnorm
    rw [toNat_packComponents, BitVec.toNat_ofNat, BitVec.toNat_ofNat, encode, if_pos hn,
      exponentBias_binary64]
    have hb : (q + ((1023 : Nat) : Int) + ((52 : Nat) : Int)).toNat % 2 ^ 11 = (q + 1075).toNat := by
      omega
    rw [hb]
  · have hn : ¬ 2 ^ 52 ≤ m := fun h => hnorm (hlog.2 h)
    rw [toNat_packComponents, BitVec.toNat_ofNat, encode, if_neg hn]
    rfl

theorem toBitVec_toNat_lt (s : Sign) : s.toBitVec.toNat < 2 := s.toBitVec.isLt

theorem sign_eq_of_toNat {s t : Sign} (h : s.toBitVec.toNat = t.toBitVec.toNat) : s = t := by
  cases s <;> cases t <;> first | rfl | exact absurd h (by decide)

section Encode

variable {s : Sign} {m : Nat} {q : Int} {b : UInt64}

/-- Reading the fields back from the word of a canonical pair. -/
theorem fields_of_encode (hc : Canonical m q) (hb : b.toNat = encode s m q) :
    expField b = (if 2 ^ 52 ≤ m then (q + 1075).toNat else 0) ∧ fracField b = m % 2 ^ 52 ∧
      b.toNat / 2 ^ 63 = s.toBitVec.toNat := by
  have hs := toBitVec_toNat_lt s
  have hq := hc.le_exp
  have hq' := hc.exp_le
  unfold expField fracField
  rw [hb, encode]
  split_ifs with hn <;> omega

theorem ofBits_of_encode (hc : Canonical m q) (hb : b.toNat = encode s m q) :
    (Binary.ofBits b).m = m ∧ (Binary.ofBits b).q = q := by
  obtain ⟨he, hf, -⟩ := fields_of_encode hc hb
  have hlt := hc.lt
  have hq := hc.le_exp
  rw [ofBits_eq]
  by_cases hn : 2 ^ 52 ≤ m
  · rw [if_pos hn] at he
    rw [if_neg (by omega)]
    constructor <;> (simp only; omega)
  · rw [if_neg hn] at he
    rw [if_pos he]
    exact ⟨by simp only; omega, (hc.normal.resolve_left hn).symm⟩

theorem finite_of_encode (hc : Canonical m q) (hb : b.toNat = encode s m q) : FiniteWord b := by
  obtain ⟨he, -, -⟩ := fields_of_encode hc hb
  have hq' := hc.exp_le
  refine ⟨?_, (ofBits_of_encode hc hb).1 ▸ hc.pos⟩
  rw [he]
  split_ifs <;> omega

theorem signOf_of_encode (hc : Canonical m q) (hb : b.toNat = encode s m q) : signOf b = s :=
  sign_eq_of_toNat ((toNat_toBitVec_signOf b).trans (fields_of_encode hc hb).2.2)

end Encode

/-- The magnitude of a finite nonzero double is canonical. -/
theorem canonical_ofBits {b : UInt64} (hb : FiniteWord b) :
    Canonical (Binary.ofBits b).m (Binary.ofBits b).q := by
  have hpos := hb.pos
  have hE := hb.exp_ne
  have hE' := expField_lt b
  have hF : fracField b < 2 ^ 52 := Nat.mod_lt _ (by norm_num)
  rw [ofBits_eq] at hpos ⊢
  split_ifs at hpos ⊢ with hz
  · exact ⟨hpos, by simp only; omega, le_refl _, by simp only; omega, Or.inr rfl⟩
  · exact ⟨hpos, by simp only; omega, by simp only; omega, by simp only; omega,
      Or.inl (by simp only; omega)⟩

/-- The word of a finite nonzero double is the encoding of its sign and magnitude. -/
theorem toNat_eq_encode {b : UInt64} (hb : FiniteWord b) :
    b.toNat = encode (signOf b) (Binary.ofBits b).m (Binary.ofBits b).q := by
  have hE := hb.exp_ne
  have hF : fracField b < 2 ^ 52 := Nat.mod_lt _ (by norm_num)
  have hlt := b.toNat_lt
  have hs := toNat_toBitVec_signOf b
  unfold encode
  rw [hs, ofBits_eq]
  unfold expField fracField at *
  split_ifs with hz hn hn <;> simp only at hn ⊢ <;> omega

/-- **Unpacking a packed canonical double gives it back.** -/
theorem unpack_pack_finite {s : Sign} {m : Nat} {q : Int} (hc : Canonical m q) :
    UnpackedFloat.unpack .binary64 (UnpackedFloat.pack .binary64 (.finite s m q hc.pos)) =
      .finite s m q hc.pos := by
  set b := UInt64.ofBitVec (UnpackedFloat.pack .binary64 (.finite s m q hc.pos)) with hbdef
  have hb : b.toNat = encode s m q := toNat_pack_finite hc
  have hu := unpack_eq_finite (finite_of_encode hc hb)
  obtain ⟨hm, hq⟩ := ofBits_of_encode hc hb
  rw [signOf_of_encode hc hb] at hu
  change UnpackedFloat.unpack .binary64 b.toBitVec = _
  rw [hu]
  congr

/-! ### Doubles -/

/-- Doubles with the same word are the same double. -/
theorem eq_of_toBits_eq {x y : Float} (h : x.toBits = y.toBits) : x = y := by
  rcases x with ⟨⟨bx, vx⟩⟩
  rcases y with ⟨⟨bY, vY⟩⟩
  change bx = bY at h
  subst h
  rfl

theorem toNat_toBits_ofModel_pack {s : Sign} {m : Nat} {q : Int} (hc : Canonical m q) :
    (Float.ofModel (Float.Model.pack (.finite s m q hc.pos))).toBits.toNat = encode s m q :=
  toNat_pack_finite hc

theorem unpack_toModel (x : Float) :
    x.toModel.unpack = UnpackedFloat.unpack .binary64 x.toBits.toBitVec := rfl

theorem signBit_eq (x : Float) : signBit x = decide (x.toBits.toNat / 2 ^ 63 = 1) := by
  unfold signBit
  have h : (x.toBits >>> 63).toNat = x.toBits.toNat / 2 ^ 63 := by
    simp [Nat.shiftRight_eq_div_pow]
  rw [Bool.eq_iff_iff, beq_iff_eq, decide_eq_true_iff, ← h, ← UInt64.toNat_inj]
  rfl

/-- The unpacked form of a double whose exponent field is all ones. -/
theorem unpack_of_expField_eq {b : UInt64} (h : expField b = 2047) :
    UnpackedFloat.unpack .binary64 b.toBitVec =
      if fracField b = 0 then .infinity (signOf b) else .notANumber := by
  unfold UnpackedFloat.unpack
  have h1 : @unpackExponent .binary64 b.toBitVec = -1#_ := by
    rw [← BitVec.toNat_inj, toNat_unpackExponent, h]
    rfl
  have hm0 : (@unpackMantissa .binary64 b.toBitVec = 0#_) ↔ fracField b = 0 := by
    rw [← BitVec.toNat_inj, toNat_unpackMantissa]
    exact Iff.rfl
  simp only [h1, if_true, hm0]
  rfl

theorem expField_ne_of_finite {x : Float} (hn : x.isNaN = false) (hi : x.isInf = false) :
    expField x.toBits ≠ 2047 := by
  intro h
  have hu := unpack_of_expField_eq h
  change x.toModel.unpack.isNaN = false at hn
  change x.toModel.unpack.isInf = false at hi
  rw [unpack_toModel, hu] at hn hi
  split_ifs at hn hi <;> simp [UnpackedFloat.isNaN, UnpackedFloat.isInf] at hn hi

/-- Every NaN is the canonical one. -/
theorem eq_nan {x : Float} (h : x.isNaN = true) : x = 0.0 / 0.0 := by
  apply eq_of_toBits_eq
  change x.toModel.unpack.isNaN = true at h
  rw [unpack_toModel] at h
  by_cases he : expField x.toBits = 2047
  · rw [unpack_of_expField_eq he] at h
    split_ifs at h with hf
    · simp [UnpackedFloat.isNaN] at h
    · have hv := x.toModel.valid.eq_packedNaN
        (by rw [← BitVec.toNat_inj, toNat_unpackExponent]; exact he)
        (by rw [ne_eq, ← BitVec.toNat_inj, toNat_unpackMantissa]; exact hf)
      rw [← UInt64.toBitVec_inj]
      exact hv
  · unfold UnpackedFloat.unpack at h
    have h1 : ¬ @unpackExponent .binary64 x.toBits.toBitVec = -1#_ := by
      rw [← BitVec.toNat_inj, toNat_unpackExponent]
      exact he
    simp only [h1, if_false] at h
    split_ifs at h <;> simp [UnpackedFloat.isNaN] at h

theorem toNat_eq_fields (b : UInt64) :
    b.toNat = b.toNat / 2 ^ 63 * 2 ^ 63 + expField b * 2 ^ 52 + fracField b := by
  have := b.toNat_lt
  unfold expField fracField
  omega

/-- An infinite double is one of the two infinities. -/
theorem inf_cases {x : Float} (h : x.isInf = true) : x = 1.0 / 0.0 ∨ x = -(1.0 / 0.0) := by
  change x.toModel.unpack.isInf = true at h
  rw [unpack_toModel] at h
  have he : expField x.toBits = 2047 := by
    by_contra he
    unfold UnpackedFloat.unpack at h
    have h1 : ¬ @unpackExponent .binary64 x.toBits.toBitVec = -1#_ := by
      rw [← BitVec.toNat_inj, toNat_unpackExponent]
      exact he
    simp only [h1, if_false] at h
    split_ifs at h <;> simp [UnpackedFloat.isInf] at h
  have hf : fracField x.toBits = 0 := by
    rw [unpack_of_expField_eq he] at h
    split_ifs at h with hf
    · exact hf
    · simp [UnpackedFloat.isInf] at h
  have hx := toNat_eq_fields x.toBits
  have hlt := x.toBits.toNat_lt
  rw [he, hf] at hx
  by_cases hs : x.toBits.toNat / 2 ^ 63 = 0
  · left
    apply eq_of_toBits_eq
    rw [← UInt64.toNat_inj]
    change _ = 0x7FF0000000000000
    omega
  · right
    apply eq_of_toBits_eq
    rw [← UInt64.toNat_inj]
    change _ = 0xFFF0000000000000
    omega

/-- A double of magnitude zero is one of the two zeros. -/
theorem zero_cases {x : Float} (h : (Binary.ofBits x.toBits).m = 0) : x = 0 ∨ x = -0 := by
  have hz : expField x.toBits = 0 ∧ fracField x.toBits = 0 := by
    rw [ofBits_eq] at h
    split_ifs at h with hz
    · exact ⟨hz, h⟩
    · simp only at h
      omega
  have hx := toNat_eq_fields x.toBits
  have hlt := x.toBits.toNat_lt
  rw [hz.1, hz.2] at hx
  by_cases hs : x.toBits.toNat / 2 ^ 63 = 0
  · left
    apply eq_of_toBits_eq
    rw [← UInt64.toNat_inj]
    change _ = 0
    omega
  · right
    apply eq_of_toBits_eq
    rw [← UInt64.toNat_inj]
    change _ = 0x8000000000000000
    omega

theorem unpack_model_pack (u : UnpackedFloat) :
    (Float.Model.pack u).unpack = UnpackedFloat.unpack .binary64 (UnpackedFloat.pack .binary64 u) := rfl

/-- A finite nonzero double is the packing of its sign and magnitude. -/
theorem eq_ofModel_pack {x : Float} (hb : FiniteWord x.toBits) :
    x = Float.ofModel (Float.Model.pack
      (.finite (signOf x.toBits) (Binary.ofBits x.toBits).m (Binary.ofBits x.toBits).q hb.pos)) := by
  apply eq_of_toBits_eq
  rw [← UInt64.toNat_inj]
  exact (toNat_eq_encode hb).trans (toNat_toBits_ofModel_pack (canonical_ofBits hb)).symm

/-- Negating a packed positive double packs the negative one. -/
theorem neg_ofModel_pack {m : Nat} {q : Int} (hc : Canonical m q) :
    -Float.ofModel (Float.Model.pack (.finite .positive m q hc.pos)) =
      Float.ofModel (Float.Model.pack (.finite .negative m q hc.pos)) := by
  change Float.ofModel (Float.Model.pack (Float.Model.pack (.finite .positive m q hc.pos)).unpack.neg) = _
  rw [unpack_model_pack, unpack_pack_finite hc]
  rfl

theorem signOf_eq (x : Float) : signOf x.toBits = if signBit x then .negative else .positive := by
  have h := toNat_toBitVec_signOf x.toBits
  have hlt := x.toBits.toNat_lt
  rw [signBit_eq]
  split_ifs with hs
  · apply sign_eq_of_toNat
    rw [h]
    simp only [decide_eq_true_eq] at hs
    exact hs
  · apply sign_eq_of_toNat
    rw [h]
    simp only [decide_eq_true_eq] at hs
    change _ = 0
    omega

end Decimal
end Thumbnailer
