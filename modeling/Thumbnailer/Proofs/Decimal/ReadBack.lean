import Mathlib
import Thumbnailer.Proofs.Numeric.Rounding
import Thumbnailer.Decimal.Read
import Thumbnailer.Decimal.Text

/-!
# Reading back the text of a double

`literal` writes a double with the shortest decimal digits that round to it, and `readFloat?`
reads a decimal by rounding it to the nearest double. The two agree: every double reads back
from its literal (`readFloat?_literal`), signed zeros, infinities and NaN included.

The argument has three layers.

* The shortest decimal lies among the reals that round to the double
  (`Binary.isNearest_shortest`): every candidate the search offers passed `readsBack`, an
  exact comparison with the ends of the rounding interval (`cmpScaled_eq`), and moving
  trailing zeros into the exponent keeps the value (`Dec.value_normalize`).
* The literal of a positive decimal is a point text, digits on both sides of a point
  (`Dec.exists_pointText`), and the reader takes such a text as its digits over a power of
  ten (`readMagnitude_point`, with `digitsValue_toDigits` for the digits themselves).
* That quotient is far inside the range where `scientific` hands it to `Float.ofScientific`
  (`scientific_eq_ofScientific`), which rounds it to nearest (`ofScientific_eq_of_isNearest`).
-/

open Float.Model Float.Model.UnpackedFloat

namespace Thumbnailer
namespace Decimal

/-! ### The value of a decimal -/

/-- The value `digits · 10^exp` of a decimal. -/
def Dec.value (d : Dec) : ℚ := d.digits * 10 ^ d.exp

/-- Moving trailing zeros into the exponent keeps the value. -/
theorem Dec.value_normalize (d : Dec) : d.normalize.value = d.value := by
  unfold Dec.normalize
  generalize 20 = n
  induction n generalizing d with
  | zero => rfl
  | succ n ih =>
    unfold Dec.normalize.go
    split_ifs with h
    · rw [ih]
      obtain ⟨c, hc⟩ : 10 ∣ d.digits := Nat.dvd_of_mod_eq_zero h.2
      simp only [Dec.value, hc, Nat.mul_div_cancel_left c (by norm_num : 0 < 10)]
      push_cast
      rw [zpow_add_one₀ (by norm_num)]
      ring
    · rfl

theorem compare_natCast (a b : ℕ) : compare a b = compare (a : ℚ) (b : ℚ) := by
  rcases lt_trichotomy a b with h | rfl | h
  · rw [Nat.compare_eq_lt.2 h, compare_lt_iff_lt.2 (by exact_mod_cast h)]
  · rw [compare_eq_iff_eq.2 rfl, compare_eq_iff_eq.2 rfl]
  · rw [Nat.compare_eq_gt.2 h, compare_gt_iff_gt.2 (by exact_mod_cast h)]

theorem compare_mul_pos {a b c : ℚ} (hc : 0 < c) : compare (a * c) (b * c) = compare a b := by
  rcases lt_trichotomy a b with h | rfl | h
  · rw [compare_lt_iff_lt.2 h, compare_lt_iff_lt.2 (mul_lt_mul_of_pos_right h hc)]
  · rw [compare_eq_iff_eq.2 rfl, compare_eq_iff_eq.2 rfl]
  · rw [compare_gt_iff_gt.2 h, compare_gt_iff_gt.2 (mul_lt_mul_of_pos_right h hc)]

/-- `cmpScaled` compares `a · 10^i` with `n · 2^j`. -/
theorem cmpScaled_eq (a : ℕ) (i : ℤ) (n : ℕ) (j : ℤ) :
    cmpScaled a i n j = compare ((a : ℚ) * 10 ^ i) ((n : ℚ) * 2 ^ j) := by
  have hc : (0 : ℚ) < 10 ^ (-i).toNat * 2 ^ (-j).toNat := by positivity
  have h10 : (10 : ℚ) ^ i.toNat = 10 ^ i * 10 ^ (-i).toNat := by
    rw [← zpow_natCast, ← zpow_natCast, ← zpow_add₀ (by norm_num)]
    congr 1
    omega
  have h2 : (2 : ℚ) ^ j.toNat = 2 ^ j * 2 ^ (-j).toNat := by
    rw [← zpow_natCast, ← zpow_natCast, ← zpow_add₀ (by norm_num)]
    congr 1
    omega
  rw [cmpScaled, compare_natCast]
  conv_rhs => rw [← compare_mul_pos hc]
  simp only [Nat.pow_eq, Nat.cast_mul, Nat.cast_pow, Nat.cast_ofNat, h10, h2]
  congr 1 <;> ring

/-! ### The shortest decimal rounds to the double -/

namespace Binary

variable {x : Binary}

theorem lowerEnd_eq (hm : 0 < x.m) :
    (((if x.narrowBelow then 4 * x.m - 1 else 4 * x.m - 2 : ℕ)) : ℚ) * 2 ^ (x.q - 2) = x.lowerEnd := by
  have h4 : (2 : ℚ) ^ x.q = 4 * 2 ^ (x.q - 2) := by
    rw [show x.q = 2 + (x.q - 2) by ring, zpow_add₀ two_ne_zero]
    norm_num
  rw [lowerEnd, h4]
  split_ifs
  · rw [Nat.cast_sub (by omega)]
    push_cast
    ring
  · rw [Nat.cast_sub (by omega)]
    push_cast
    ring

theorem upperEnd_eq : ((4 * x.m + 2 : ℕ) : ℚ) * 2 ^ (x.q - 2) = x.upperEnd := by
  have h4 : (2 : ℚ) ^ x.q = 4 * 2 ^ (x.q - 2) := by
    rw [show x.q = 2 + (x.q - 2) by ring, zpow_add₀ two_ne_zero]
    norm_num
  rw [upperEnd, h4]
  push_cast
  ring

/-- **A decimal that reads back lies among the reals that round to `x`.** -/
theorem isNearest_of_readsBack (hx : x.Valid) {d : Dec} (h : x.readsBack d = true) :
    x.IsNearest d.value := by
  unfold readsBack at h
  simp only [Bool.and_eq_true, Bool.or_eq_true, beq_iff_eq, decide_eq_true_eq, cmpScaled_eq,
    lowerEnd_eq hx.canonical.pos, upperEnd_eq] at h
  obtain ⟨hlo, hhi⟩ := h
  have hlo' : x.lowerEnd < d.value ∨ (x.m % 2 = 0 ∧ d.value = x.lowerEnd) := by
    rcases hlo with hlo | ⟨he, hlo⟩
    · exact .inl (compare_gt_iff_gt.1 hlo)
    · exact .inr ⟨he, compare_eq_iff_eq.1 hlo⟩
  have hhi' : d.value < x.upperEnd ∨ (x.m % 2 = 0 ∧ d.value = x.upperEnd) := by
    rcases hhi with hhi | ⟨he, hhi⟩
    · exact .inl (compare_lt_iff_lt.1 hhi)
    · exact .inr ⟨he, compare_eq_iff_eq.1 hhi⟩
  refine ⟨?_, ?_, fun hodd => ?_, fun hodd => ?_⟩
  · rcases hlo' with h | ⟨-, h⟩ <;> [exact h.le; exact h.ge]
  · rcases hhi' with h | ⟨-, h⟩ <;> [exact h.le; exact h.le]
  · rcases hlo' with h | ⟨he, -⟩ <;> [exact h; omega]
  · rcases hhi' with h | ⟨he, -⟩ <;> [exact h; omega]

/-- A candidate on a grid is offered only when it reads back. -/
theorem readsBack_of_onGrid {e : ℤ} {d : Dec} (h : x.onGrid e = some d) : x.readsBack d = true := by
  unfold onGrid at h
  generalize x.divGrid e = g at h
  obtain ⟨lo, half⟩ := g
  dsimp only at h
  cases hb : x.readsBack ⟨lo, e⟩ <;> cases ha : x.readsBack ⟨lo + 1, e⟩ <;>
    simp only [hb, ha, Option.some.injEq, reduceCtorEq] at h
  · rw [← h, ha]
  · rw [← h, hb]
  · split at h <;> simp only [Option.some.injEq] at h <;> rw [← h] <;> assumption

/-- The exact fallback of `shortest` is the value of the double. -/
theorem value_exact (x : Binary) :
    (if x.q ≥ 0 then (⟨x.m * Nat.pow 2 x.q.toNat, 0⟩ : Dec)
      else ⟨x.m * Nat.pow 5 (-x.q).toNat, x.q⟩).value = x.m * 2 ^ x.q := by
  split_ifs with hq
  · simp only [Dec.value, Nat.pow_eq, zpow_zero, mul_one]
    push_cast
    rw [← zpow_natCast, Int.toNat_of_nonneg hq]
  · have h5 : (5 : ℚ) ^ (-x.q).toNat * 10 ^ x.q = 2 ^ x.q := by
      rw [← zpow_natCast, Int.toNat_of_nonneg (by omega), show (10 : ℚ) = 5 * 2 by norm_num,
        mul_zpow, ← mul_assoc, ← zpow_add₀ (by norm_num), neg_add_cancel, zpow_zero, one_mul]
    simp only [Dec.value, Nat.pow_eq]
    push_cast
    rw [mul_assoc, h5]

/-- **The shortest decimal of a double reads back as it.** Whatever the search finds was tested
by `readsBack`, and its fallback is the exact value. -/
theorem isNearest_shortest (hx : x.Valid) : x.IsNearest x.shortest.value := by
  unfold shortest
  dsimp only
  split
  next d hf =>
    obtain ⟨i, -, hi⟩ := List.exists_of_findSome?_eq_some hf
    rw [Dec.value_normalize]
    exact isNearest_of_readsBack hx (readsBack_of_onGrid hi)
  next =>
    rw [value_exact]
    exact x.isNearest_value

/-- The shortest decimal of a double has positive digits: it is at least `2^-1075`. -/
theorem shortest_digits_pos (hx : x.Valid) : 0 < x.shortest.digits := by
  have hpos : 0 < x.shortest.value :=
    lt_of_lt_of_le (by positivity) (Binary.IsNearest.two_zpow_le hx (isNearest_shortest hx))
  by_contra h
  simp [Dec.value, show x.shortest.digits = 0 by omega] at hpos

end Binary

/-! ### Decimal digits -/

/-- Reading digits after a prefix worth `n` shifts `n` past them. -/
theorem foldl_digit (ds : List Char) (n : ℕ) :
    ds.foldl (fun n c => 10 * n + (c.toNat - '0'.toNat)) n = n * 10 ^ ds.length + digitsValue ds := by
  induction ds generalizing n with
  | nil => simp [digitsValue]
  | cons c ds ih =>
    simp only [List.foldl_cons, digitsValue, List.length_cons]
    rw [ih, ih (10 * 0 + _)]
    ring

theorem digitsValue_append (a b : List Char) :
    digitsValue (a ++ b) = digitsValue a * 10 ^ b.length + digitsValue b := by
  rw [digitsValue, List.foldl_append, foldl_digit]
  rfl

@[simp] theorem digitsValue_nil : digitsValue [] = 0 := rfl

theorem digitsValue_singleton (c : Char) : digitsValue [c] = c.toNat - '0'.toNat := by
  simp [digitsValue]

@[simp] theorem digitsValue_replicate_zero (n : ℕ) : digitsValue (List.replicate n '0') = 0 := by
  induction n with
  | zero => rfl
  | succ n ih =>
    rw [List.replicate_succ', digitsValue_append, ih, digitsValue_singleton]
    rfl

/-- Reading the decimal digits of `n` gives `n` back. -/
theorem digitsValue_toDigits (n : ℕ) : digitsValue (Nat.toDigits 10 n) = n := by
  induction n using Nat.strong_induction_on with
  | _ n ih =>
    rw [Nat.toDigits_eq_if (by norm_num)]
    split_ifs with h
    · rw [digitsValue_singleton]
      exact Nat.toNat_digitChar_sub_48_of_lt_ten h
    · rw [digitsValue_append, ih _ (by omega), digitsValue_singleton, List.length_singleton,
        show '0'.toNat = 48 from rfl, Nat.toNat_digitChar_sub_48_of_lt_ten (Nat.mod_lt _ (by norm_num))]
      omega

/-- The digits of a positive number do not start with `0`. -/
theorem head_toDigits_ne_zero {n : ℕ} (hn : 0 < n) : (Nat.toDigits 10 n).head? ≠ some '0' := by
  induction n using Nat.strong_induction_on with
  | _ n ih =>
    rw [Nat.toDigits_eq_if (by norm_num)]
    split_ifs with h
    · simp only [List.head?_cons, ne_eq, Option.some.injEq, Nat.digitChar_eq_zero]
      omega
    · rw [List.head?_append_of_ne_nil _ Nat.toDigits_ne_nil]
      exact ih _ (by omega) (by omega)

theorem isDigit_toDigits {n : ℕ} : ∀ c ∈ Nat.toDigits 10 n, c.isDigit = true :=
  fun _ hc => Nat.isDigit_of_mem_toDigits (by norm_num) (by norm_num) hc

theorem toList_toString_nat (n : ℕ) : (toString n).toList = Nat.toDigits 10 n := by simp

theorem length_toString_nat (n : ℕ) : (toString n).length = (Nat.toDigits 10 n).length := by
  rw [← String.length_toList, toList_toString_nat]

theorem isDigit_of_mem_replicate {c : Char} {n : ℕ} (h : c ∈ List.replicate n '0') : c.isDigit = true := by
  rw [List.eq_of_mem_replicate h]
  rfl

theorem dot_not_mem_of_digits {l : List Char} (h : ∀ c ∈ l, c.isDigit = true) : '.' ∉ l :=
  fun hd => absurd (h '.' hd) (by decide)

/-- `M` has as many digits as the least power of ten above it. -/
theorem lt_ten_pow_length (M : ℕ) : M < 10 ^ (Nat.toDigits 10 M).length :=
  (Nat.length_toDigits_le_iff (by norm_num) Nat.length_toDigits_pos).1 le_rfl

theorem ten_pow_length_le {M : ℕ} (hM : 0 < M) : 10 ^ ((Nat.toDigits 10 M).length - 1) ≤ M := by
  by_contra hlt
  have hpos := @Nat.length_toDigits_pos 10 M
  rcases Nat.lt_or_ge 1 (Nat.toDigits 10 M).length with h1 | h1
  · have := (Nat.length_toDigits_le_iff (by norm_num) (by omega)).2 (not_le.1 hlt)
    omega
  · have : (Nat.toDigits 10 M).length - 1 = 0 := by omega
    rw [this] at hlt
    omega

/-! ### Point texts -/

/-- Digits around a point as a double's literal has them: decimal digits on both sides, at
least one after the point, and a whole part that is `0` or does not start with `0`. -/
structure PointText (whole frac : List Char) : Prop where
  whole_digits : ∀ c ∈ whole, c.isDigit = true
  frac_digits : ∀ c ∈ frac, c.isDigit = true
  whole_ne_nil : whole ≠ []
  frac_ne_nil : frac ≠ []
  lead : whole = ['0'] ∨ whole.head? ≠ some '0'

theorem ofList_ne_of_mem {l : List Char} {c : Char} {s : String} (h : c ∈ l) (hs : c ∉ s.toList) :
    String.ofList l ≠ s := by
  rintro rfl
  simp only [String.toList_ofList] at hs
  exact hs h

/-- A point text is no word: its point survives lowering the case. -/
theorem mem_map_toLower_point (whole frac : List Char) :
    '.' ∈ (whole ++ '.' :: frac).map Char.toLower :=
  List.mem_map.2 ⟨'.', by simp, rfl⟩

/-- **A point text reads as its digits over a power of ten.** -/
theorem readMagnitude_point {whole frac : List Char} (h : PointText whole frac) :
    readMagnitude (whole ++ '.' :: frac) =
      some (scientific (digitsValue (whole ++ frac)) (-(frac.length : ℤ))) := by
  have hdot := mem_map_toLower_point whole frac
  have hspan : spanDigits (whole ++ '.' :: frac) = (whole, '.' :: frac) := by
    simp [spanDigits, List.takeWhile_append_of_pos h.whole_digits,
      List.dropWhile_append_of_pos h.whole_digits]
  have hfrac : spanDigits frac = (frac, []) := by
    simp [spanDigits, List.takeWhile_eq_self_iff.2 h.frac_digits,
      List.dropWhile_eq_nil_iff.2 h.frac_digits]
  unfold readMagnitude
  rw [if_neg, if_neg]
  · simp only [hspan, hfrac, List.isEmpty_eq_false_iff.2 h.whole_ne_nil]
    simp [readExponent]
  · exact ofList_ne_of_mem hdot (by simp)
  · rintro (h | h) <;> exact ofList_ne_of_mem hdot (by simp) h

section PointTexts

variable {ds : List Char}

/-- Digits followed by zeros, then `.0`. -/
theorem pointText_zeros (hdig : ∀ c ∈ ds, c.isDigit = true) (hne : ds ≠ [])
    (hhead : ds.head? ≠ some '0') (n : ℕ) : PointText (ds ++ List.replicate n '0') ['0'] where
  whole_digits c hc := (List.mem_append.1 hc).elim (hdig c) isDigit_of_mem_replicate
  frac_digits := by simp
  whole_ne_nil := by simp [hne]
  frac_ne_nil := by simp
  lead := .inr (by rwa [List.head?_append_of_ne_nil _ hne])

/-- Digits with a point after the first `k` of them. -/
theorem pointText_take_drop (hdig : ∀ c ∈ ds, c.isDigit = true) (hhead : ds.head? ≠ some '0')
    {k : ℕ} (hk : 0 < k) (hlt : k < ds.length) : PointText (ds.take k) (ds.drop k) where
  whole_digits c hc := hdig c (List.mem_of_mem_take hc)
  frac_digits c hc := hdig c (List.mem_of_mem_drop hc)
  whole_ne_nil := List.ne_nil_of_length_pos (by simp; omega)
  frac_ne_nil := List.ne_nil_of_length_pos (by simp; omega)
  lead := .inr (by rwa [List.head?_take, if_neg (by omega)])

/-- `0.`, then zeros and the digits. -/
theorem pointText_leading_zeros (hdig : ∀ c ∈ ds, c.isDigit = true) (hne : ds ≠ []) (n : ℕ) :
    PointText ['0'] (List.replicate n '0' ++ ds) where
  whole_digits := by simp
  frac_digits c hc := (List.mem_append.1 hc).elim isDigit_of_mem_replicate (hdig c)
  whole_ne_nil := by simp
  frac_ne_nil := by simp [hne]
  lead := .inl rfl

end PointTexts

/-- **The literal layout of a positive decimal.** Its positional text, with `.0` added when it
has no point, is a point text whose digits over the power of ten of its fraction are the
decimal's value: trailing zeros and `.0` for a non-negative exponent, a point inside the digits
when they are longer than the fraction, and `0.` and leading zeros otherwise. -/
theorem Dec.exists_pointText (d : Dec) (hd : 0 < d.digits) :
    ∃ whole frac, PointText whole frac ∧
      (if '.' ∈ d.positional.toList then d.positional.toList else d.positional.toList ++ ['.', '0'])
        = whole ++ '.' :: frac ∧
      (digitsValue (whole ++ frac) : ℚ) / 10 ^ frac.length = d.value := by
  have hdig : ∀ c ∈ Nat.toDigits 10 d.digits, c.isDigit = true := isDigit_toDigits
  have hval := digitsValue_toDigits d.digits
  have hhead := head_toDigits_ne_zero hd
  have hne : Nat.toDigits 10 d.digits ≠ [] := Nat.toDigits_ne_nil
  unfold Dec.positional
  simp only [ge_iff_le, length_toString_nat, toList_toString_nat]
  set ds := Nat.toDigits 10 d.digits with hds
  rcases le_or_gt 0 d.exp with he | he
  · have ht := pointText_zeros hdig hne hhead d.exp.toNat
    refine ⟨_, _, ht, ?_, ?_⟩
    · simp only [if_pos he, String.toList_append, String.toList_ofList, toList_toString_nat]
      rw [if_neg (dot_not_mem_of_digits ht.whole_digits)]
    · rw [digitsValue_append, digitsValue_append, hval]
      simp only [digitsValue_replicate_zero, List.length_replicate, List.length_singleton,
        digitsValue_singleton, Dec.value]
      push_cast
      rw [← zpow_natCast, Int.toNat_of_nonneg he]
      simp
  · set p := (-d.exp).toNat with hp
    have hp0 : 0 < p := by omega
    have hexp : d.exp = -(p : ℤ) := by omega
    have hpow : (d.digits : ℚ) / 10 ^ p = d.value := by
      rw [Dec.value, hexp, zpow_neg, zpow_natCast, div_eq_mul_inv]
    rcases lt_or_ge p ds.length with hl | hl
    · refine ⟨_, _, pointText_take_drop hdig hhead (k := ds.length - p) (by omega) (by omega), ?_, ?_⟩
      · simp [if_neg (not_le.2 he), hl]
      · rw [List.take_append_drop, hval, List.length_drop, show ds.length - (ds.length - p) = p by omega]
        exact hpow
    · refine ⟨_, _, pointText_leading_zeros hdig hne (p - ds.length), ?_, ?_⟩
      · simp [if_neg (not_le.2 he), not_lt.2 hl]
        rfl
      · rw [digitsValue_append, digitsValue_append, digitsValue_replicate_zero, hval,
          List.length_append, List.length_replicate, show p - ds.length + ds.length = p by omega]
        simpa [digitsValue_singleton] using hpow

/-! ### The range of a double -/

/-- **The range guards of `scientific` never fire on the value of a double.** A decimal
`M · 10^-k` that rounds to a finite double lies between `2^-1075` and `2^1024`, far inside the
decimal exponents `-330 … 310` outside which `scientific` answers without computing. -/
theorem scientific_eq_ofScientific {x : Binary} (hx : x.Valid) {M k : ℕ} (hM : 0 < M)
    (hk : 0 < k) (hv : x.IsNearest (M / 10 ^ k)) :
    scientific M (-(k : ℤ)) = Float.ofScientific M true k := by
  set size := (Nat.toDigits 10 M).length with hsize
  have hten : (0 : ℚ) < 10 ^ k := by positivity
  -- the value is below `2^1024` and at least `2^-1075`
  have hhi : M < 2 ^ 1024 * 10 ^ k := by
    have h1 := hv.lt_two_zpow hx
    have h2 : (2 : ℚ) ^ ((53 : ℕ) + x.q) ≤ 2 ^ (1024 : ℤ) :=
      two_zpow_le_iff.2 (by have := hx.canonical.exp_le; omega)
    have h3 : (M : ℚ) < 2 ^ 1024 * 10 ^ k := by
      rw [← div_lt_iff₀ hten]
      exact h1.trans_le (by simpa using h2)
    exact_mod_cast h3
  have hlo : 10 ^ k ≤ M * 2 ^ 1075 := by
    have h1 := Binary.IsNearest.two_zpow_le hx hv
    rw [zpow_neg, zpow_ofNat, inv_eq_one_div, div_le_div_iff₀ (by positivity) hten,
      one_mul] at h1
    exact_mod_cast h1
  have hup := lt_ten_pow_length M
  have hdown := ten_pow_length_le hM
  unfold scientific
  rw [if_neg hM.ne', if_neg, if_neg, if_neg (by omega)]
  · congr 1
    omega
  · -- a value below `10^-331` would be below `2^-1075`
    intro h
    have hk' : size + 331 ≤ k := by omega
    have : M * 10 ^ 331 < M * 2 ^ 1075 := by
      calc M * 10 ^ 331 < 10 ^ size * 10 ^ 331 := Nat.mul_lt_mul_of_pos_right hup (by positivity)
        _ = 10 ^ (size + 331) := (pow_add _ _ _).symm
        _ ≤ 10 ^ k := Nat.pow_le_pow_right (by norm_num) hk'
        _ ≤ M * 2 ^ 1075 := hlo
    exact absurd (lt_of_mul_lt_mul_left' this) (by decide +kernel)
  · -- a value of at least `10^310` would be beyond `2^1024`
    intro h
    have hk' : k + 310 ≤ size - 1 := by omega
    have : 10 ^ k * 10 ^ 310 < 10 ^ k * 2 ^ 1024 := by
      calc 10 ^ k * 10 ^ 310 = 10 ^ (k + 310) := (pow_add _ _ _).symm
        _ ≤ 10 ^ (size - 1) := Nat.pow_le_pow_right (by norm_num) hk'
        _ ≤ M := hdown
        _ < 2 ^ 1024 * 10 ^ k := hhi
        _ = 10 ^ k * 2 ^ 1024 := mul_comm _ _
    exact absurd (lt_of_mul_lt_mul_left' this) (by decide +kernel)

/-! ### Reading back a literal -/

/-- The text of `literal` for a finite double: a sign, then the positional digits with `.0`
added when they have no point. -/
theorem literal_toList {x : Float} (hn : x.isNaN = false) (hi : x.isInf = false) :
    (literal x).toList = (if signBit x then ['-'] else []) ++
      (if '.' ∈ (ofFloat x).positional.toList then (ofFloat x).positional.toList
        else (ofFloat x).positional.toList ++ ['.', '0']) := by
  unfold literal display
  simp only [hn, hi, Bool.false_eq_true, if_false, Bool.false_or]
  cases signBit x <;> simp <;> split_ifs <;> simp

/-- A text that starts with a digit is read as a magnitude. -/
theorem readFloat?_of_digit {s : String} {c : Char} {cs : List Char} (hs : s.toList = c :: cs)
    (hc : c.isDigit = true) : readFloat? s = readMagnitude (c :: cs) := by
  unfold readFloat?
  rw [hs]
  split
  · rename_i h
    rw [(List.cons.inj h).1] at hc
    exact absurd hc (by decide)
  · rename_i h
    rw [(List.cons.inj h).1] at hc
    exact absurd hc (by decide)
  · rfl

/-- A text after a minus sign is read as a negated magnitude. -/
theorem readFloat?_of_minus {s : String} {cs : List Char} (hs : s.toList = '-' :: cs) :
    readFloat? s = (readMagnitude cs).map (fun x => -x) := by
  unfold readFloat?
  rw [hs]
  rfl

/-- A signed point text reads as its digits over a power of ten, negated after a `-`. -/
theorem readFloat?_signed {s : String} {neg : Bool} {whole frac : List Char}
    (h : PointText whole frac) (hs : s.toList = (if neg then ['-'] else []) ++ (whole ++ '.' :: frac)) :
    readFloat? s = some (if neg then -scientific (digitsValue (whole ++ frac)) (-(frac.length : ℤ))
      else scientific (digitsValue (whole ++ frac)) (-(frac.length : ℤ))) := by
  obtain ⟨c, w, rfl⟩ := List.exists_cons_of_ne_nil h.whole_ne_nil
  cases neg with
  | true =>
    have hs' : s.toList = '-' :: ((c :: w) ++ '.' :: frac) := by simpa using hs
    rw [readFloat?_of_minus hs', readMagnitude_point h]
    rfl
  | false =>
    simp only [Bool.false_eq_true, if_false, List.nil_append, List.cons_append] at hs
    rw [readFloat?_of_digit hs (h.whole_digits c (by simp)), ← List.cons_append,
      readMagnitude_point h]
    rfl

theorem pointText_zero : PointText ['0'] ['0'] := ⟨by simp, by simp, by simp, by simp, .inl rfl⟩

/-- The literal of a zero is `0.0`, signed. -/
theorem literal_toList_of_zero {x : Float} (hn : x.isNaN = false) (hi : x.isInf = false)
    (hm : (Binary.ofBits x.toBits).m = 0) :
    (literal x).toList = (if signBit x then ['-'] else []) ++ (['0'] ++ '.' :: ['0']) := by
  have hof : ofFloat x = ⟨0, 0⟩ := by simp [ofFloat, hm]
  have hpos : (Dec.positional ⟨0, 0⟩).toList = ['0'] := by simp [Dec.positional]
  rw [literal_toList hn hi, hof, hpos, if_neg (show '.' ∉ ['0'] by simp)]

/-- The literal of a finite nonzero double is a signed point text worth its shortest
decimal. -/
theorem literal_toList_of_pos {x : Float} (hn : x.isNaN = false) (hi : x.isInf = false)
    (hm : 0 < (Binary.ofBits x.toBits).m) :
    ∃ whole frac, PointText whole frac ∧
      (literal x).toList = (if signBit x then ['-'] else []) ++ (whole ++ '.' :: frac) ∧
      (digitsValue (whole ++ frac) : ℚ) / 10 ^ frac.length = (Binary.ofBits x.toBits).shortest.value := by
  have hv := Binary.valid_ofBits (⟨expField_ne_of_finite hn hi, hm⟩ : FiniteWord x.toBits)
  obtain ⟨whole, frac, hpt, htext, hval⟩ :=
    (Binary.ofBits x.toBits).shortest.exists_pointText (Binary.shortest_digits_pos hv)
  have hof : ofFloat x = (Binary.ofBits x.toBits).shortest := by simp [ofFloat, hm.ne']
  refine ⟨whole, frac, hpt, ?_, hval⟩
  rw [literal_toList hn hi, hof, htext]

/-- **The literal of a finite double is a signed point text.** -/
theorem literal_pointText {x : Float} (hn : x.isNaN = false) (hi : x.isInf = false) :
    ∃ whole frac, PointText whole frac ∧
      (literal x).toList = (if signBit x then ['-'] else []) ++ (whole ++ '.' :: frac) := by
  rcases Nat.eq_zero_or_pos (Binary.ofBits x.toBits).m with hm | hm
  · exact ⟨_, _, pointText_zero, literal_toList_of_zero hn hi hm⟩
  · obtain ⟨whole, frac, hpt, htext, -⟩ := literal_toList_of_pos hn hi hm
    exact ⟨whole, frac, hpt, htext⟩

/-- Zero and negative zero read back. -/
theorem readFloat?_literal_zero {x : Float} (hn : x.isNaN = false) (hi : x.isInf = false)
    (hm : (Binary.ofBits x.toBits).m = 0) : readFloat? (literal x) = some x := by
  rw [readFloat?_signed pointText_zero (literal_toList_of_zero hn hi hm)]
  rcases zero_cases hm with rfl | rfl
  · rfl
  · rfl

/-- A finite nonzero double reads back from its literal: the shortest decimal rounds to it, and
the reader rounds that decimal to nearest. -/
theorem readFloat?_literal_of_pos {x : Float} (hn : x.isNaN = false) (hi : x.isInf = false)
    (hm : 0 < (Binary.ofBits x.toBits).m) : readFloat? (literal x) = some x := by
  have hb : FiniteWord x.toBits := ⟨expField_ne_of_finite hn hi, hm⟩
  have hv := Binary.valid_ofBits hb
  obtain ⟨whole, frac, hpt, hlit, hval⟩ := literal_toList_of_pos hn hi hm
  have hnear := Binary.isNearest_shortest hv
  rw [← hval] at hnear
  have hk : 0 < frac.length := List.length_pos_of_ne_nil hpt.frac_ne_nil
  have hM : 0 < digitsValue (whole ++ frac) := by
    by_contra h
    rw [show digitsValue (whole ++ frac) = 0 by omega, Nat.cast_zero, zero_div] at hnear
    exact absurd (Binary.IsNearest.two_zpow_le hv hnear) (not_le.2 (by positivity))
  rw [readFloat?_signed hpt hlit, scientific_eq_ofScientific hv hM hk hnear,
    ofScientific_eq_of_isNearest hv hM hk hnear]
  -- the sign bit picks the packing of the sign
  have hx := eq_ofModel_pack hb
  rw [signOf_eq] at hx
  cases hs : signBit x with
  | true =>
    simp only [hs, if_true] at hx
    rw [if_pos rfl, neg_ofModel_pack hv.canonical]
    exact congrArg some hx.symm
  | false =>
    simp only [hs, Bool.false_eq_true, if_false] at hx
    rw [if_neg Bool.false_ne_true]
    exact congrArg some hx.symm

/-- **Every double reads back from its literal.** The shortest digits of a finite double lie
among the reals that round to it, and reading them rounds to nearest, so the literal gives the
double back, signed zeros included; `NaN`, `inf` and `-inf` are words the reader knows. -/
theorem readFloat?_literal (x : Float) : readFloat? (literal x) = some x := by
  by_cases hn : x.isNaN = true
  · rw [eq_nan hn]
    rfl
  by_cases hi : x.isInf = true
  · rcases inf_cases hi with rfl | rfl <;> rfl
  simp only [Bool.not_eq_true] at hn hi
  rcases Nat.eq_zero_or_pos (Binary.ofBits x.toBits).m with hm | hm
  · exact readFloat?_literal_zero hn hi hm
  · exact readFloat?_literal_of_pos hn hi hm

end Decimal
end Thumbnailer
