import Mathlib
import Thumbnailer.Proofs.Decimal.ReadBack
import Thumbnailer.Config.GeneratorFile

/-!
# Reading back what a configuration writer emits

A configuration is written as lines `key = value`, a bare key and the text of a value, and
perhaps a `[table]` header with more lines under it. The reader takes such a document back as
the fields it writes, for the value texts the writers use.

* Values (`Reads`): a number up to `2^64 - 1` (`reads_nat`), a boolean (`reads_bool`), the text
  of a double (`reads_float`: its literal passes the grammar of floats and reads back,
  `readFloatToken_floatText`), and a quoted name of plain characters (`reads_quoted`).
* Lines: a line `key = value` is read as one assignment (`readLines_line`), and lines of fresh
  keys add their fields to the current table in order, one unit of fuel each
  (`readLines_entries`).
* Documents: lines with distinct keys are parsed into their fields (`parse_entries`), and so
  are such lines followed by a header and the lines of its table (`parse_entries_table`).

What the configuration files need of a TOML library is that round trip for the fields they
write (`Library.ReadsBack`); the library of this project, its writer with this reader, has it
(`readsBack_library`).
-/

namespace Thumbnailer
namespace Config
namespace Toml

open Decimal

/-! ### Digits with underscores -/

theorem underscored_go_cons {ok : Char → Bool} {d : Char} (ds : List Char) (hd : d ≠ '_') :
    underscored.go ok (d :: ds) = if ok d then (d :: ·) <$> underscored.go ok ds else none := by
  rw [underscored.go]
  · intro _ h
    exact absurd h hd
  · exact hd

theorem underscored_go_eq {ok : Char → Bool} {ds : List Char} (h : ∀ c ∈ ds, ok c = true)
    (hu : '_' ∉ ds) : underscored.go ok ds = some ds := by
  induction ds with
  | nil => rfl
  | cons d ds ih =>
    have hd : d ≠ '_' := fun h' => hu (h' ▸ List.mem_cons_self ..)
    rw [underscored_go_cons ds hd, if_pos (h _ List.mem_cons_self),
      ih (fun c hc => h c (List.mem_cons_of_mem _ hc)) (fun h' => hu (List.mem_cons_of_mem _ h'))]
    rfl

theorem underscored_eq {ok : Char → Bool} {ds : List Char} (hne : ds ≠ []) (h : ∀ c ∈ ds, ok c = true)
    (hu : '_' ∉ ds) : underscored ok ds = some ds := by
  obtain ⟨c, cs, rfl⟩ := List.exists_cons_of_ne_nil hne
  have hlast : (c :: cs).getLast? ≠ some '_' := fun h' => hu (List.mem_of_getLast? h')
  unfold underscored
  simp only [h c List.mem_cons_self, Bool.not_true, Bool.false_or, hlast, decide_false,
    Bool.false_eq_true, if_false]
  exact underscored_go_eq h hu

/-- A character that is neither allowed nor an underscore stops the reading. -/
theorem underscored_go_eq_none {ok : Char → Bool} {ds : List Char} {c : Char} (hc : c ∈ ds)
    (hok : ok c = false) (hu : c ≠ '_') : underscored.go ok ds = none := by
  induction ds with
  | nil => exact absurd hc List.not_mem_nil
  | cons d ds ih =>
    by_cases hd : d = '_'
    · -- an underscore is skipped, or a doubled one fails at once
      subst hd
      have hc' : c ∈ ds := (List.mem_cons.1 hc).resolve_left hu
      obtain ⟨d', ds', rfl⟩ := List.exists_cons_of_ne_nil (List.ne_nil_of_mem hc')
      by_cases hd' : d' = '_'
      · subst hd'
        rw [underscored.go]
      · rw [underscored.go, ih hc']
        intro _ h
        exact hd' (List.cons.inj h).1
    · rw [underscored_go_cons ds hd]
      split
      · rename_i hok'
        rcases List.mem_cons.1 hc with rfl | hc
        · rw [hok] at hok'
          exact absurd hok' Bool.false_ne_true
        · rw [ih hc]
          rfl
      · rfl

theorem underscored_eq_none {ok : Char → Bool} {ds : List Char} {c : Char} (hc : c ∈ ds)
    (hok : ok c = false) (hu : c ≠ '_') : underscored ok ds = none := by
  unfold underscored
  split
  · rfl
  · split
    · rfl
    · exact underscored_go_eq_none hc hok hu

theorem underscore_not_mem_of_digits {ds : List Char} (h : ∀ c ∈ ds, c.isDigit = true) :
    '_' ∉ ds :=
  fun hu => absurd (h '_' hu) (by decide)

theorem decimalPart_eq {ds : List Char} (hne : ds ≠ []) (h : ∀ c ∈ ds, c.isDigit = true)
    (hlead : ds.length ≤ 1 ∨ ds.head? ≠ some '0') : decimalPart ds = some ds := by
  unfold decimalPart
  rw [underscored_eq hne h (underscore_not_mem_of_digits h)]
  have : (decide (ds.length > 1) && decide (ds.head? = some '0')) = false := by
    rcases hlead with hl | hl <;> simp [hl]
  simp only [Option.bind_eq_bind, Option.bind_some, this, Bool.false_eq_true, if_false]
  rfl

/-! ### Integers -/

/-- The decimal digits of a number up to `2^64 - 1` read back as an integer. -/
theorem readInt_toDigits {n : ℕ} (hn : n < 2 ^ 64) : readInt (Nat.toDigits 10 n) = some n := by
  have hdig : ∀ c ∈ Nat.toDigits 10 n, c.isDigit = true := isDigit_toDigits
  have hlead : (Nat.toDigits 10 n).length ≤ 1 ∨ (Nat.toDigits 10 n).head? ≠ some '0' := by
    rcases Nat.eq_zero_or_pos n with rfl | hpos
    · exact .inl (by simp [Nat.toDigits_zero])
    · exact .inr (head_toDigits_ne_zero hpos)
  have hno : ∀ c ∈ Nat.toDigits 10 n, c ∉ ['x', 'o', 'b', '+', '-'] := by
    intro c hc hbad
    have := hdig c hc
    simp only [List.mem_cons, List.not_mem_nil, or_false] at hbad
    rcases hbad with rfl | rfl | rfl | rfl | rfl <;> exact absurd this (by decide)
  unfold readInt
  split
  · rename_i ds h
    exact absurd (by simp) (hno 'x' (h ▸ by simp))
  · rename_i ds h
    exact absurd (by simp) (hno 'o' (h ▸ by simp))
  · rename_i ds h
    exact absurd (by simp) (hno 'b' (h ▸ by simp))
  · rename_i ds h
    exact absurd (by simp) (hno '+' (h ▸ by simp))
  · rename_i ds h
    exact absurd (by simp) (hno '-' (h ▸ by simp))
  · rw [decimalPart_eq Nat.toDigits_ne_nil hdig hlead]
    simp [intInRange, digitsValue_toDigits]
    omega

/-! ### Floats -/

/-- A number token with a point is no integer. -/
theorem readInt_point {neg : Bool} {whole frac : List Char} (h : PointText whole frac) :
    readInt ((if neg then ['-'] else []) ++ (whole ++ '.' :: frac)) = none := by
  have hdot : '.' ∈ whole ++ '.' :: frac := by simp
  have hpart : decimalPart (whole ++ '.' :: frac) = none := by
    unfold decimalPart
    rw [underscored_eq_none hdot (by decide) (by decide)]
    rfl
  have hchars : ∀ c ∈ whole ++ '.' :: frac, c.isDigit = true ∨ c = '.' := by
    intro c hc
    rcases List.mem_append.1 hc with hc | hc
    · exact .inl (h.whole_digits c hc)
    · rcases List.mem_cons.1 hc with rfl | hc
      · exact .inr rfl
      · exact .inl (h.frac_digits c hc)
  have hno : ∀ c ∈ whole ++ '.' :: frac, c ∉ ['x', 'o', 'b', '+', '-'] := by
    intro c hc hbad
    simp only [List.mem_cons, List.not_mem_nil, or_false] at hbad
    rcases hchars c hc with hd | rfl
    · rcases hbad with rfl | rfl | rfl | rfl | rfl <;> exact absurd hd (by decide)
    · rcases hbad with h | h | h | h | h <;> exact absurd h (by decide)
  cases neg with
  | true =>
    unfold readInt
    simp only [if_true, List.singleton_append]
    rw [hpart]
    rfl
  | false =>
    simp only [Bool.false_eq_true, if_false, List.nil_append]
    unfold readInt
    split
    · rename_i ds hds
      exact absurd (by simp) (hno 'x' (hds ▸ by simp))
    · rename_i ds hds
      exact absurd (by simp) (hno 'o' (hds ▸ by simp))
    · rename_i ds hds
      exact absurd (by simp) (hno 'b' (hds ▸ by simp))
    · rename_i ds hds
      exact absurd (by simp) (hno '+' (hds ▸ by simp))
    · rename_i ds hds
      exact absurd (by simp) (hno '-' (hds ▸ by simp))
    · rw [hpart]
      rfl

theorem isDigit_cases {c : Char} (h : c.isDigit = true) :
    c = '0' ∨ c = '1' ∨ c = '2' ∨ c = '3' ∨ c = '4' ∨ c = '5' ∨ c = '6' ∨ c = '7' ∨ c = '8' ∨
      c = '9' := by
  have hv := Char.isDigit_iff_toNat.1 h
  rw [← Char.ofNat_toNat c]
  generalize c.toNat = n at hv
  simp only [show '0'.toNat = 48 from rfl, show '9'.toNat = 57 from rfl] at hv
  obtain ⟨h1, h2⟩ := hv
  interval_cases n <;> decide

/-- A token that starts with a digit is read as one with a `+` sign. -/
theorem readFloatToken_digit {c : Char} (cs : List Char) (hc : c.isDigit = true) :
    readFloatToken (c :: cs) = readFloatToken ('+' :: c :: cs) := by
  rcases isDigit_cases hc with rfl | rfl | rfl | rfl | rfl | rfl | rfl | rfl | rfl | rfl <;> rfl

/-- A point text after a sign passes the grammar of floats and is read as a decimal. -/
theorem readFloatToken_sign_point {sgn : Char} {sign : String}
    (hs : (sgn = '+' ∧ sign = "") ∨ (sgn = '-' ∧ sign = "-")) {whole frac : List Char}
    (h : PointText whole frac) :
    readFloatToken (sgn :: (whole ++ '.' :: frac)) =
      readFloat? (sign ++ String.ofList (whole ++ '.' :: frac)) := by
  have hint : List.takeWhile (fun c => c.isDigit || decide (c = '_')) (whole ++ '.' :: frac) =
      whole := by
    rw [List.takeWhile_append_of_pos (fun c hc => by simp [h.whole_digits c hc])]
    simp
  have hfrac : List.takeWhile (fun c => c.isDigit || decide (c = '_')) frac = frac :=
    List.takeWhile_eq_self_iff.2 (fun c hc => by simp [h.frac_digits c hc])
  have hdrop : List.drop whole.length (whole ++ '.' :: frac) = '.' :: frac := List.drop_left
  have hwhole : decimalPart whole = some whole :=
    decimalPart_eq h.whole_ne_nil h.whole_digits (h.lead.imp (fun h => by simp [h]) id)
  have hfr : underscored Char.isDigit frac = some frac :=
    underscored_eq h.frac_ne_nil h.frac_digits (underscore_not_mem_of_digits h.frac_digits)
  have hkeep : ∀ l : List Char, (∀ c ∈ l, c.isDigit = true) →
      l.filter (fun x => !decide (x = '_')) = l := by
    intro l hl
    rw [List.filter_eq_self]
    intro c hc
    have : c ≠ '_' := fun he => underscore_not_mem_of_digits hl (he ▸ hc)
    simp [this]
  have hdot : '.' ∈ whole ++ '.' :: frac := by simp
  rcases hs with ⟨rfl, rfl⟩ | ⟨rfl, rfl⟩
  all_goals
    simp only [readFloatToken]
    split
    · rename_i heq
      exact absurd (heq ▸ hdot) (by decide)
    · rename_i heq
      exact absurd (heq ▸ hdot) (by decide)
    · simp [hint, hfrac, hdrop, hwhole, hfr, hkeep whole h.whole_digits,
        hkeep frac h.frac_digits]

/-- **A signed point text is read as the decimal it writes.** -/
theorem readFloatToken_point {neg : Bool} {whole frac : List Char} (h : PointText whole frac) :
    readFloatToken ((if neg then ['-'] else []) ++ (whole ++ '.' :: frac)) =
      readFloat? (String.ofList ((if neg then ['-'] else []) ++ (whole ++ '.' :: frac))) := by
  cases neg with
  | true =>
    rw [if_pos rfl, List.singleton_append, readFloatToken_sign_point (.inr ⟨rfl, rfl⟩) h]
    congr 1
    simp
  | false =>
    obtain ⟨c, w, rfl⟩ := List.exists_cons_of_ne_nil h.whole_ne_nil
    simp only [Bool.false_eq_true, if_false, List.nil_append, List.cons_append]
    rw [readFloatToken_digit _ (h.whole_digits c List.mem_cons_self), ← List.cons_append,
      readFloatToken_sign_point (.inl ⟨rfl, rfl⟩) h]
    simp

/-- **The text of every double reads back as it.** Finite doubles are written as their
literal, which passes the grammar of floats and reads back; `nan`, `inf` and `-inf` are words. -/
theorem readFloatToken_floatText (x : Float) : readFloatToken (floatText x).toList = some x := by
  by_cases hn : x.isNaN = true
  · rw [eq_nan hn]
    rfl
  by_cases hi : x.isInf = true
  · rcases inf_cases hi with rfl | rfl <;> rfl
  simp only [Bool.not_eq_true] at hn hi
  obtain ⟨whole, frac, hpt, hlit⟩ := literal_pointText hn hi
  have htext : floatText x = literal x := by
    simp only [floatText, hn, hi, Bool.false_eq_true, if_false]
  rw [htext, hlit, readFloatToken_point hpt, ← hlit, String.ofList_toList]
  exact readFloat?_literal x

/-! ### Values up to the line end -/

/-- A value text the reader takes back as `v`, up to the line end after it. -/
structure Reads (text : String) (v : Value) : Prop where
  head : ∀ c ∈ text.toList.head?, isSpace c = false
  read : ∀ n rest, readValue (n + 1) (text.toList ++ '\n' :: rest) = some (v, '\n' :: rest)

theorem readValue_token {c : Char} (cs : List Char) (n : ℕ) (hc : isTokenChar c = true) :
    readValue (n + 1) (c :: cs) = readScalar (c :: cs) := by
  rw [readValue]
  all_goals
    intro _ h
    rw [(List.cons.inj h).1] at hc
    exact absurd hc (by decide)

theorem isSpace_of_isTokenChar {c : Char} (hc : isTokenChar c = true) : isSpace c = false := by
  by_contra h
  simp only [isSpace, Bool.not_eq_false, Bool.or_eq_true, decide_eq_true_eq] at h
  rcases h with rfl | rfl <;> exact absurd hc (by decide)

theorem takeWhile_token {t : List Char} (rest : List Char) (htok : ∀ c ∈ t, isTokenChar c = true) :
    (t ++ '\n' :: rest).takeWhile isTokenChar = t := by
  rw [List.takeWhile_append_of_pos htok]
  simp [isTokenChar]

/-- An integer token followed by a line end. -/
theorem readScalar_int {t : List Char} (rest : List Char) (ht : t ≠ [])
    (htok : ∀ c ∈ t, isTokenChar c = true) (hb : t ≠ ['t', 'r', 'u', 'e'] ∧ t ≠ ['f', 'a', 'l', 's', 'e'])
    {i : Int} (hi : readInt t = some i) :
    readScalar (t ++ '\n' :: rest) = some (.int i, '\n' :: rest) := by
  simp only [readScalar, takeWhile_token rest htok, List.drop_left, List.isEmpty_eq_false_iff.2 ht,
    Bool.false_eq_true, if_false, if_neg hb.1, if_neg hb.2, hi]

/-- A float token followed by a line end. -/
theorem readScalar_float {t : List Char} (rest : List Char) (ht : t ≠ [])
    (htok : ∀ c ∈ t, isTokenChar c = true) (hb : t ≠ ['t', 'r', 'u', 'e'] ∧ t ≠ ['f', 'a', 'l', 's', 'e'])
    (hi : readInt t = none) {x : Float} (hx : readFloatToken t = some x) :
    readScalar (t ++ '\n' :: rest) = some (.float x, '\n' :: rest) := by
  simp only [readScalar, takeWhile_token rest htok, List.drop_left, List.isEmpty_eq_false_iff.2 ht,
    Bool.false_eq_true, if_false, if_neg hb.1, if_neg hb.2, hi, hx, Option.map_some]

/-- A token made of token characters is a scalar value. -/
theorem reads_token {t : String} {v : Value} (ht : t.toList ≠ [])
    (htok : ∀ c ∈ t.toList, isTokenChar c = true)
    (hv : ∀ rest, readScalar (t.toList ++ '\n' :: rest) = some (v, '\n' :: rest)) :
    Reads t v := by
  obtain ⟨c, cs, hcs⟩ := List.exists_cons_of_ne_nil ht
  have hc := htok c (hcs ▸ List.mem_cons_self)
  refine ⟨?_, fun n rest => ?_⟩
  · intro d hd
    rw [hcs, List.head?_cons, Option.mem_some_iff] at hd
    exact hd ▸ isSpace_of_isTokenChar hc
  · rw [hcs, List.cons_append, readValue_token _ _ hc, ← List.cons_append, ← hcs]
    exact hv rest

theorem isTokenChar_of_isDigit {c : Char} (h : c.isDigit = true) : isTokenChar c = true := by
  simp [isTokenChar, Char.isAlphanum, h]

/-- A text of token characters other than the letters of `true` is no boolean. -/
theorem ne_bools_of_mem {t : List Char} {c : Char} (hc : c ∈ t) (ht : c ∉ ['t', 'r', 'u', 'e'])
    (hf : c ∉ ['f', 'a', 'l', 's', 'e']) : t ≠ ['t', 'r', 'u', 'e'] ∧ t ≠ ['f', 'a', 'l', 's', 'e'] :=
  ⟨fun h => ht (h ▸ hc), fun h => hf (h ▸ hc)⟩

/-- **A number up to `2^64 - 1` is written so that it reads back.** -/
theorem reads_nat {n : ℕ} (hn : n < 2 ^ 64) : Reads (toString n) (.int n) := by
  have hdig : ∀ c ∈ (toString n).toList, c.isDigit = true := by
    rw [toList_toString_nat]
    exact isDigit_toDigits
  have hne : (toString n).toList ≠ [] := by simp
  obtain ⟨c, hc⟩ := List.exists_mem_of_ne_nil _ hne
  have hb : c ∉ ['t', 'r', 'u', 'e'] ∧ c ∉ ['f', 'a', 'l', 's', 'e'] := by
    have := hdig c hc
    constructor <;> intro h <;> simp only [List.mem_cons, List.not_mem_nil, or_false] at h <;>
      rcases h with rfl | rfl | rfl | rfl | rfl <;> exact absurd this (by decide)
  refine reads_token hne (fun c hc => isTokenChar_of_isDigit (hdig c hc)) fun rest => ?_
  refine readScalar_int rest hne (fun c hc => isTokenChar_of_isDigit (hdig c hc))
    (ne_bools_of_mem hc hb.1 hb.2) ?_
  rw [toList_toString_nat, readInt_toDigits hn]
  rfl

/-- Booleans are written as `true` and `false`. -/
theorem reads_bool (b : Bool) : Reads (toString b) (.bool b) := by
  have htext : (toString b).toList = if b then ['t', 'r', 'u', 'e'] else ['f', 'a', 'l', 's', 'e'] := by
    cases b <;> rfl
  have htok : ∀ c ∈ (toString b).toList, isTokenChar c = true := by
    intro c hc
    rw [htext] at hc
    cases b <;> simp only [Bool.false_eq_true, if_false, if_true, List.mem_cons, List.not_mem_nil,
      or_false] at hc <;> rcases hc with rfl | rfl | rfl | rfl | rfl <;> rfl
  refine reads_token (by cases b <;> simp [htext]) htok fun rest => ?_
  simp only [readScalar, takeWhile_token rest htok, List.drop_left]
  cases b <;> simp [htext]

/-- The text of a double is a word or a signed point text. -/
theorem floatText_toList (x : Float) :
    (floatText x).toList = ['n', 'a', 'n'] ∨ (floatText x).toList = ['i', 'n', 'f'] ∨
      (floatText x).toList = ['-', 'i', 'n', 'f'] ∨
      ∃ (neg : Bool) (whole frac : List Char), PointText whole frac ∧
        (floatText x).toList = (if neg then ['-'] else []) ++ (whole ++ '.' :: frac) := by
  unfold floatText
  by_cases hn : x.isNaN = true
  · exact .inl (by rw [if_pos hn]; rfl)
  by_cases hi : x.isInf = true
  · rw [if_neg hn, if_pos hi]
    split
    · exact .inr (.inr (.inl rfl))
    · exact .inr (.inl rfl)
  rw [if_neg hn, if_neg hi]
  simp only [Bool.not_eq_true] at hn hi
  obtain ⟨whole, frac, hpt, hlit⟩ := literal_pointText hn hi
  exact .inr (.inr (.inr ⟨_, whole, frac, hpt, hlit⟩))

theorem isTokenChar_of_pointText {neg : Bool} {whole frac : List Char} (h : PointText whole frac) :
    ∀ c ∈ (if neg then ['-'] else []) ++ (whole ++ '.' :: frac), isTokenChar c = true := by
  intro c hc
  rcases List.mem_append.1 hc with hc | hc
  · cases neg <;> simp at hc
    rw [hc]
    rfl
  rcases List.mem_append.1 hc with hc | hc
  · exact isTokenChar_of_isDigit (h.whole_digits c hc)
  rcases List.mem_cons.1 hc with rfl | hc
  · rfl
  · exact isTokenChar_of_isDigit (h.frac_digits c hc)

/-- A word of letters is made of token characters and read as a float, never an integer. -/
theorem readScalar_word {t : List Char} (rest : List Char) (hw : t = ['n', 'a', 'n'] ∨
    t = ['i', 'n', 'f'] ∨ t = ['-', 'i', 'n', 'f']) {x : Float} (hx : readFloatToken t = some x) :
    (∀ c ∈ t, isTokenChar c = true) ∧ readScalar (t ++ '\n' :: rest) = some (.float x, '\n' :: rest) := by
  have htok : ∀ c ∈ t, isTokenChar c = true := by
    intro c hc
    rcases hw with rfl | rfl | rfl <;> simp only [List.mem_cons, List.not_mem_nil, or_false] at hc <;>
      rcases hc with rfl | rfl | rfl | rfl <;> rfl
  refine ⟨htok, readScalar_float rest ?_ htok ?_ ?_ hx⟩ <;> rcases hw with rfl | rfl | rfl <;> decide

/-- **Every double is written so that it reads back as a float.** -/
theorem reads_float (x : Float) : Reads (floatText x) (.float x) := by
  have hx := readFloatToken_floatText x
  rcases floatText_toList x with h | h | h | ⟨neg, whole, frac, hpt, h⟩
  · rw [h] at hx
    have hw := fun rest => readScalar_word rest (.inl rfl) hx
    exact reads_token (by simp [h]) (h ▸ (hw []).1) fun rest => h ▸ (hw rest).2
  · rw [h] at hx
    have hw := fun rest => readScalar_word rest (.inr (.inl rfl)) hx
    exact reads_token (by simp [h]) (h ▸ (hw []).1) fun rest => h ▸ (hw rest).2
  · rw [h] at hx
    have hw := fun rest => readScalar_word rest (.inr (.inr rfl)) hx
    exact reads_token (by simp [h]) (h ▸ (hw []).1) fun rest => h ▸ (hw rest).2
  · -- a literal: digits around a point, perhaps after a minus sign
    rw [h] at hx
    have htok := @isTokenChar_of_pointText neg whole frac hpt
    have hdot : '.' ∈ (if neg then ['-'] else []) ++ (whole ++ '.' :: frac) := by simp
    refine reads_token (by simp [h]) (h ▸ htok) fun rest => h ▸ ?_
    exact readScalar_float rest (List.ne_nil_of_mem hdot) htok
      (ne_bools_of_mem hdot (by decide) (by decide)) (readInt_point hpt) hx

/-! ### Quoted names -/

/-- A character a basic string holds as it is: no quote, backslash or control character. -/
def PlainChar (c : Char) : Prop := c ≠ '"' ∧ c ≠ '\\' ∧ isControl c = false

theorem basicBody_plain {s : List Char} (hs : ∀ c ∈ s, PlainChar c) (acc : String)
    (r : List Char) (fuel : ℕ) (hf : s.length < fuel) :
    basicBody fuel acc (s ++ '"' :: r) = some (acc ++ String.ofList s, r) := by
  induction s generalizing acc fuel with
  | nil =>
    obtain ⟨f, rfl⟩ := Nat.exists_eq_add_of_lt hf
    rw [List.nil_append, basicBody]
    simp
  | cons c s ih =>
    obtain ⟨f, rfl⟩ := Nat.exists_eq_add_of_lt hf
    obtain ⟨hq, hb, hctl⟩ := hs c List.mem_cons_self
    rw [List.cons_append, basicBody, if_neg (by simp [hctl]),
      ih (fun d hd => hs d (List.mem_cons_of_mem _ hd)) _ _ (by simp; omega)]
    · congr 2
      simp [← String.toList_inj]
    · exact hq
    · intro _ _ h
      exact absurd h hb

theorem readString_plain {s : List Char} (hs : ∀ c ∈ s, PlainChar c) (r : List Char)
    (hr : r.head? ≠ some '"') :
    readString ('"' :: (s ++ '"' :: r)) = some (String.ofList s, r) := by
  rw [readString, basicBody_plain hs _ _ _ (by simp), String.empty_append]
  intro rest h
  cases s with
  | nil =>
    simp only [List.nil_append, List.cons.injEq, true_and] at h
    exact hr (by simp [h])
  | cons c s =>
    simp only [List.cons_append, List.cons.injEq] at h
    exact (hs c List.mem_cons_self).1 h.1

/-- **A name of plain characters is written in quotes and read back.** -/
theorem reads_quoted {s : String} (hs : ∀ c ∈ s.toList, PlainChar c) :
    Reads ("\"" ++ s ++ "\"") (.str s) := by
  have htext : ("\"" ++ s ++ "\"").toList = '"' :: (s.toList ++ ['"']) := by simp
  refine ⟨by simp [htext, isSpace], fun n rest => ?_⟩
  rw [htext, List.cons_append, List.append_assoc, List.singleton_append, readValue]
  simp [readString_plain hs ('\n' :: rest) (by simp)]

/-! ### Lines -/

/-- A key written bare: not empty, of letters, digits, `_` and `-`. -/
structure BareKey (k : String) : Prop where
  ne_nil : k.toList ≠ []
  chars : ∀ c ∈ k.toList, isBareKeyChar c = true

theorem skipSpaces_of_head {cs : List Char} (h : ∀ c ∈ cs.head?, isSpace c = false) :
    skipSpaces cs = cs := by
  cases cs with
  | nil => rfl
  | cons c cs =>
    have hc := h c rfl
    simp [skipSpaces, hc]

theorem isSpace_of_isBareKeyChar {c : Char} (hc : isBareKeyChar c = true) : isSpace c = false := by
  by_contra h
  simp only [isSpace, Bool.not_eq_false, Bool.or_eq_true, decide_eq_true_eq] at h
  rcases h with rfl | rfl <;> exact absurd hc (by decide)

theorem readSimpleKey_bare {k : String} (hk : BareKey k) {r : List Char}
    (hr : ∀ c ∈ r.head?, isBareKeyChar c = false) :
    readSimpleKey (k.toList ++ r) = some (k, r) := by
  obtain ⟨c, cs, hcs⟩ := List.exists_cons_of_ne_nil hk.ne_nil
  have hc := hk.chars c (hcs ▸ List.mem_cons_self)
  have htake : (k.toList ++ r).takeWhile isBareKeyChar = k.toList := by
    rw [List.takeWhile_append_of_pos hk.chars]
    cases r with
    | nil => simp
    | cons d r => simp [hr d rfl]
  rw [hcs, List.cons_append, readSimpleKey]
  · rw [← List.cons_append, ← hcs, htake, List.drop_left, String.ofList_toList]
    simp [hk.ne_nil]
  all_goals
    intro _ h
    rw [(List.cons.inj h).1] at hc
    exact absurd hc (by decide)

theorem readKey_bare {k : String} (hk : BareKey k) {r : List Char} (n : ℕ)
    (hr : ∀ c ∈ r.head?, isBareKeyChar c = false) (hdot : (skipSpaces r).head? ≠ some '.') :
    readKey (n + 1) (k.toList ++ r) = some ([k], r) := by
  rw [readKey]
  simp only [readSimpleKey_bare hk hr, Option.bind_eq_bind, Option.bind_some]
  split
  · rename_i more h
    exact absurd (by rw [h]; rfl) hdot
  · rfl

theorem endOfLine_newline (rest : List Char) : endOfLine ('\n' :: rest) = some rest := rfl

/-- **A line `key = value` is read as an assignment, and the lines after it follow.** -/
theorem readLines_line {k text : String} {v : Value} (hk : BareKey k) (hv : Reads text v)
    (d : Doc) (rest : List Char) (n : ℕ) :
    readLines (n + 1) d ((line k text).toList ++ rest) =
      (assign d [k] v).bind fun d' => readLines n d' rest := by
  obtain ⟨c, cs, hcs⟩ := List.exists_cons_of_ne_nil hk.ne_nil
  have hc := hk.chars c (hcs ▸ List.mem_cons_self)
  have htext : (line k text).toList ++ rest =
      k.toList ++ ' ' :: '=' :: ' ' :: (text.toList ++ '\n' :: rest) := by
    simp [line]
  have hskip : skipSpaces ((line k text).toList ++ rest) = (line k text).toList ++ rest := by
    rw [htext, hcs]
    exact skipSpaces_of_head (by simpa using isSpace_of_isBareKeyChar hc)
  have hsp : skipSpaces (' ' :: '=' :: ' ' :: (text.toList ++ '\n' :: rest)) =
      '=' :: ' ' :: (text.toList ++ '\n' :: rest) := rfl
  have hkey := @readKey_bare k hk (' ' :: '=' :: ' ' :: (text.toList ++ '\n' :: rest))
    ((line k text).toList ++ rest).length (by simp; decide) (by rw [hsp]; simp)
  have hval : skipSpaces (' ' :: (text.toList ++ '\n' :: rest)) = text.toList ++ '\n' :: rest := by
    show skipSpaces (text.toList ++ '\n' :: rest) = _
    apply skipSpaces_of_head
    cases htl : text.toList with
    | nil => simp [isSpace]
    | cons t ts => simpa [htl] using hv.head t (by simp [htl])
  have hhead : ((line k text).toList ++ rest).head? = some c := by rw [htext, hcs]; rfl
  have hbad : ∀ d ∈ ['#', '\n', '\r', '['], c ≠ d := by
    intro d hd h
    subst h
    simp only [List.mem_cons, List.not_mem_nil, or_false] at hd
    rcases hd with rfl | rfl | rfl | rfl <;> exact absurd hc (by decide)
  rw [readLines, hskip]
  split
  · rename_i heq
    rw [heq] at hhead
    exact absurd hhead (by simp)
  · rename_i heq
    rw [heq] at hhead
    exact absurd (Option.some.inj hhead).symm (hbad '#' (by simp))
  · rename_i heq
    rw [heq] at hhead
    exact absurd (Option.some.inj hhead).symm (hbad '\n' (by simp))
  · rename_i heq
    rw [heq] at hhead
    exact absurd (Option.some.inj hhead).symm (hbad '\r' (by simp))
  · rename_i heq
    rw [heq] at hhead
    exact absurd (Option.some.inj hhead).symm (hbad '[' (by simp))
  · rename_i heq
    rw [heq] at hhead
    exact absurd (Option.some.inj hhead).symm (hbad '[' (by simp))
  · rw [← htext] at hkey
    rw [hkey]
    simp only [Option.bind_eq_bind, Option.bind_some, hsp, hval, hv.read, endOfLine_newline]

/-! ### Documents -/

theorem lookup_eq_none_of_not_mem {F : List (String × Value)} {k : String} (h : k ∉ F.map Prod.fst) :
    F.lookup k = none := by
  rw [List.lookup_eq_none_iff]
  intro p hp
  have : k ≠ p.1 := fun he => h (he ▸ List.mem_map_of_mem hp)
  simpa using this

theorem length_prefixes (p : List String) : (prefixes p).length = p.length := by
  simp [prefixes]

/-- Assigning a value that is not a table, while no table is closed, only inserts it. -/
theorem assign_plain {d : Doc} (hclosed : d.closed = []) {v : Value} (hv : ∀ fs, v ≠ .table fs)
    (k : String) :
    assign d [k] v = (insertAt (d.current ++ [k]) v d.root).map fun root => { d with root } := by
  have hmade : ((prefixes (d.current ++ [k])).drop d.current.length).dropLast = [] := by
    rw [← List.length_eq_zero_iff, List.length_dropLast, List.length_drop, length_prefixes]
    simp
  unfold assign
  cases v with
  | table fs => exact absurd rfl (hv fs)
  | _ =>
    simp [hclosed, hmade]
    cases insertAt (d.current ++ [k]) _ d.root <;> rfl

theorem insertAt_root {F : List (String × Value)} {k : String} (h : F.lookup k = none) (v : Value) :
    insertAt [k] v F = some (F ++ [(k, v)]) := by
  simp [insertAt, h]

/-- A fresh key goes into the table that ends the root. -/
theorem insertAt_last_table {R F : List (String × Value)} {t k : String} (hR : R.lookup t = none)
    (hF : F.lookup k = none) (v : Value) :
    insertAt [t, k] v (R ++ [(t, .table F)]) = some (R ++ [(t, .table (F ++ [(k, v)]))]) := by
  have hlook : (R ++ [(t, Value.table F)]).lookup t = some (.table F) := by
    simp [List.lookup_append, hR]
  have hkeep : ∀ p ∈ R, p.1 ≠ t := by
    intro p hp he
    have := List.lookup_eq_none_iff.1 hR p hp
    simp [he] at this
  rw [insertAt, hlook]
  · simp only [insertAt_root hF, Option.bind_eq_bind, Option.bind_some, List.map_append,
      List.map_cons, List.map_nil]
    congr 2
    refine (List.map_congr_left fun p hp => ?_).trans (List.map_id R)
    rw [if_neg (hkeep p hp)]
    rfl
  · simp

/-- A line a writer emits: the key, the text of its value, and the value it stands for. -/
structure Entry where
  key : String
  text : String
  value : Value

namespace Entry

/-- The lines of entries, one after another. -/
def chars (es : List Entry) : List Char := es.flatMap fun e => (line e.key e.text).toList

/-- The fields the lines of entries set. -/
def fields (es : List Entry) : List (String × Value) := es.map fun e => (e.key, e.value)

/-- An entry written as a line the reader takes back. -/
structure Sound (e : Entry) : Prop where
  key : BareKey e.key
  reads : Reads e.text e.value
  plain : ∀ fs, e.value ≠ .table fs

end Entry

/-- **Lines of fresh keys add their fields to the current table, in order.** The current table
sits in the root as `place` says; each line is read by `readLines_line` and inserted by
`assign_plain`, with one unit of fuel. -/
theorem readLines_entries {p : List String} {place : List (String × Value) → List (String × Value)}
    (hplace : ∀ F k v, F.lookup k = none → (∀ fs, v ≠ .table fs) →
      insertAt (p ++ [k]) v (place F) = some (place (F ++ [(k, v)])))
    (rest : List Char) :
    ∀ (es : List Entry) (F : List (String × Value)) (d : Doc) (n : ℕ),
      (∀ e ∈ es, e.Sound) → (F.map Prod.fst ++ es.map Entry.key).Nodup →
      d.current = p → d.closed = [] → d.root = place F → (Entry.chars es ++ rest).length < n →
      ∃ m, rest.length < m ∧
        readLines n d (Entry.chars es ++ rest) =
          readLines m { d with root := place (F ++ Entry.fields es) } rest
  | [], F, d, n, _, _, _, _, hroot, hn => by
    refine ⟨n, by simpa [Entry.chars] using hn, ?_⟩
    rw [Entry.chars, List.flatMap_nil, List.nil_append, Entry.fields, List.map_nil, List.append_nil,
      ← hroot]
  | e :: es, F, d, n, hes, hkeys, hcur, hclosed, hroot, hn => by
    have he := hes e List.mem_cons_self
    have hfresh : F.lookup e.key = none := by
      apply lookup_eq_none_of_not_mem
      intro hmem
      have := List.nodup_append.1 hkeys
      exact this.2.2 _ hmem _ List.mem_cons_self rfl
    have hchars : Entry.chars (e :: es) ++ rest = (line e.key e.text).toList ++ (Entry.chars es ++ rest) := by
      simp [Entry.chars]
    have hlen : 0 < (line e.key e.text).toList.length := by simp [line]
    obtain ⟨n', rfl⟩ : ∃ n', n = n' + 1 := ⟨n - 1, by rw [hchars, List.length_append] at hn; omega⟩
    have hins : insertAt (d.current ++ [e.key]) e.value d.root =
        some (place (F ++ [(e.key, e.value)])) := by
      rw [hcur, hroot]
      exact hplace F e.key e.value hfresh he.plain
    rw [hchars, readLines_line he.key he.reads, assign_plain hclosed he.plain, hins]
    obtain ⟨m, hm, hrun⟩ := readLines_entries hplace rest es (F ++ [(e.key, e.value)])
      { d with root := place (F ++ [(e.key, e.value)]) } n' (fun e' he' => hes e' (List.mem_cons_of_mem _ he'))
      (by simpa using hkeys) hcur hclosed rfl (by rw [hchars, List.length_append] at hn; omega)
    refine ⟨m, hm, ?_⟩
    rw [Option.map_some, Option.bind_some, hrun]
    simp [Entry.fields]

theorem readLines_nil (n : ℕ) (d : Doc) : readLines (n + 1) d [] = some d := by
  rw [readLines]
  rfl

theorem readLines_blank (n : ℕ) (d : Doc) (rest : List Char) :
    readLines (n + 1) d ('\n' :: rest) = readLines n d rest := by
  rw [readLines]
  rfl

/-- A header `[t]` on a line of its own declares the table `t`. -/
theorem readLines_header {t : String} (ht : BareKey t) (n : ℕ) (d : Doc) (rest : List Char) :
    readLines (n + 1) d ('[' :: (t.toList ++ ']' :: '\n' :: rest)) =
      (declare d [t]).bind fun d' => readLines n d' rest := by
  obtain ⟨c, cs, hcs⟩ := List.exists_cons_of_ne_nil ht.ne_nil
  have hc := ht.chars c (hcs ▸ List.mem_cons_self)
  have hsk : skipSpaces (']' :: '\n' :: rest) = ']' :: '\n' :: rest := rfl
  have hkey := @readKey_bare t ht (']' :: '\n' :: rest) (t.toList ++ ']' :: '\n' :: rest).length
    (by simp; decide) (by rw [hsk]; simp)
  have hskip : skipSpaces (t.toList ++ ']' :: '\n' :: rest) = t.toList ++ ']' :: '\n' :: rest := by
    rw [hcs]
    exact skipSpaces_of_head (by simpa using isSpace_of_isBareKeyChar hc)
  have hopen : skipSpaces ('[' :: (t.toList ++ ']' :: '\n' :: rest)) =
      '[' :: (t.toList ++ ']' :: '\n' :: rest) := rfl
  rw [readLines, hopen]
  split
  · rename_i h
    exact absurd h (by simp)
  · rename_i h
    exact absurd (List.cons.inj h).1 (by decide)
  · rename_i h
    exact absurd (List.cons.inj h).1 (by decide)
  · rename_i h
    exact absurd (List.cons.inj h).1 (by decide)
  · -- a second bracket would open an array of tables
    rename_i h
    rw [hcs, List.cons_append, List.cons.injEq, List.cons.injEq] at h
    rw [h.2.1] at hc
    exact absurd hc (by decide)
  · rename_i r _ h
    rw [(List.cons.inj h).2.symm, hskip, hkey]
    simp only [Option.bind_eq_bind, Option.bind_some, hsk, endOfLine_newline]
  · rename_i h
    exact absurd rfl (h _)

/-- Declaring a first table, while no table is closed. -/
theorem declare_first {d : Doc} (hclosed : d.closed = []) (hheaders : d.headers = []) {t : String}
    (ht : d.root.lookup t = none) :
    declare d [t] = some { d with root := d.root ++ [(t, .table [])], current := [t], headers := [[t]] } := by
  unfold declare
  simp [hclosed, hheaders, ensureTable, ht]

theorem parse_eq {s : String} {cs : List Char} (hs : s.toList = cs) (hc : cs.head? ≠ some '\uFEFF') :
    parse s = (readLines (cs.length + 1) {} cs).map (·.root) := by
  unfold parse
  rw [hs]
  split
  · exact absurd rfl hc
  · rfl

/-- Lines of entries start with a key, and a key is no byte-order mark. -/
theorem head_chars_ne_mark {es : List Entry} (hes : ∀ e ∈ es, e.Sound) (rest : List Char)
    (hr : rest.head? ≠ some '\uFEFF') : (Entry.chars es ++ rest).head? ≠ some '\uFEFF' := by
  cases es with
  | nil => simpa [Entry.chars] using hr
  | cons e es =>
    have hk := (hes e List.mem_cons_self).key
    obtain ⟨c, cs, hcs⟩ := List.exists_cons_of_ne_nil hk.ne_nil
    have hc := hk.chars c (hcs ▸ List.mem_cons_self)
    intro h
    simp only [Entry.chars, List.flatMap_cons, line, String.toList_append, hcs, List.cons_append,
      List.head?_cons, Option.some.injEq] at h
    rw [h] at hc
    exact absurd hc (by decide)

theorem nodup_keys_nil {es : List Entry} (h : (es.map Entry.key).Nodup) :
    (([] : List (String × Value)).map Prod.fst ++ es.map Entry.key).Nodup := by
  simpa using h

/-- **A document of lines with distinct keys is parsed into their fields.** -/
theorem parse_entries {es : List Entry} (hes : ∀ e ∈ es, e.Sound) (hkeys : (es.map Entry.key).Nodup)
    {s : String} (hs : s.toList = Entry.chars es) : parse s = some (Entry.fields es) := by
  have hs' : s.toList = Entry.chars es ++ [] := by rw [hs, List.append_nil]
  rw [parse_eq hs' (head_chars_ne_mark hes [] (by simp))]
  obtain ⟨m, hm, hrun⟩ := @readLines_entries [] id (fun F k v hk _ => insertAt_root hk v)
    [] es [] {} _ hes (nodup_keys_nil hkeys) rfl rfl rfl (Nat.lt_succ_self _)
  obtain ⟨m', rfl⟩ : ∃ m', m = m' + 1 := ⟨m - 1, by simp at hm; omega⟩
  rw [hrun, readLines_nil]
  rfl

/-- **A document of lines, then one table of lines, is parsed into the fields and the table.** -/
theorem parse_entries_table {es ts : List Entry} (hes : ∀ e ∈ es, e.Sound) (hts : ∀ e ∈ ts, e.Sound)
    (hkeys : (es.map Entry.key).Nodup) (htkeys : (ts.map Entry.key).Nodup) {t : String} (ht : BareKey t)
    (hfresh : t ∉ es.map Entry.key) {s : String}
    (hs : s.toList = Entry.chars es ++ '\n' :: '[' :: (t.toList ++ ']' :: '\n' :: Entry.chars ts)) :
    parse s = some (Entry.fields es ++ [(t, .table (Entry.fields ts))]) := by
  rw [parse_eq hs (head_chars_ne_mark hes _ (by simp))]
  have hlook : (Entry.fields es).lookup t = none :=
    lookup_eq_none_of_not_mem (by simpa [Entry.fields] using hfresh)
  have hlen : ('\n' :: '[' :: (t.toList ++ ']' :: '\n' :: Entry.chars ts)).length =
      (Entry.chars ts ++ []).length + t.toList.length + 4 := by
    simp only [List.length_cons, List.length_append, List.length_nil]
    omega
  -- the lines before the header, into the root
  obtain ⟨m, hm, hrun⟩ := @readLines_entries [] id (fun F k v hk _ => insertAt_root hk v) _ es [] {}
    _ hes (nodup_keys_nil hkeys) rfl rfl rfl (Nat.lt_succ_self _)
  rw [hlen] at hm
  obtain ⟨m', rfl⟩ : ∃ m', m = m' + 2 := ⟨m - 2, by omega⟩
  rw [hrun, readLines_blank, readLines_header ht, declare_first rfl rfl (by simpa using hlook)]
  -- the lines after it, into the table
  obtain ⟨m₂, hm₂, hrun₂⟩ := @readLines_entries [t] (fun F => Entry.fields es ++ [(t, Value.table F)])
    (fun F k v hk _ => insertAt_last_table hlook hk v) [] ts []
    { root := Entry.fields es ++ [(t, .table [])], current := [t], headers := [[t]] } m' hts
    (nodup_keys_nil htkeys) rfl rfl rfl (by omega)
  obtain ⟨m₃, rfl⟩ : ∃ m₃, m₂ = m₃ + 1 := ⟨m₂ - 1, by simp at hm₂; omega⟩
  rw [List.append_nil] at hrun₂
  simp only [Option.bind_some, id, List.nil_append]
  rw [hrun₂, readLines_nil]
  simp

/-! ### The library's round trip -/

/-- A value a setting holds: an integer of a word, a double, a boolean, or a name of plain
characters. -/
def Value.Setting : Value → Prop
  | .int i => 0 ≤ i ∧ i < 2 ^ 64
  | .float _ | .bool _ => True
  | .str s => ∀ c ∈ s.toList, PlainChar c
  | .arr _ | .table _ => False

/-- Fields a configuration file holds on lines of their own: bare, distinct keys and the
values of settings. -/
structure PlainFields (fs : List (String × Value)) : Prop where
  key : ∀ f ∈ fs, BareKey f.1
  value : ∀ f ∈ fs, f.2.Setting
  nodup : (fs.map Prod.fst).Nodup

/-- **What the configuration files need of a TOML library.** The document it writes for plain
fields reads back as those fields, and so does the one for plain fields followed by a table of
plain fields under a fresh bare key. -/
structure Library.ReadsBack (lib : Library) : Prop where
  plain : ∀ fs, PlainFields fs → lib.read (lib.write fs) = some fs
  table : ∀ fs t ts, PlainFields fs → BareKey t → t ∉ fs.map Prod.fst → PlainFields ts →
    lib.read (lib.write (fs ++ [(t, .table ts)])) = some (fs ++ [(t, .table ts)])

theorem Value.setting_nat {n : ℕ} (h : n < 2 ^ 64) : (Value.int n).Setting :=
  ⟨Int.natCast_nonneg n, by exact_mod_cast h⟩

/-- A value of a setting reads back from its text. -/
theorem Value.reads_text {v : Value} (hv : v.Setting) : Reads v.text v := by
  cases v with
  | int i =>
    obtain ⟨n, rfl⟩ := Int.eq_ofNat_of_zero_le hv.1
    exact reads_nat (by exact_mod_cast hv.2)
  | float x => exact reads_float x
  | bool b => exact reads_bool b
  | str s => exact reads_quoted hv
  | arr _ => exact hv.elim
  | table _ => exact hv.elim

/-- A field as the line the writer emits for it. -/
def Entry.ofField (f : String × Value) : Entry := ⟨f.1, f.2.text, f.2⟩

theorem PlainFields.sound {fs : List (String × Value)} (h : PlainFields fs) :
    ∀ e ∈ fs.map Entry.ofField, e.Sound := by
  simp only [List.mem_map]
  rintro _ ⟨f, hf, rfl⟩
  have hv := h.value f hf
  refine ⟨h.key f hf, Value.reads_text hv, fun ts he => ?_⟩
  -- a table is no setting
  simp only [Entry.ofField] at he
  rw [he] at hv
  exact hv

theorem PlainFields.not_isTable {fs : List (String × Value)} (h : PlainFields fs) :
    ∀ f ∈ fs, f.2.isTable = false := by
  intro f hf
  have hv := h.value f hf
  cases hf2 : f.2 with
  | table ts => rw [hf2] at hv; exact hv.elim
  | int _ | float _ | bool _ | str _ | arr _ => rfl

theorem fields_map_ofField (fs : List (String × Value)) : Entry.fields (fs.map Entry.ofField) = fs := by
  simp [Entry.fields, Entry.ofField, Function.comp_def]

theorem keys_map_ofField (fs : List (String × Value)) : (fs.map Entry.ofField).map Entry.key = fs.map Prod.fst := by
  simp [Entry.ofField]

theorem toList_lines (fs : List (String × Value)) : (lines fs).toList = Entry.chars (fs.map Entry.ofField) := by
  simp [lines, Entry.chars, Entry.ofField, List.flatMap_map]

/-- The document of plain fields is their lines. -/
theorem toList_write_plain {fs : List (String × Value)} (h : PlainFields fs) :
    (write fs).toList = Entry.chars (fs.map Entry.ofField) := by
  have hfilter : fs.filter (fun f => !f.2.isTable) = fs :=
    List.filter_eq_self.2 fun f hf => by simp [h.not_isTable f hf]
  have htables : fs.filterMap (fun f => f.2.table?.map fun ts => "\n[" ++ f.1 ++ "]\n" ++ lines ts) = [] := by
    refine List.filterMap_eq_nil_iff.2 fun f hf => ?_
    have := h.not_isTable f hf
    cases hf2 : f.2 <;> simp_all [Value.isTable, Value.table?]
  rw [write, hfilter, htables, String.join_nil, String.append_empty, toList_lines]

/-- The document of plain fields and a table is their lines, then the header and the table's
lines. -/
theorem toList_write_table {fs ts : List (String × Value)} (h : PlainFields fs) (t : String) :
    (write (fs ++ [(t, .table ts)])).toList =
      Entry.chars (fs.map Entry.ofField) ++ '\n' :: '[' :: (t.toList ++ ']' :: '\n' :: Entry.chars (ts.map Entry.ofField)) := by
  have hfilter : fs.filter (fun f => !f.2.isTable) = fs :=
    List.filter_eq_self.2 fun f hf => by simp [h.not_isTable f hf]
  have htables : fs.filterMap (fun f => f.2.table?.map fun ts => "\n[" ++ f.1 ++ "]\n" ++ lines ts) = [] := by
    refine List.filterMap_eq_nil_iff.2 fun f hf => ?_
    have := h.not_isTable f hf
    cases hf2 : f.2 <;> simp_all [Value.isTable, Value.table?]
  rw [write, List.filter_append, List.filterMap_append, hfilter, htables]
  simp [Value.isTable, Value.table?, toList_lines]

/-- **The library of this project reads back what it writes**: the reader takes lines of
fresh keys back as their fields (`parse_entries`), and a table after them as well
(`parse_entries_table`). -/
theorem readsBack_library : library.ReadsBack where
  plain fs h := by
    have hp := parse_entries h.sound (by rw [keys_map_ofField]; exact h.nodup) (toList_write_plain h)
    rwa [fields_map_ofField] at hp
  table fs t ts h ht hfresh hts := by
    have hp := parse_entries_table h.sound hts.sound (by rw [keys_map_ofField]; exact h.nodup)
      (by rw [keys_map_ofField]; exact hts.nodup) ht (by rwa [keys_map_ofField]) (toList_write_table h t)
    rwa [fields_map_ofField, fields_map_ofField] at hp

end Toml
end Config
end Thumbnailer
