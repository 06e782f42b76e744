/-!
# Reading doubles from text

The grammar of decimal floating-point text accepted for settings and inputs:

    text    ::= sign? ( "inf" | "infinity" | "nan" | number )      -- the words in any case
    number  ::= ( digits ( "." digits? )? | "." digits ) exponent?
    exponent::= ( "e" | "E" ) sign? digits

The value is the decimal rounded to the nearest double (`Float.ofScientific`); a decimal
exponent far outside the range of doubles gives infinity or zero without computing its power.
Nothing else is accepted, blanks included: callers trim first where their format allows it.
-/

namespace Thumbnailer
namespace Decimal

/-- Splits off the leading ASCII digits. -/
def spanDigits (cs : List Char) : List Char × List Char := (cs.takeWhile Char.isDigit, cs.dropWhile Char.isDigit)

/-- The value of a list of ASCII digits. -/
def digitsValue (ds : List Char) : Nat := ds.foldl (fun n c => 10 * n + (c.toNat - '0'.toNat)) 0

/-- `mantissa · 10^exp` rounded to the nearest double. Exponents so large or small that the
result is certainly infinite or zero are decided without computing `10^exp`. -/
def scientific (mantissa : Nat) (exp : Int) : Float :=
  if mantissa = 0 then 0
  else
    let size : Int := (Nat.toDigits 10 mantissa).length
    if exp + size > 310 then 1.0 / 0.0
    else if exp + size < -330 then 0
    else if exp ≥ 0 then Float.ofScientific mantissa false exp.toNat
    else Float.ofScientific mantissa true (-exp).toNat

/-- The exponent part: empty, or `e`/`E`, an optional sign and at least one digit. -/
def readExponent : List Char → Option Int
  | [] => some 0
  | c :: rest =>
    if c = 'e' ∨ c = 'E' then
      let (neg, ds) := match rest with
        | '-' :: r => (true, r)
        | '+' :: r => (false, r)
        | r => (false, r)
      if ds.isEmpty ∨ !ds.all Char.isDigit then none
      else some (if neg then -(digitsValue ds : Int) else digitsValue ds)
    else none

/-- The magnitude of an unsigned number or word. -/
def readMagnitude (cs : List Char) : Option Float :=
  let word := String.ofList (cs.map Char.toLower)
  if word = "inf" ∨ word = "infinity" then some (1.0 / 0.0)
  else if word = "nan" then some (0.0 / 0.0)
  else
    let (whole, rest) := spanDigits cs
    let (frac, rest) := match rest with
      | '.' :: r => spanDigits r
      | r => ([], r)
    if whole.isEmpty ∧ frac.isEmpty then none
    else
      (readExponent rest).map fun e => scientific (digitsValue (whole ++ frac)) (e - frac.length)

/-- A double from its text, or `none` when the text is not in the grammar. -/
def readFloat? (s : String) : Option Float :=
  match s.toList with
  | '-' :: rest => (readMagnitude rest).map (fun x => -x)
  | '+' :: rest => readMagnitude rest
  | cs => readMagnitude cs

end Decimal
end Thumbnailer
