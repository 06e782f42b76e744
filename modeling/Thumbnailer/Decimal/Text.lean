import Thumbnailer.Decimal.Shortest

/-!
# Writing doubles as text

Three layouts of the same digits:

* `display`: the shortest digits, always positional (`1e21` is a one and twenty-one zeros),
  `-0` for negative zero, `NaN`, `inf` and `-inf`. This is how requests spell their quality in
  cache keys.
* `literal`: `display`, with `.0` appended to an integral value, so that a reader of a data
  format sees a float (`72.0`, `-0.0`). Configuration files and reports use it.
* `fixed`: the exact value rounded to a number of decimal places, half to even.
-/

namespace Thumbnailer
namespace Decimal

/-- The positional text of a non-negative decimal. -/
def Dec.positional (d : Dec) : String :=
  let s := toString d.digits
  if d.exp ≥ 0 then s ++ String.ofList (List.replicate d.exp.toNat '0')
  else
    let p := (-d.exp).toNat
    if s.length > p then
      String.ofList (s.toList.take (s.length - p)) ++ "." ++ String.ofList (s.toList.drop (s.length - p))
    else "0." ++ String.ofList (List.replicate (p - s.length) '0') ++ s

/-- Whether a double's sign bit is set (also for `-0.0`). -/
def signBit (x : Float) : Bool := x.toBits >>> 63 == 1

/-- The shortest positional text of a double. -/
def display (x : Float) : String :=
  if x.isNaN then "NaN"
  else if x.isInf then (if x > 0 then "inf" else "-inf")
  else (if signBit x then "-" else "") ++ (ofFloat x).positional

/-- `display`, with `.0` after a value written without a point. -/
def literal (x : Float) : String :=
  let s := display x
  if x.isNaN || x.isInf || s.contains '.' then s else s ++ ".0"

/-- `⌊num / den⌉` with a tie going to the even neighbour. -/
def roundHalfEven (num den : Nat) : Nat :=
  let q := num / den
  let r := num % den
  if 2 * r < den then q else if 2 * r > den then q + 1 else if q % 2 = 0 then q else q + 1

/-- The exact value of a finite double rounded to `places` decimals, half to even. -/
def fixed (x : Float) (places : Nat) : String :=
  if x.isNaN then "NaN"
  else if x.isInf then (if x > 0 then "inf" else "-inf")
  else
    let b := Binary.ofBits x.toBits
    let num := b.m * Nat.pow 2 b.q.toNat * Nat.pow 10 places
    let den := Nat.pow 2 (-b.q).toNat
    let n := roundHalfEven num den
    (if signBit x then "-" else "") ++
      if places = 0 then toString n else Dec.positional ⟨n, -(places : Int)⟩

end Decimal
end Thumbnailer
