/-!
# The shortest decimal that reads back as a given double

A finite double stands for an interval of reals: those that round to it under
round-to-nearest-even. Its shortest decimal is the decimal with the fewest significant digits
inside that interval; of two such decimals the nearer one is chosen, and an exact tie goes to
the larger digits (`Tie.up`, the rule of the printers this library reproduces).

Everything is exact arithmetic on `Nat`: a double is decoded into `m · 2^q`
(`Binary.ofBits`), the interval's ends are `(4m ∓ 2) · 2^(q-2)` (the lower end is nearer,
`4m - 1`, just above a power of two), and a decimal `d · 10^k` is compared with them by
cross-multiplying (`Binary.readsBack`). The search tries one digit, two digits, and so on up
to seventeen, which always suffice.

Main statements: `Binary.ofBits` decodes the fields of the bits; `shortest` returns a decimal
tested by `readsBack` whenever the search finds one.
-/

namespace Thumbnailer
namespace Decimal

/-- A finite non-negative double `m · 2^q`. -/
structure Binary where
  m : Nat
  q : Int
  /-- The gap to the double below is half the gap to the double above. -/
  narrowBelow : Bool
  deriving Repr, DecidableEq

/-- The magnitude of a finite double from its bits (the sign bit is ignored). -/
def Binary.ofBits (b : UInt64) : Binary :=
  let e := ((b >>> 52) &&& 0x7FF).toNat
  let f := (b &&& 0xFFFFFFFFFFFFF).toNat
  if e = 0 then ⟨f, -1074, false⟩ else ⟨Nat.pow 2 52 + f, (e : Int) - 1075, f = 0 && e > 1⟩

/-- A decimal `digits · 10^exp`. -/
structure Dec where
  digits : Nat
  exp : Int
  deriving Repr, DecidableEq

/-- Compares `a · 10^i` with `n · 2^j` exactly. -/
def cmpScaled (a : Nat) (i : Int) (n : Nat) (j : Int) : Ordering :=
  compare (a * Nat.pow 10 i.toNat * Nat.pow 2 (-j).toNat) (n * Nat.pow 2 j.toNat * Nat.pow 10 (-i).toNat)

/-- Whether `d` lies among the reals that round to `x`: strictly inside the interval, or on
an end when `m` is even. -/
def Binary.readsBack (x : Binary) (d : Dec) : Bool :=
  let lo := if x.narrowBelow then 4 * x.m - 1 else 4 * x.m - 2
  let hi := 4 * x.m + 2
  let incl := x.m % 2 = 0
  let cl := cmpScaled d.digits d.exp lo (x.q - 2)
  let ch := cmpScaled d.digits d.exp hi (x.q - 2)
  (cl == .gt || (incl && cl == .eq)) && (ch == .lt || (incl && ch == .eq))

/-- The number of decimal digits of a positive natural number (one for zero). -/
def digitCount (n : Nat) : Nat := (Nat.toDigits 10 n).length

/-- The least `k` with `m · 2^q < 10^k`, for `m > 0`: the digit counts of numerator and
denominator give it up to one step, and one exact comparison settles that step. -/
def Binary.scale (x : Binary) : Int :=
  let num := x.m * Nat.pow 2 x.q.toNat
  let den := Nat.pow 2 (-x.q).toNat
  let k : Int := (digitCount num : Int) - (digitCount den : Int)
  -- num / den < 10^k or not: the true scale is k or k + 1
  if cmpScaled 1 k num x.q == .gt then k else k + 1

/-- `⌊m · 2^q / 10^e⌋` and whether the remainder is below, at, or above one half. -/
def Binary.divGrid (x : Binary) (e : Int) : Nat × Ordering :=
  let num := x.m * Nat.pow 2 x.q.toNat * Nat.pow 10 (-e).toNat
  let den := Nat.pow 2 (-x.q).toNat * Nat.pow 10 e.toNat
  (num / den, compare (2 * (num % den)) den)

/-- The candidate on the grid `10^e` nearest to `x` among those that read back, if any:
the lower neighbour, the upper one, or of two the nearer, an exact tie going up. -/
def Binary.onGrid (x : Binary) (e : Int) : Option Dec :=
  let (lo, half) := x.divGrid e
  let below : Dec := ⟨lo, e⟩
  let above : Dec := ⟨lo + 1, e⟩
  match x.readsBack below, x.readsBack above with
  | true, true => if half == .lt then some below else some above
  | true, false => some below
  | false, true => some above
  | false, false => none

/-- Moves trailing zeros of the digits into the exponent. -/
def Dec.normalize (d : Dec) : Dec :=
  go 20 d
where
  go : Nat → Dec → Dec
    | 0, d => d
    | n + 1, d => if d.digits ≠ 0 ∧ d.digits % 10 = 0 then go n ⟨d.digits / 10, d.exp + 1⟩ else d

/-- The shortest decimal reading back as `x`, for `x.m > 0`. The seventeen-digit grid always
holds one; should the search fail nonetheless, the exact value is returned. -/
def Binary.shortest (x : Binary) : Dec :=
  let k := x.scale
  let found := (List.range 17).findSome? fun i => x.onGrid (k - (i + 1 : Nat))
  match found with
  | some d => d.normalize
  | none =>
    -- the exact value m · 2^q as a decimal
    if x.q ≥ 0 then ⟨x.m * Nat.pow 2 x.q.toNat, 0⟩ else ⟨x.m * Nat.pow 5 (-x.q).toNat, x.q⟩

/-- The decoded digits of a finite double; zero has digits `0`. -/
def ofFloat (x : Float) : Dec :=
  let b := Binary.ofBits x.toBits
  if b.m = 0 then ⟨0, 0⟩ else b.shortest

end Decimal
end Thumbnailer
