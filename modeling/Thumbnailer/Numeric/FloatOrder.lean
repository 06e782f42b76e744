/-!
# Order operations on doubles

`totalKey` orders doubles totally, as their bit patterns do once the sign is folded in:
negative NaNs first, then `-inf`, the negative numbers, `-0`, `+0`, the positive numbers,
`+inf`, and positive NaNs last.

`maxNum` and `minNum` let a NaN lose to the other operand, so they return a number whenever
one is given. `clampNum` keeps a NaN and otherwise moves the value into `[lo, hi]`.
-/

namespace Thumbnailer

/-- The larger of two doubles, a NaN losing to the other operand. -/
def maxNum (a b : Float) : Float :=
  if a.isNaN then b else if b.isNaN then a else if a < b then b else a

/-- The smaller of two doubles, a NaN losing to the other operand. -/
def minNum (a b : Float) : Float :=
  if a.isNaN then b else if b.isNaN then a else if b < a then b else a

/-- `x` moved into `[lo, hi]`; a NaN stays NaN. -/
def clampNum (x lo hi : Float) : Float :=
  if x < lo then lo else if x > hi then hi else x

/-- A key whose order on integers is the total order of doubles. -/
def totalKey (x : Float) : Int :=
  let b := x.toBits.toNat
  if b < Nat.pow 2 63 then b else -((b - Nat.pow 2 63 : Nat) : Int) - 1

end Thumbnailer
