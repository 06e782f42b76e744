import Thumbnailer.Numeric.Word
import Thumbnailer.Decimal.Shortest

/-!
# Generation statistics

The success rate is the share of finished attempts that succeeded (0 before any finished);
the total of attempts is a machine word and may overflow. The average render time divides a
duration by the number of successes in floating point: the duration in seconds as a double
(`secs + nanos / 10⁹`), divided, and converted back to whole nanoseconds rounding to nearest
with ties to even, exactly.
-/

namespace Thumbnailer
namespace Generator

/-- Nanoseconds in a second. -/
def nanosPerSec : Nat := 1000000000

/-- Successes among finished attempts, 0 before any. -/
def successRate (generated errors : Nat) : Except Overflow Float := do
  let total ← checkedAdd generated errors
  pure (if total = 0 then 0 else Float.ofNat generated / Float.ofNat total)

/-- A duration in seconds, as a double. -/
def secondsOf (nanos : Nat) : Float :=
  Float.ofNat (nanos / nanosPerSec) + Float.ofNat (nanos % nanosPerSec) / Float.ofNat nanosPerSec

/-- `n / 2^k` rounded to nearest, ties to even. -/
def shiftRoundEven (n k : Nat) : Nat :=
  let q := n / Nat.pow 2 k
  let r := n % Nat.pow 2 k
  if 2 * r > Nat.pow 2 k || (2 * r = Nat.pow 2 k && q % 2 = 1) then q + 1 else q

/-- A non-negative finite number of seconds in whole nanoseconds, rounded to nearest with
ties to even. -/
def nanosOfSeconds (x : Float) : Nat :=
  let b := Decimal.Binary.ofBits x.toBits
  let scaled := b.m * nanosPerSec
  if b.q ≥ 0 then scaled * Nat.pow 2 b.q.toNat else shiftRoundEven scaled (-b.q).toNat

/-- The mean duration of a success, in nanoseconds; 0 with no success. -/
def averageRenderNanos (totalNanos generated : Nat) : Nat :=
  if generated = 0 then 0 else nanosOfSeconds (secondsOf totalNanos / Float.ofNat generated)

end Generator
end Thumbnailer
