/-!
# Machine words and the faults of their arithmetic

Counters, byte sizes and costs in the pipeline are unsigned 64-bit words. Their sums and
products are checked: a result that leaves the word is a fault that stops the operation, and
its message names the operation (`Overflow.message`). Priorities are signed 32-bit words
whose additions saturate instead (`Word.addI32Saturating`).

Main statements: `checkedAdd_eq_ok` and `checkedAdd_eq_error` say exactly when a checked sum
succeeds, `checkedMul_eq_ok` and `checkedMul_eq_error` when a checked product does.
-/

namespace Thumbnailer

/-- The number of values of an unsigned 64-bit word. -/
def wordSize : Nat := Nat.pow 2 64

/-- The largest unsigned 64-bit word. -/
def wordMax : Nat := wordSize - 1

/-- The largest unsigned 32-bit word. -/
def u32Max : Nat := Nat.pow 2 32 - 1

/-- The least signed 32-bit word. -/
def i32Min : Int := -(Int.pow 2 31)

/-- The largest signed 32-bit word. -/
def i32Max : Int := Int.pow 2 31 - 1

/-- The largest signed 64-bit word. -/
def i64Max : Nat := Nat.pow 2 63 - 1

/-- An arithmetic result that does not fit its word. -/
inductive Overflow where
  | add
  | sub
  | mul
  deriving DecidableEq, Repr

/-- The text the program stops with. -/
def Overflow.message : Overflow → String
  | .add => "attempt to add with overflow"
  | .sub => "attempt to subtract with overflow"
  | .mul => "attempt to multiply with overflow"

/-- The sum of two words, or `Overflow.add` when it reaches `2^64`. -/
def checkedAdd (a b : Nat) : Except Overflow Nat :=
  if a + b < wordSize then .ok (a + b) else .error .add

/-- The product of two words, or `Overflow.mul` when it reaches `2^64`. -/
def checkedMul (a b : Nat) : Except Overflow Nat :=
  if a * b < wordSize then .ok (a * b) else .error .mul

/-- Addition that stops at the largest word. -/
def saturatingAdd (a b : Nat) : Nat := min (a + b) wordMax

/-- Addition of signed 32-bit words that stops at either end. -/
def Word.addI32Saturating (a b : Int) : Int := max i32Min (min i32Max (a + b))

/-- Addition of signed 64-bit words modulo `2^64`, in two's complement. -/
def Word.addI64Wrapping (a b : Int) : Int :=
  ((a + b + Int.pow 2 63) % Int.pow 2 64) - Int.pow 2 63

/-- A count taken as a signed 32-bit word, modulo `2^32`, in two's complement. -/
def Word.wrapI32 (n : Nat) : Int := (((n + Nat.pow 2 31) % Nat.pow 2 32 : Nat) : Int) - Int.pow 2 31

theorem checkedAdd_eq_ok {a b : Nat} (h : a + b < wordSize) : checkedAdd a b = .ok (a + b) := by
  simp [checkedAdd, h]

theorem checkedAdd_eq_error {a b : Nat} (h : wordSize ≤ a + b) : checkedAdd a b = .error .add := by
  simp [checkedAdd, Nat.not_lt.mpr h]

theorem checkedMul_eq_ok {a b : Nat} (h : a * b < wordSize) : checkedMul a b = .ok (a * b) := by
  simp [checkedMul, h]

theorem checkedMul_eq_error {a b : Nat} (h : wordSize ≤ a * b) : checkedMul a b = .error .mul := by
  simp [checkedMul, Nat.not_lt.mpr h]

theorem eq_add_of_checkedAdd_eq_ok {a b s : Nat} (h : checkedAdd a b = .ok s) : s = a + b := by
  unfold checkedAdd at h
  split at h
  · exact (Except.ok.inj h).symm
  · cases h

end Thumbnailer
