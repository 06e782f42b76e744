import Thumbnailer.Decimal.Text
import Thumbnailer.Decimal.Read
import Thumbnailer.Numeric.Word
import Thumbnailer.Text.Blank

/-!
# Values exchanged with the service

The library is driven by requests and answers in a JSON-shaped tree: `Value`. Numbers come
in two forms: a decimal `m · 10^(-e)` as read from request text (`dec`, integers having
`e = 0`) and a double computed by the library (`float`). Rendering writes a double in its
shortest round-trip form with a `.0` when it has no point (`72.0`, `1e21` positionally as
`1000000000000000000000.0`), and a NaN or an infinity as the strings `"NaN"`, `"inf"`,
`"-inf"`.

Reading a field treats `null` as absent. The typed readers check ranges of the machine
integer types (`u8`, `u32`, `i32`, `i64`, `u64`) and accept a double as a number or as text
read by the usual floating-point grammar after trimming blanks (`"NaN"`, `"inf"`,
`"1e400"`). A reader that fails answers a `bad_input` error naming the field.
-/

namespace Thumbnailer
namespace Service

/-- A JSON-shaped value. -/
inductive Value where
  | null
  | bool (b : Bool)
  /-- A decimal `m · 10^(-e)`, as written in a request. -/
  | dec (m : Int) (e : Nat)
  /-- A double computed by the library. -/
  | float (x : Float)
  | str (s : String)
  | arr (xs : List Value)
  | obj (fields : List (String × Value))
  deriving Inhabited

namespace Value

/-- An integer. -/
def int (i : Int) : Value := .dec i 0

/-- A natural number. -/
def nat (n : Nat) : Value := .dec n 0

/-- A list of natural numbers. -/
def nats (ns : List Nat) : Value := .arr (ns.map nat)

/-- A pair of naturals, `[a, b]`. -/
def natPair (a b : Nat) : Value := .arr [nat a, nat b]

/-- A pair of doubles, `[a, b]`. -/
def floatPair (a b : Float) : Value := .arr [.float a, .float b]

/-- `f a`, or `null`. -/
def opt {α : Type} (f : α → Value) : Option α → Value
  | some a => f a
  | none => .null

/-- Four hexadecimal digits. -/
def hex4 (n : Nat) : String :=
  let ds := Nat.toDigits 16 n
  String.ofList (List.replicate (4 - ds.length) '0' ++ ds)

/-- A string literal with quotes, backslashes and control characters escaped. -/
def quote (s : String) : String :=
  let body := s.toList.foldl (fun acc c =>
    if c = '"' then acc ++ "\\\"" else if c = '\\' then acc ++ "\\\\"
    else if c.toNat < 32 then acc ++ "\\u" ++ hex4 c.toNat
    else acc.push c) ""
  "\"" ++ body ++ "\""

/-- A decimal `m · 10^(-e)` as text. -/
def decText (m : Int) (e : Nat) : String :=
  if e = 0 then toString m
  else
    let ds := toString m.natAbs
    let ds := String.ofList (List.replicate (e + 1 - ds.length) '0') ++ ds
    let cut := ds.length - e
    (if m < 0 then "-" else "") ++ String.ofList (ds.toList.take cut) ++ "." ++ String.ofList (ds.toList.drop cut)

mutual

/-- Compact JSON text. -/
def render : Value → String
  | .null => "null"
  | .bool b => if b then "true" else "false"
  | .dec m e => decText m e
  | .float x => if x.isNaN || x.isInf then quote (Decimal.display x) else Decimal.literal x
  | .str s => quote s
  | .arr xs => "[" ++ renderItems xs ++ "]"
  | .obj fs => "\x7b" ++ renderFields fs ++ "\x7d"

/-- Array items separated by commas. -/
def renderItems : List Value → String
  | [] => ""
  | [x] => render x
  | x :: xs => render x ++ "," ++ renderItems xs

/-- Object members separated by commas. -/
def renderFields : List (String × Value) → String
  | [] => ""
  | [(k, v)] => quote k ++ ":" ++ render v
  | (k, v) :: fs => quote k ++ ":" ++ render v ++ "," ++ renderFields fs

end

end Value

/-- An answer in progress: a value, or the error value that ends the request. -/
abbrev Reply := Except Value

/-- An error answer `{"error": kind, "message": message}`. -/
def failure (kind message : String) : Value := .obj [("error", .str kind), ("message", .str message)]

/-- Ends the request with a `bad_input` error. -/
def bad {α : Type} (message : String) : Reply α := throw (failure "bad_input" message)

/-- Ends the request with a panic of the library. -/
def panicked {α : Type} (message : String) : Reply α := throw (failure "panic" message)

/-- An overflowing word operation is a panic. -/
def lift {α : Type} : Except Overflow α → Reply α
  | .ok a => pure a
  | .error o => panicked o.message

namespace Value

/-- A field of an object; `null` counts as absent. -/
def field? (v : Value) (k : String) : Option Value :=
  match v with
  | .obj fs => match fs.lookup k with
    | some .null => none
    | other => other
  | _ => none

/-- A field that must be present. -/
def need (v : Value) (k : String) : Reply Value :=
  match v.field? k with
  | some x => pure x
  | none => bad ("missing field \"" ++ k ++ "\"")

/-- An integer value. -/
def asInt (k : String) : Value → Reply Int
  | .dec m 0 => pure m
  | _ => bad ("field " ++ k ++ " is not an integer")

/-- The name of the machine type whose largest value is `hi`. -/
def widthName (hi : Int) : String :=
  if hi = 255 then "u8" else if hi = u32Max then "u32" else if hi = i32Max then "i32"
  else if hi = i64Max then "i64" else "u64"

/-- An integer within `lo ≤ · ≤ hi`. -/
def asIntIn (k : String) (lo hi : Int) (v : Value) : Reply Int := do
  let i ← asInt k v
  if i < lo || i > hi then bad ("field \"" ++ k ++ "\" must fit in " ++ widthName hi) else pure i

/-- A natural number at most `hi`. -/
def asNatIn (k : String) (hi : Nat) (v : Value) : Reply Nat := do
  pure (← asIntIn k 0 hi v).toNat

/-- A double: a number, or text in the floating-point grammar. -/
def asFloat (k : String) : Value → Reply Float
  | .dec m e =>
    let x := Decimal.scientific m.natAbs (-(e : Int))
    pure (if m < 0 then -x else x)
  | .float x => pure x
  | .str s => match Decimal.readFloat? (Text.trimBlank s) with
    | some x => pure x
    | none => bad ("field " ++ k ++ " is not a float")
  | _ => bad ("field " ++ k ++ " is not a float")

/-- A boolean. -/
def asBool (k : String) : Value → Reply Bool
  | .bool b => pure b
  | _ => bad ("field " ++ k ++ " is not a bool")

/-- A string. -/
def asStr (k : String) : Value → Reply String
  | .str s => pure s
  | _ => bad ("field " ++ k ++ " is not a string")

/-- An array. -/
def asList (k : String) : Value → Reply (List Value)
  | .arr xs => pure xs
  | _ => bad ("field " ++ k ++ " is not an array")

/-- A field read as an unsigned 64-bit word. -/
def u64 (v : Value) (k : String) : Reply Nat := v.need k >>= asNatIn k wordMax
/-- A field read as an unsigned 32-bit word. -/
def u32 (v : Value) (k : String) : Reply Nat := v.need k >>= asNatIn k u32Max
/-- A field read as a byte. -/
def u8 (v : Value) (k : String) : Reply Nat := v.need k >>= asNatIn k 255
/-- A field read as a signed 32-bit word. -/
def i32 (v : Value) (k : String) : Reply Int := v.need k >>= asIntIn k i32Min i32Max
/-- A field read as a signed 64-bit word. -/
def i64 (v : Value) (k : String) : Reply Int := v.need k >>= asIntIn k (-(i64Max : Int) - 1) i64Max
/-- A field read as a double. -/
def f64 (v : Value) (k : String) : Reply Float := v.need k >>= asFloat k
/-- A field read as a boolean. -/
def flag (v : Value) (k : String) : Reply Bool := v.need k >>= asBool k
/-- A field read as a string. -/
def text (v : Value) (k : String) : Reply String := v.need k >>= asStr k
/-- A field read as an array. -/
def list (v : Value) (k : String) : Reply (List Value) := v.need k >>= asList k

/-- A field read with `f`, or `d` when absent. -/
def optOr {α : Type} (v : Value) (k : String) (d : α) (f : Value → String → Reply α) : Reply α :=
  if (v.field? k).isSome then f v k else pure d

/-- A field read with `f` when present. -/
def optional {α : Type} (v : Value) (k : String) (f : Value → String → Reply α) : Reply (Option α) :=
  if (v.field? k).isSome then some <$> f v k else pure none

/-- A two-element array field, each element read with `f`. -/
def pair {α : Type} (v : Value) (k : String) (f : String → Value → Reply α) : Reply (α × α) := do
  match ← v.list k with
  | [a, b] => pure (← f k a, ← f k b)
  | _ => bad ("field " ++ k ++ " is not a pair")

end Value

end Service
end Thumbnailer
