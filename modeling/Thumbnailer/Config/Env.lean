import Thumbnailer.Decimal.Read
import Thumbnailer.Text.Blank
import Thumbnailer.Numeric.Word

/-!
# Settings from the environment

An environment is a list of variables and their values. A setting read from it is trimmed of
blanks and then parsed by the standard grammar of its type:

* an unsigned integer is an optional `+` and at least one ASCII digit, within the type's
  range (so `-5`, `4.0`, `""` and `99999999999999999999` for a 64-bit word are refused);
* a boolean is exactly `true` or `false`;
* a double follows the floating-point grammar (`NaN`, `inf`, `1e400` are accepted).

A value that does not parse is reported with the variable's name and its untrimmed value.
-/

namespace Thumbnailer
namespace Config

/-- Environment variables and their values. -/
abbrev Env := List (String × String)

/-- Why a configuration could not be loaded. -/
inductive ConfigError where
  /-- A setting with a value that does not parse. -/
  | invalidValue (key value : String)
  /-- The file could not be read. -/
  | io
  /-- The file is not a valid configuration document. -/
  | parse
  deriving DecidableEq, Repr

/-- The message of an error that has one. -/
def ConfigError.message : ConfigError → String
  | .invalidValue k v => "invalid value \"" ++ v ++ "\" for configuration key " ++ k
  | .io => "I/O error"
  | .parse => "malformed configuration"

/-- Loading a configuration: it fails with a configuration error, or aborts when a size
overflows a machine word. -/
abbrev Load := ExceptT ConfigError (Except Overflow)

/-- Fails with a configuration error. -/
def Load.fail {α : Type} (e : ConfigError) : Load α := ExceptT.mk (.ok (.error e))

/-- A step that may fail with a configuration error. -/
def Load.check {α : Type} (x : Except ConfigError α) : Load α := ExceptT.mk (.ok x)

/-- A step whose word arithmetic may overflow. -/
def Load.word {α : Type} (x : Except Overflow α) : Load α := ExceptT.lift x

/-- An unsigned integer of at most `hi`: an optional `+`, then ASCII digits. -/
def parseUnsigned (hi : Nat) (s : String) : Option Nat :=
  let ds := match s.toList with
    | '+' :: rest => rest
    | cs => cs
  if ds.isEmpty || !ds.all Char.isDigit then none
  else
    let n := Decimal.digitsValue ds
    if n ≤ hi then some n else none

/-- A boolean: exactly `true` or `false`. -/
def parseBool (s : String) : Option Bool :=
  match s with
  | "true" => some true
  | "false" => some false
  | _ => none

/-- A variable's value parsed by `p` after trimming, `none` when the variable is unset. -/
def envValue {α : Type} (env : Env) (key : String) (p : String → Option α) :
    Load (Option α) :=
  match env.lookup key with
  | none => pure none
  | some raw =>
    match p (Text.trimBlank raw) with
    | some a => pure (some a)
    | none => Load.fail (.invalidValue key raw)

/-- An unsigned 64-bit setting. -/
def envWord (env : Env) (key : String) : Load (Option Nat) := envValue env key (parseUnsigned wordMax)

/-- An unsigned 32-bit setting. -/
def envU32 (env : Env) (key : String) : Load (Option Nat) := envValue env key (parseUnsigned u32Max)

/-- A byte setting. -/
def envByte (env : Env) (key : String) : Load (Option Nat) := envValue env key (parseUnsigned 255)

/-- A boolean setting. -/
def envBool (env : Env) (key : String) : Load (Option Bool) := envValue env key parseBool

/-- A double setting. -/
def envFloat (env : Env) (key : String) : Load (Option Float) := envValue env key Decimal.readFloat?

/-- A named setting: the trimmed text read by `p`, reported trimmed when it names nothing. -/
def envNamed {α : Type} (env : Env) (key : String) (p : String → Option α) : Load (Option α) :=
  match env.lookup key with
  | none => pure none
  | some raw =>
    let v := Text.trimBlank raw
    match p v with
    | some a => pure (some a)
    | none => Load.fail (.invalidValue key v)

end Config
end Thumbnailer
