import Thumbnailer.Decimal.Read

/-!
# Reading TOML documents

Configuration files are TOML. This module reads a document into a tree of tables, for the
parts of the language a configuration uses:

* comments, blank lines, LF and CRLF line ends, a byte-order mark before the first line;
* bare, quoted and dotted keys; `[table]` headers (dotted too); inline tables `{ k = v }`;
* basic and literal strings, single-line and multi-line, with the escapes `\b \t \n \f \r
  \" \\ \uXXXX \UXXXXXXXX` and line-ending backslashes;
* integers in decimal (with sign), hexadecimal, octal and binary, with `_` between digits,
  from `-2^63` up to `2^64 - 1`;
* floats with fraction and/or exponent, `inf` and `nan` with an optional sign;
* booleans and arrays (over several lines, with comments and a trailing comma).

A key defined twice, a value under a key that is not a table, a table declared twice or
reopened after dotted keys or an inline table made it, and anything outside the grammar are
errors. Arrays of tables and dates are not read: no configuration has them, and they are
refused.

Every reader consumes at least one character per round and is bounded by the length of the
input, so each one is total.
-/

namespace Thumbnailer
namespace Config
namespace Toml

/-- A TOML value. -/
inductive Value where
  | int (i : Int)
  | float (x : Float)
  | bool (b : Bool)
  | str (s : String)
  | arr (xs : List Value)
  | table (fields : List (String × Value))
  deriving Inhabited

/-- Input still to read. -/
abbrev Input := List Char

/-- A reader: the value and the rest of the input, or nothing when the input is malformed. -/
abbrev Reader (α : Type) := Input → Option (α × Input)

/-- Spaces and tabs. -/
def isSpace (c : Char) : Bool := c = ' ' || c = '\t'

/-- Characters allowed in a bare key. -/
def isBareKeyChar (c : Char) : Bool := c.isAlphanum || c = '_' || c = '-'

/-- Control characters, which strings and comments may not hold (tab apart). -/
def isControl (c : Char) : Bool := (c.toNat < 32 && c ≠ '\t') || c.toNat = 127

/-- Skips spaces and tabs. -/
def skipSpaces (cs : Input) : Input := cs.dropWhile isSpace

/-- Skips a comment up to (not including) the line end; fails on a control character. -/
def skipComment (cs : Input) : Option Input :=
  match cs with
  | '#' :: rest =>
    let body := rest.takeWhile (fun c => c ≠ '\n' && c ≠ '\r')
    if body.any isControl then none else some (rest.drop body.length)
  | _ => some cs

/-- A line end, or the end of the input. -/
def lineEnd (cs : Input) : Option Input :=
  match cs with
  | [] => some []
  | '\n' :: rest => some rest
  | '\r' :: '\n' :: rest => some rest
  | _ => none

/-- What may end a line after its content: spaces, a comment, then the line end. -/
def endOfLine (cs : Input) : Option Input := do
  lineEnd (← skipComment (skipSpaces cs))

/-- The value of hexadecimal digits. -/
def hexValue (ds : List Char) : Option Nat :=
  ds.foldlM (fun n c =>
    if c.isDigit then some (16 * n + (c.toNat - '0'.toNat))
    else if 'a' ≤ c && c ≤ 'f' then some (16 * n + (c.toNat - 'a'.toNat + 10))
    else if 'A' ≤ c && c ≤ 'F' then some (16 * n + (c.toNat - 'A'.toNat + 10))
    else none) 0

/-- A Unicode scalar value from an escape. -/
def scalar (n : Nat) : Option Char :=
  if n < 0xD800 || (0xDFFF < n && n < 0x110000) then some (Char.ofNat n) else none

/-- The body of a basic string after its opening quote, up to and past the closing quote. -/
def basicBody : Nat → String → Reader String
  | 0, _, _ => none
  | fuel + 1, acc, cs =>
    match cs with
    | '"' :: rest => some (acc, rest)
    | '\\' :: e :: rest =>
      match e with
      | 'b' => basicBody fuel (acc.push '\x08') rest
      | 't' => basicBody fuel (acc.push '\t') rest
      | 'n' => basicBody fuel (acc.push '\n') rest
      | 'f' => basicBody fuel (acc.push '\x0c') rest
      | 'r' => basicBody fuel (acc.push '\r') rest
      | '"' => basicBody fuel (acc.push '"') rest
      | '\\' => basicBody fuel (acc.push '\\') rest
      | 'u' => do
        let c ← scalar (← hexValue (rest.take 4))
        if (rest.take 4).length < 4 then none else basicBody fuel (acc.push c) (rest.drop 4)
      | 'U' => do
        let c ← scalar (← hexValue (rest.take 8))
        if (rest.take 8).length < 8 then none else basicBody fuel (acc.push c) (rest.drop 8)
      | _ => none
    | c :: rest => if isControl c then none else basicBody fuel (acc.push c) rest
    | [] => none

/-- The body of a literal string after its opening quote. -/
def literalBody (cs : Input) : Option (String × Input) :=
  let body := cs.takeWhile (· ≠ '\'')
  match cs.drop body.length with
  | '\'' :: rest => if body.any isControl then none else some (String.ofList body, rest)
  | _ => none

/-- Drops a line end right after an opening delimiter. -/
def dropFirstNewline (cs : Input) : Input :=
  match cs with
  | '\n' :: rest => rest
  | '\r' :: '\n' :: rest => rest
  | _ => cs

/-- Skips whitespace and line ends, after a line-ending backslash. -/
def skipFolded (cs : Input) : Input := cs.dropWhile fun c => isSpace c || c = '\n' || c = '\r'

/-- Whether only spaces come before the line end (a line-ending backslash). -/
def foldsLine (cs : Input) : Bool :=
  match skipSpaces cs with
  | '\n' :: _ | '\r' :: '\n' :: _ => true
  | _ => false

/-- The body of a multi-line basic string, up to and past its closing quotes (up to two more
quotes before them belong to the string). -/
def multiBasicBody : Nat → String → Reader String
  | 0, _, _ => none
  | fuel + 1, acc, cs =>
    match cs with
    | '"' :: '"' :: '"' :: '"' :: '"' :: rest => some (acc ++ "\"\"", rest)
    | '"' :: '"' :: '"' :: '"' :: rest => some (acc.push '"', rest)
    | '"' :: '"' :: '"' :: rest => some (acc, rest)
    | '\\' :: rest =>
      if foldsLine rest then multiBasicBody fuel acc (skipFolded rest)
      else
        match rest with
        | 'b' :: r => multiBasicBody fuel (acc.push '\x08') r
        | 't' :: r => multiBasicBody fuel (acc.push '\t') r
        | 'n' :: r => multiBasicBody fuel (acc.push '\n') r
        | 'f' :: r => multiBasicBody fuel (acc.push '\x0c') r
        | 'r' :: r => multiBasicBody fuel (acc.push '\r') r
        | '"' :: r => multiBasicBody fuel (acc.push '"') r
        | '\\' :: r => multiBasicBody fuel (acc.push '\\') r
        | 'u' :: r => do
          let c ← scalar (← hexValue (r.take 4))
          if (r.take 4).length < 4 then none else multiBasicBody fuel (acc.push c) (r.drop 4)
        | 'U' :: r => do
          let c ← scalar (← hexValue (r.take 8))
          if (r.take 8).length < 8 then none else multiBasicBody fuel (acc.push c) (r.drop 8)
        | _ => none
    | '\r' :: '\n' :: rest => multiBasicBody fuel (acc.push '\n') rest
    | '\n' :: rest => multiBasicBody fuel (acc.push '\n') rest
    | c :: rest => if isControl c then none else multiBasicBody fuel (acc.push c) rest
    | [] => none

/-- The body of a multi-line literal string. -/
def multiLiteralBody : Nat → String → Reader String
  | 0, _, _ => none
  | fuel + 1, acc, cs =>
    match cs with
    | '\'' :: '\'' :: '\'' :: '\'' :: '\'' :: rest => some (acc ++ "''", rest)
    | '\'' :: '\'' :: '\'' :: '\'' :: rest => some (acc.push '\'', rest)
    | '\'' :: '\'' :: '\'' :: rest => some (acc, rest)
    | '\r' :: '\n' :: rest => multiLiteralBody fuel (acc.push '\n') rest
    | '\n' :: rest => multiLiteralBody fuel (acc.push '\n') rest
    | c :: rest => if isControl c then none else multiLiteralBody fuel (acc.push c) rest
    | [] => none

/-- A string of any of the four kinds. -/
def readString (cs : Input) : Option (String × Input) :=
  match cs with
  | '"' :: '"' :: '"' :: rest =>
    let rest := dropFirstNewline rest
    multiBasicBody (rest.length + 1) "" rest
  | '"' :: rest => basicBody (rest.length + 1) "" rest
  | '\'' :: '\'' :: '\'' :: rest =>
    let rest := dropFirstNewline rest
    multiLiteralBody (rest.length + 1) "" rest
  | '\'' :: rest => literalBody rest
  | _ => none

/-- One part of a key: bare, or a single-line quoted string. -/
def readSimpleKey (cs : Input) : Option (String × Input) :=
  match cs with
  | '"' :: '"' :: '"' :: _ | '\'' :: '\'' :: '\'' :: _ => none
  | '"' :: _ | '\'' :: _ => readString cs
  | _ =>
    let k := cs.takeWhile isBareKeyChar
    if k.isEmpty then none else some (String.ofList k, cs.drop k.length)

/-- A dotted key, with spaces allowed around the dots. -/
def readKey : Nat → Reader (List String)
  | 0, _ => none
  | fuel + 1, cs => do
    let (k, rest) ← readSimpleKey cs
    match skipSpaces rest with
    | '.' :: more =>
      let (ks, rest) ← readKey fuel (skipSpaces more)
      pure (k :: ks, rest)
    | _ => pure ([k], rest)

/-- Digits with single underscores between them, all satisfying `ok`. -/
def underscored (ok : Char → Bool) (ds : List Char) : Option (List Char) :=
  match ds with
  | [] => none
  | c :: _ =>
    if !ok c || ds.getLast? = some '_' then none
    else
      let rec go : List Char → Option (List Char)
        | [] => some []
        | '_' :: '_' :: _ => none
        | '_' :: rest => go rest
        | d :: rest => if ok d then (d :: ·) <$> go rest else none
      go ds

/-- A decimal integer part: `0`, or digits not starting with `0`. -/
def decimalPart (ds : List Char) : Option (List Char) := do
  let digits ← underscored Char.isDigit ds
  if digits.length > 1 && digits.head? = some '0' then none else pure digits

/-- The value of digits in a radix. -/
def radixValue (radix : Nat) (ds : List Char) : Nat :=
  ds.foldl (fun n c => radix * n + (hexValue [c]).getD 0) 0

/-- Integers representable in a configuration: from `-2^63` to `2^64 - 1`. -/
def intInRange (i : Int) : Bool := -(Int.pow 2 63) ≤ i && i < Int.pow 2 64

/-- A number token as an integer. -/
def readInt (t : List Char) : Option Int :=
  let checked (i : Int) : Option Int := if intInRange i then some i else none
  match t with
  | '0' :: 'x' :: ds => underscored (fun c => (hexValue [c]).isSome) ds >>= fun d => checked (radixValue 16 d)
  | '0' :: 'o' :: ds => underscored (fun c => '0' ≤ c && c ≤ '7') ds >>= fun d => checked (radixValue 8 d)
  | '0' :: 'b' :: ds => underscored (fun c => c = '0' || c = '1') ds >>= fun d => checked (radixValue 2 d)
  | '+' :: ds => decimalPart ds >>= fun d => checked (Decimal.digitsValue d)
  | '-' :: ds => decimalPart ds >>= fun d => checked (-(Decimal.digitsValue d : Int))
  | ds => decimalPart ds >>= fun d => checked (Decimal.digitsValue d)

/-- A number token as a float, checked against the TOML grammar and read exactly. -/
def readFloatToken (t : List Char) : Option Float :=
  let (sign, body) := match t with
    | '+' :: r => ("", r)
    | '-' :: r => ("-", r)
    | r => ("", r)
  match body with
  | ['i', 'n', 'f'] | ['n', 'a', 'n'] => Decimal.readFloat? (sign ++ String.ofList body)
  | _ =>
    let intPart := body.takeWhile fun (c : Char) => c.isDigit || c = '_'
    let rest := body.drop intPart.length
    let fracPart := match rest with
      | '.' :: r => some (r.takeWhile fun (c : Char) => c.isDigit || c = '_')
      | _ => none
    let rest := match fracPart with
      | some f => rest.drop (f.length + 1)
      | none => rest
    let expPart := match rest with
      | 'e' :: r | 'E' :: r => some r
      | _ => none
    let ok := (decimalPart intPart).isSome &&
      (fracPart.all fun f => (underscored Char.isDigit f).isSome) &&
      (fracPart.isSome || expPart.isSome) &&
      (expPart.all fun e =>
        let digits := match e with
          | '+' :: d | '-' :: d => d
          | d => d
        (underscored Char.isDigit digits).isSome) &&
      (expPart.isSome || rest.isEmpty)
    if !ok then none else Decimal.readFloat? (sign ++ String.ofList (body.filter (· ≠ '_')))

/-- Characters a number (or date) token may hold. -/
def isTokenChar (c : Char) : Bool := c.isAlphanum || c = '_' || c = '+' || c = '-' || c = '.' || c = ':'

/-- A bare value token: a boolean, an integer or a float. -/
def readScalar (cs : Input) : Option (Value × Input) :=
  let t := cs.takeWhile isTokenChar
  let rest := cs.drop t.length
  if t.isEmpty then none
  else if t = ['t', 'r', 'u', 'e'] then some (.bool true, rest)
  else if t = ['f', 'a', 'l', 's', 'e'] then some (.bool false, rest)
  else match readInt t with
    | some i => some (.int i, rest)
    | none => (readFloatToken t).map fun x => (.float x, rest)

/-- Skips spaces, comments and line ends between array items. -/
def skipArraySpace : Nat → Input → Option Input
  | 0, _ => none
  | fuel + 1, cs =>
    match skipSpaces cs with
    | '#' :: _ => do
      let rest ← skipComment (skipSpaces cs)
      skipArraySpace fuel rest
    | '\n' :: rest => skipArraySpace fuel rest
    | '\r' :: '\n' :: rest => skipArraySpace fuel rest
    | rest => some rest

/-- Adds a value at a key path inside a table's fields; fails on a clash. Tables reached
through the path are extended, other values are not. -/
def insertAt : List String → Value → List (String × Value) → Option (List (String × Value))
  | [], _, _ => none
  | [k], v, fs => if (fs.lookup k).isSome then none else some (fs ++ [(k, v)])
  | k :: ks, v, fs =>
    match fs.lookup k with
    | none => do
      let inner ← insertAt ks v []
      pure (fs ++ [(k, .table inner)])
    | some (.table inner) => do
      let inner ← insertAt ks v inner
      pure (fs.map fun (k', x) => if k' = k then (k', .table inner) else (k', x))
    | some _ => none

mutual

/-- A value. -/
def readValue : Nat → Reader Value
  | 0, _ => none
  | fuel + 1, cs =>
    match cs with
    | '"' :: _ | '\'' :: _ => (readString cs).map fun (s, r) => (.str s, r)
    | '[' :: rest => readArray fuel [] rest
    | '{' :: rest => readInline fuel [] (skipSpaces rest)
    | _ => readScalar cs

/-- The items of an array after its opening bracket. -/
def readArray : Nat → List Value → Reader Value
  | 0, _, _ => none
  | fuel + 1, acc, cs => do
    let cs ← skipArraySpace (cs.length + 1) cs
    match cs with
    | ']' :: rest => pure (.arr acc, rest)
    | _ =>
      let (v, rest) ← readValue fuel cs
      let rest ← skipArraySpace (rest.length + 1) rest
      match rest with
      | ',' :: more => readArray fuel (acc ++ [v]) more
      | ']' :: more => pure (.arr (acc ++ [v]), more)
      | _ => none

/-- The members of an inline table after its opening brace, on one line. -/
def readInline : Nat → List (String × Value) → Reader Value
  | 0, _, _ => none
  | fuel + 1, acc, cs =>
    match cs with
    | '}' :: rest => if acc.isEmpty then some (.table acc, rest) else none
    | _ => do
      let (ks, rest) ← readKey (cs.length + 1) cs
      let rest ← match skipSpaces rest with
        | '=' :: r => some (skipSpaces r)
        | _ => none
      let (v, rest) ← readValue fuel rest
      let acc ← insertAt ks v acc
      match skipSpaces rest with
      | ',' :: more => match skipSpaces more with
        | '}' :: _ => none
        | more => readInline fuel acc more
      | '}' :: more => pure (.table acc, more)
      | _ => none

end

/-- What a document has declared so far. -/
structure Doc where
  root : List (String × Value) := []
  /-- The table that key/value lines go to. -/
  current : List String := []
  /-- Tables declared by a header. -/
  headers : List (List String) := []
  /-- Tables made by dotted keys or inline tables, which a header may not reopen. -/
  closed : List (List String) := []

/-- The fields of the table at a path, if it is a table. -/
def tableAt : List String → List (String × Value) → Option (List (String × Value))
  | [], fs => some fs
  | k :: ks, fs =>
    match fs.lookup k with
    | some (.table inner) => tableAt ks inner
    | _ => none

/-- Makes sure a table exists at a path (creating empty ones); fails if a value sits there. -/
def ensureTable : List String → List (String × Value) → Option (List (String × Value))
  | [], fs => some fs
  | k :: ks, fs =>
    match fs.lookup k with
    | none => do
      let inner ← ensureTable ks []
      pure (fs ++ [(k, .table inner)])
    | some (.table inner) => do
      let inner ← ensureTable ks inner
      pure (fs.map fun (k', x) => if k' = k then (k', .table inner) else (k', x))
    | some _ => none

/-- Every proper prefix of a path, shortest first, and the path itself. -/
def prefixes (p : List String) : List (List String) := (List.range p.length).map fun n => p.take (n + 1)

/-- A `key = value` line in the current table. -/
def assign (d : Doc) (ks : List String) (v : Value) : Option Doc := do
  let path := d.current ++ ks
  if (prefixes path).any (fun p => d.closed.contains p && !(prefixes d.current).contains p) then none
  let root ← insertAt path v d.root
  let made := (prefixes path).drop (d.current.length) |>.dropLast
  let inlineMade := match v with
    | .table _ => [path]
    | _ => []
  pure { d with root, closed := d.closed ++ made ++ inlineMade }

/-- A `[table]` header. -/
def declare (d : Doc) (path : List String) : Option Doc := do
  if d.headers.contains path || d.closed.contains path then none
  if (prefixes path).any (fun p => d.closed.contains p && p ≠ path &&
      (match tableAt p d.root with | some _ => false | none => true)) then none
  let root ← ensureTable path d.root
  pure { d with root, current := path, headers := d.headers ++ [path] }

/-- The lines of a document. -/
def readLines : Nat → Doc → Input → Option Doc
  | 0, _, _ => none
  | fuel + 1, d, cs =>
    match skipSpaces cs with
    | [] => some d
    | '#' :: _ => do readLines fuel d (← endOfLine cs)
    | '\n' :: rest => readLines fuel d rest
    | '\r' :: '\n' :: rest => readLines fuel d rest
    | '[' :: '[' :: _ => none
    | '[' :: rest => do
      let (path, rest) ← readKey (rest.length + 1) (skipSpaces rest)
      let rest ← match skipSpaces rest with
        | ']' :: r => some r
        | _ => none
      readLines fuel (← declare d path) (← endOfLine rest)
    | line => do
      let (ks, rest) ← readKey (line.length + 1) line
      let rest ← match skipSpaces rest with
        | '=' :: r => some (skipSpaces r)
        | _ => none
      let (v, rest) ← readValue (rest.length + 1) rest
      readLines fuel (← assign d ks v) (← endOfLine rest)

/-- Reads a document into its root table; `none` when it is not valid TOML of the kinds read
here. -/
def parse (s : String) : Option (List (String × Value)) :=
  let cs := match s.toList with
    | '\uFEFF' :: rest => rest
    | cs => cs
  (readLines (cs.length + 1) {} cs).map (·.root)

end Toml
end Config
end Thumbnailer
