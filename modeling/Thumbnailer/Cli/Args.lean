import Thumbnailer.Config.Env
import Thumbnailer.Render.Dpi

/-!
# Command-line arguments

The program has three commands:

* `render` writes a thumbnail PNG for every page of a document;
* `page` renders one page for viewing;
* `version` prints the version.

A document is a directory of page images (`--images DIR`) or a generated test document of
letter-sized pages (`--synthetic N`); exactly one must be given. Everywhere, `-v` (repeatable,
also as `-vv`) raises the log level and `--log-file PATH` sends the log to a file.

An option's value follows it as the next argument or after `=`. An option may be given once.
Numbers are read as the standard parsers of their types read them: unsigned integers of 32 or
64 bits, doubles (`inf` and `NaN` included); a render quality is `draft`, `normal`, `high` or
`ultra`, in any case.
-/

namespace Thumbnailer
namespace Cli

/-- Where the pages come from. -/
inductive Input where
  | images (dir : String)
  | synthetic (pages : Nat)
  deriving DecidableEq, Repr

/-- Options of `render`. -/
structure RenderArgs where
  input : Input
  config : Option String := none
  width : Option Nat := none
  height : Option Nat := none
  quality : Option Float := none
  /-- Maximum concurrent render jobs. -/
  jobs : Option Nat := none
  output : String := "thumbnails"

/-- Options of `page`. -/
structure PageArgs where
  input : Input
  /-- Page number, starting at 1. -/
  page : Nat := 1
  zoom : Float := 1.0
  quality : Render.Quality := .high
  /-- Base DPI at 100% zoom. -/
  dpi : Float := 72.0
  devicePixelRatio : Float := 1.0
  output : String := "page.png"

/-- What to do. -/
inductive Command where
  | render (a : RenderArgs)
  | page (a : PageArgs)
  | version
  /-- Print the usage text. -/
  | help

/-- A parsed command line. -/
structure Invocation where
  verbose : Nat := 0
  logFile : Option String := none
  command : Command

/-- The usage text. -/
def usage : String :=
  "Readium thumbnail renderer\n\n" ++
  "Usage: readium-thumbs [OPTIONS] <COMMAND>\n\n" ++
  "Commands:\n" ++
  "  render   Render a thumbnail PNG for every page\n" ++
  "  page     Render one full page for viewing\n" ++
  "  version  Print CLI version\n\n" ++
  "Options:\n" ++
  "  -v, --verbose          More logging on stderr (-v info, -vv debug, -vvv trace)\n" ++
  "      --log-file <PATH>  Write the log to this file instead of stderr\n" ++
  "  -h, --help             Print help\n"

/-- The options each command takes, each with the name of its value. -/
def optionsOf : String → List (String × String)
  | "render" => [("images", "DIR"), ("synthetic", "N"), ("config", "FILE"), ("width", "WIDTH"),
      ("height", "HEIGHT"), ("quality", "QUALITY"), ("jobs", "JOBS"), ("output", "OUTPUT")]
  | "page" => [("images", "DIR"), ("synthetic", "N"), ("page", "PAGE"), ("zoom", "ZOOM"),
      ("quality", "QUALITY"), ("dpi", "DPI"), ("device-pixel-ratio", "DEVICE_PIXEL_RATIO"), ("output", "OUTPUT")]
  | _ => []

/-- An option as usage shows it. -/
def shown (cmd name : String) : String :=
  "--" ++ name ++ (((optionsOf cmd).lookup name).map (" <" ++ · ++ ">")).getD ""

/-- The arguments sorted out: global flags, the command and its options in order. -/
structure Sorted where
  verbose : Nat := 0
  logFile : Option String := none
  command : Option String := none
  options : List (String × String) := []
  help : Bool := false

/-- An option's name and inline value, for `--name` or `--name=value`. -/
def splitOption (arg : String) : String × Option String :=
  let body := String.ofList (arg.toList.drop 2)
  match body.splitOn "=" with
  | [name] => (name, none)
  | name :: rest => (name, some ("=".intercalate rest))
  | [] => (body, none)

/-- Sorts the arguments; each round consumes at least one argument. -/
def sortArgs : Nat → Sorted → List String → Except String Sorted
  | 0, s, _ => pure s
  | _, s, [] => pure s
  | fuel + 1, s, arg :: rest =>
    if arg = "-h" || arg = "--help" then sortArgs fuel { s with help := true } rest
    else if arg = "--verbose" then sortArgs fuel { s with verbose := s.verbose + 1 } rest
    else if arg.startsWith "-" && !arg.startsWith "--" && arg.length > 1 then
      let flags := arg.toList.drop 1
      if flags.all (· = 'v') then sortArgs fuel { s with verbose := s.verbose + flags.length } rest
      else throw ("unexpected argument '" ++ arg ++ "' found")
    else if arg.startsWith "--" then
      let (name, inline) := splitOption arg
      let cmd := s.command.getD ""
      let known := name = "log-file" || ((optionsOf cmd).lookup name).isSome
      if !known then throw ("unexpected argument '" ++ arg ++ "' found")
      else
        let take : Except String (String × List String) := match inline, rest with
          | some v, _ => pure (v, rest)
          | none, v :: more => pure (v, more)
          | none, [] => throw ("a value is required for '" ++ shown cmd name ++ "' but none was supplied")
        match take with
        | .error e => throw e
        | .ok (v, more) =>
          if name = "log-file" then sortArgs fuel { s with logFile := some v } more
          else if (s.options.lookup name).isSome then
            throw ("the argument '" ++ shown cmd name ++ "' cannot be used multiple times")
          else sortArgs fuel { s with options := s.options ++ [(name, v)] } more
    else
      match s.command with
      | none => sortArgs fuel { s with command := some arg } rest
      | some _ => throw ("unexpected argument '" ++ arg ++ "' found")

/-- A value read by `p`, or the error naming the option. -/
def readValue {α : Type} (cmd name : String) (p : String → Option α) (v : String) : Except String α :=
  match p v with
  | some a => pure a
  | none => throw ("invalid value '" ++ v ++ "' for '" ++ shown cmd name ++ "'")

/-- An option read by `p`, if given. -/
def optionValue {α : Type} (s : Sorted) (cmd name : String) (p : String → Option α) : Except String (Option α) :=
  match s.options.lookup name with
  | none => pure none
  | some v => some <$> readValue cmd name p v

/-- The document input: exactly one of `--images` and `--synthetic`. -/
def inputOf (s : Sorted) (cmd : String) : Except String Input := do
  let images := s.options.lookup "images"
  let synthetic ← optionValue s cmd "synthetic" (Config.parseUnsigned wordMax)
  match images, synthetic with
  | some _, some _ => throw ("the argument '--images <DIR>' cannot be used with '--synthetic <N>'")
  | some d, none => pure (.images d)
  | none, some n => pure (.synthetic n)
  | none, none => throw "the following required arguments were not provided:\n  --images <DIR>"

/-- Parses the arguments after the program name. -/
def parseArgs (args : List String) : Except String Invocation := do
  let s ← sortArgs (args.length + 1) {} args
  let base : Invocation := { verbose := s.verbose, logFile := s.logFile, command := .help }
  if s.help then return base
  let float (v : String) : Option Float := Decimal.readFloat? v
  match s.command with
  | none => throw "'readium-thumbs' requires a subcommand but one was not provided"
  | some "version" => pure { base with command := .version }
  | some "render" =>
    let cmd := "render"
    pure { base with command := .render {
      input := ← inputOf s cmd,
      config := s.options.lookup "config",
      width := ← optionValue s cmd "width" (Config.parseUnsigned u32Max),
      height := ← optionValue s cmd "height" (Config.parseUnsigned u32Max),
      quality := ← optionValue s cmd "quality" float,
      jobs := ← optionValue s cmd "jobs" (Config.parseUnsigned wordMax),
      output := (s.options.lookup "output").getD "thumbnails" } }
  | some "page" =>
    let cmd := "page"
    let quality ← match s.options.lookup "quality" with
      | none => pure Render.Quality.high
      | some v => match Render.Quality.read v with
        | .ok q => pure q
        | .error m => throw ("invalid value '" ++ v ++ "' for '" ++ shown cmd "quality" ++ "': " ++ m)
    pure { base with command := .page {
      input := ← inputOf s cmd,
      page := (← optionValue s cmd "page" (Config.parseUnsigned wordMax)).getD 1,
      zoom := (← optionValue s cmd "zoom" float).getD 1.0,
      quality,
      dpi := (← optionValue s cmd "dpi" float).getD 72.0,
      devicePixelRatio := (← optionValue s cmd "device-pixel-ratio" float).getD 1.0,
      output := (s.options.lookup "output").getD "page.png" } }
  | some other => throw ("unrecognized subcommand '" ++ other ++ "'")

end Cli
end Thumbnailer
