import Thumbnailer.Cli.Run

/-!
# The command-line program

Reads the arguments, the files and the directory a command needs, runs the command, writes
the images and prints the summary. Errors are printed on the standard error stream: an
argument error exits with status 2, any other error with status 1.
-/

namespace Thumbnailer
namespace Cli

/-- The entries of a directory, or `none` when it is not one. -/
def readEntries (dir : String) : IO (Option (List Page.DirEntry)) := do
  let path ← try some <$> IO.FS.realPath dir catch _ => pure none
  let some path := path | return none
  if !(← path.isDir) then return none
  let items ← path.readDir
  let mut entries : List Page.DirEntry := []
  for item in items do
    let kind ← try some <$> item.path.metadata catch _ => pure none
    match kind with
    | none => pure ()
    | some md =>
      if md.type == .dir then entries := entries ++ [⟨item.fileName, .directory⟩]
      else if (Page.pageFormat? item.fileName).isSome then
        let bytes ← try IO.FS.readBinFile item.path catch _ => pure ByteArray.empty
        entries := entries ++ [⟨item.fileName, fileContent item.fileName bytes⟩]
  return some entries

/-- The document an input names. -/
def loadSource (i : Input) : IO (Except String Page.Source) := do
  match i with
  | .images dir => pure (openSource i (← readEntries dir))
  | .synthetic _ => pure (openSource i none)

/-- Writes a bitmap as a PNG file. -/
def saveImage (b : Raster.Bitmap) (path : String) : IO (Except String Unit) := do
  match pngFile b path with
  | .error e => return .error e
  | .ok bytes =>
    try
      IO.FS.writeBinFile path bytes
      return .ok ()
    catch e => return .error ("failed to write image to " ++ path ++ ": " ++ toString e)

/-- Creates a directory and its parents. -/
def makeDirs (dir : String) : IO (Except String Unit) := do
  try
    IO.FS.createDirAll dir
    return .ok ()
  catch e => return .error ("failed to create " ++ dir ++ ": " ++ toString e)

/-- The generator settings for `render`, reading the configuration file when one is named. -/
def loadConfig (a : RenderArgs) : IO (Except String Config.GeneratorConfig) := do
  let base ← match a.config with
    | none => pure (.ok {})
    | some path =>
      let failed := "failed to load config " ++ path ++ ": "
      try
        let text ← IO.FS.readFile path
        match (Config.GeneratorConfig.ofToml text).run with
        | .error o => pure (.error o.message)
        | .ok (.error e) => pure (.error (failed ++ e.message))
        | .ok (.ok c) => pure (.ok c)
      catch e => pure (.error (failed ++ "I/O error: " ++ toString e))
  pure (base >>= (thumbnailConfig · a))

/-- Runs `render`. -/
def runRender (a : RenderArgs) : ExceptT String IO String := do
  let config ← ExceptT.mk (loadConfig a)
  let source ← ExceptT.mk (loadSource a.input)
  ExceptT.mk (makeDirs a.output)
  let r ← ExceptT.mk (pure (renderAll config source))
  for (page, b) in r.thumbnails do
    ExceptT.mk (saveImage b (joinPath a.output ("page-" ++ toString (page + 1) ++ ".png")))
  pure (renderSummary source.numPages r a.output)

/-- Runs `page`. -/
def runPage (a : PageArgs) : ExceptT String IO String := do
  let source ← ExceptT.mk (loadSource a.input)
  let b ← ExceptT.mk (pure (renderOnePage a source))
  if let some dir := parentDir a.output then ExceptT.mk (makeDirs dir)
  ExceptT.mk (saveImage b a.output)
  pure (pageSummary a.page b a.output)

end Cli
end Thumbnailer

open Thumbnailer Cli in
/-- Runs the command line. -/
def main (args : List String) : IO UInt32 := do
  match parseArgs args with
  | .error e =>
    IO.eprintln ("error: " ++ e ++ "\n\n" ++ usage)
    return 2
  | .ok inv =>
    if let some path := inv.logFile then
      try IO.FS.writeFile path "" catch e =>
        IO.eprintln ("failed to create log file " ++ path ++ ": " ++ toString e)
        return 1
    let outcome ← match inv.command with
      | .help => pure (.ok usage)
      | .version => pure (.ok versionText)
      | .render a => (runRender a).run
      | .page a => (runPage a).run
    match outcome with
    | .ok text =>
      IO.println text
      return 0
    | .error e =>
      IO.eprintln e
      return 1
