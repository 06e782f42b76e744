import Thumbnailer.Cli.Args
import Thumbnailer.Generator.Workers
import Thumbnailer.Config.GeneratorFile
import Thumbnailer.Page.Folder
import Thumbnailer.Page.Synthetic
import Thumbnailer.Service.Value
import Thumbnailer.Raster.Png
import Thumbnailer.Raster.Jpeg

/-!
# What the commands compute

The commands' work apart from reading and writing files:

* the generator settings of `render`: the configuration file's (or the defaults), then the
  box, quality and job count given on the command line; an empty box is refused;
* the document: a folder of page images, or a synthetic document of at least one page;
* `render`: a generator over the document renders every page; each job is let through as soon
  as it runs, until nothing is left to do; the thumbnails made and the failures are read from
  the generator's events;
* `page`: one page rendered for viewing, numbered from 1;
* the summaries printed at the end, as indented JSON.
-/

namespace Thumbnailer
namespace Cli

open Config Generator Render

/-- The generator settings for `render`, on top of `base`. -/
def thumbnailConfig (base : GeneratorConfig) (a : RenderArgs) : Except String GeneratorConfig := do
  let mut c := base
  if a.width.isSome || a.height.isSome then
    c := c.withThumbnailSize (a.width.getD c.thumbnailSize.width) (a.height.getD c.thumbnailSize.height)
  if let some q := a.quality then c := c.withQuality q
  if let some n := a.jobs then c := c.withMaxConcurrentJobs n
  if c.thumbnailSize.isEmpty then throw "thumbnail size must be non-zero"
  pure c

/-- The document of an input, given the directory's entries for a folder. -/
def openSource (i : Input) (entries : Option (List Page.DirEntry)) : Except String Page.Source :=
  match i with
  | .images dir => (Page.folderSource ·) <$> Page.openFolder dir entries
  | .synthetic 0 => throw "--synthetic needs at least one page"
  | .synthetic n => pure (Page.Synthetic.letter n).source

/-- What rendering every page came to: the thumbnails made, by page, and the failures. -/
structure Rendering where
  thumbnails : List (Nat × Raster.Bitmap)
  errors : Nat

/-- Renders a thumbnail of every page with a generator, opening the document at the first tick
after creation and rendering at the second. -/
def renderAll (config : GeneratorConfig) (source : Page.Source) : Except String Rendering := do
  let step {α : Type} (x : Except Overflow α) : Except String α := x.mapError (·.message)
  let g ← step ((Engine.create config none).setDocument (some source) (Instant.tick 1))
  let (watcher, bus) := g.bus.subscribe
  let g := { g with bus }
  let (r, g) := g.generateRange 0 (source.numPages - 1) none none
  if let .error e := r then throw e.message
  let (_, g) ← step (g.runAll (Instant.tick 2))
  let events := ((g.bus.drain watcher).map (·.1)).getD []
  pure { thumbnails := events.filterMap fun
           | .generated p _ _ b => some (p, b)
           | _ => none,
         errors := (events.filter fun
           | .error .. => true
           | _ => false).length }

/-- The page `page` requests, rendered for viewing. -/
def renderOnePage (a : PageArgs) (source : Page.Source) : Except String Raster.Bitmap := do
  let count := source.numPages
  if a.page = 0 || a.page > count then
    throw ("page " ++ toString a.page ++ " out of range 1-" ++ toString count)
  let b := (Backend.create {} 1.0 .standard).setRatio a.devicePixelRatio |>.2
  (b.renderPage source (a.page - 1) (ViewerProfile.create a.dpi a.dpi a.quality) a.zoom).mapError (·.message)

/-- The version printed by `version`. -/
def versionText : String := "0.1.0"

/-- What a file in an image directory holds. -/
def fileContent (name : String) (bytes : ByteArray) : Page.Content :=
  match Page.pageFormat? name with
  | some .png => match Raster.decodePng bytes with
    | some b => .image .png b
    | none => .text ""
  | some .jpeg => match Raster.jpegSize? bytes with
    | some (w, h) => .image .jpeg (Raster.Bitmap.decodedOf w h)
    | none => .text ""
  | none => .text ""

/-- The PNG file of a bitmap for a path ending in `.png` (in any case); other formats are
not written, nor are pixels that only the lossy codec knows. -/
def pngFile (b : Raster.Bitmap) (path : String) : Except String ByteArray :=
  let failed := "failed to write image to " ++ path
  if (Page.extension? path).map Text.asciiLower != some "png" then
    .error (failed ++ ": the image format could not be determined")
  else
    match b.bytes? with
    | none => .error (failed ++ ": the pixels of this image are not available")
    | some px => .ok (Raster.encodePng b.width b.height px)

/-- A path inside a directory. -/
def joinPath (dir name : String) : String :=
  if dir.isEmpty then name else if dir.endsWith "/" then dir ++ name else dir ++ "/" ++ name

/-- The directory part of a path, if it has one. -/
def parentDir (path : String) : Option String :=
  match (path.splitOn "/").dropLast with
  | [] => none
  | parts =>
    let dir := "/".intercalate parts
    if dir.isEmpty then (if path.startsWith "/" then some "/" else none) else some dir

/-- An object as indented JSON, two spaces a level, one member a line. -/
def prettyObject (fields : List (String × Service.Value)) : String :=
  "\x7b\n" ++ ",\n".intercalate (fields.map fun (k, v) => "  " ++ Service.Value.quote k ++ ": " ++ v.render) ++ "\n\x7d"

/-- The summary of `render`. -/
def renderSummary (pages : Nat) (r : Rendering) (output : String) : String :=
  prettyObject [("pages", .nat pages), ("generated", .nat r.thumbnails.length), ("errors", .nat r.errors),
    ("output", .str output)]

/-- The summary of `page`. -/
def pageSummary (page : Nat) (b : Raster.Bitmap) (output : String) : String :=
  prettyObject [("page", .nat page), ("width", .nat b.width), ("height", .nat b.height), ("output", .str output)]

end Cli
end Thumbnailer
