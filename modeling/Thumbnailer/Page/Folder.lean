import Thumbnailer.Page.Source
import Thumbnailer.Raster.Resample
import Thumbnailer.Text.Blank

/-!
# A folder of page images

Every PNG or JPEG file of a directory is one page, in file name order (byte order); the case of
the extension does not matter (`png`, `jpg`, `jpeg`). A pixel counts as one point, so an image
rasterizes at its own size at 72 DPI; at other resolutions it is resized with the bilinear
filter. A crop is taken in pixels of the image (truncated, cut to the image) and the part is
then scaled by the DPI.

Opening fails when the directory is missing, when a page file cannot be read as the image its
extension names, or when there is no page at all. Pixels of JPEG pages come from the lossy
codec and are not reproduced.
-/

namespace Thumbnailer
namespace Page

open Raster

/-- The image formats a page file can have. -/
inductive ImageFormat where
  | png
  | jpeg
  deriving DecidableEq, Repr

/-- What an entry of the directory holds. -/
inductive Content where
  /-- An image file in a format, with its pixels. -/
  | image (format : ImageFormat) (bitmap : Bitmap)
  /-- A file of text. -/
  | text (s : String)
  /-- A subdirectory. -/
  | directory

/-- A directory entry: its name and what it holds. -/
structure DirEntry where
  name : String
  content : Content

/-- The extension of a file name: what follows the last dot, unless there is no dot or the
only dot starts the name. -/
def extension? (name : String) : Option String :=
  let parts := name.splitOn "."
  let before := ".".intercalate parts.dropLast
  if name == ".." || parts.length < 2 || before.isEmpty then none else parts.getLast?

/-- The format a page file's extension names, if it is a page at all. -/
def pageFormat? (name : String) : Option ImageFormat :=
  match (extension? name).map Text.asciiLower with
  | some "png" => some .png
  | some "jpg" | some "jpeg" => some .jpeg
  | _ => none

/-- An indexed page: the file name, its size in points and its raster. -/
structure FolderPage where
  file : String
  size : Size
  raster : Bitmap

/-- The raster an image file yields when decoded. -/
def decodedRaster : ImageFormat → Bitmap → Bitmap
  | .png, b => b
  | .jpeg, b => Bitmap.decodedOf b.width b.height

/-- Indexes the page images of a directory `dir` (its entries, or `none` when it does not
exist); errors name the paths under `dir`. -/
def openFolder (dir : String) (entries : Option (List DirEntry)) : Except String (List FolderPage) := do
  let some entries := entries | throw ("image directory does not exist: " ++ dir)
  let files := entries.filter fun e =>
    match e.content with
    | .directory => false
    | _ => (pageFormat? e.name).isSome
  let sorted := files.mergeSort fun a b => decide (a.name ≤ b.name)
  let pages ← sorted.mapM fun e =>
    match e.content, pageFormat? e.name with
    | .image f b, some g =>
      if f = g then pure ⟨e.name, ⟨Float.ofNat b.width, Float.ofNat b.height⟩, decodedRaster f b⟩
      else throw ("failed to read image " ++ dir ++ "/" ++ e.name)
    | _, _ => throw ("failed to read image " ++ dir ++ "/" ++ e.name)
  if pages.isEmpty then throw ("no page images found in " ++ dir)
  pure pages

/-- A side of a crop in whole pixels: truncated, negatives and NaN giving 0. -/
def cropPixels (x : Float) : Nat := (maxNum x 0).toUInt32.toNat

/-- Rasterizes page `p` (or a crop of it) at `dx × dy` DPI. -/
def rasterizeFolder (pages : List FolderPage) (p : Nat) (dx dy : Float) (crop : Option Crop) :
    Except String Bitmap :=
  match pages[p]? with
  | none => .error ("no page " ++ toString p)
  | some page =>
    let raster := match crop with
      | none => page.raster
      | some r =>
        let b := page.raster
        let x := cropPixels r.x
        let y := cropPixels r.y
        b.crop x y (min (cropPixels r.width) (b.width - x)) (min (cropPixels r.height) (b.height - y))
    let (w, h) := match crop with
      | none => page.size.pixelsAt dx dy
      | some _ => (toPixels (Float.ofNat raster.width * dx / pointsPerInch),
                   toPixels (Float.ofNat raster.height * dy / pointsPerInch))
    if w = 0 || h = 0 || (w = raster.width && h = raster.height) then .ok raster
    else .ok (raster.resize w h .triangle)

/-- The folder's pages as a page source. -/
def folderSource (pages : List FolderPage) : Source where
  numPages := pages.length
  pageSize p := pages[p]?.map (·.size)
  rasterize := rasterizeFolder pages

end Page
end Thumbnailer
