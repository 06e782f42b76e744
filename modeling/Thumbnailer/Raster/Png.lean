import Thumbnailer.Raster.Bitmap
import Thumbnailer.Raster.Inflate

/-!
# PNG files

Thumbnails are written as PNG files, and page images are read from them.

Writing gives an 8-bit RGBA image without interlacing: each row is sent unfiltered, and the
rows are wrapped in a zlib stream of stored blocks (at most 65535 bytes each) with its Adler-32
checksum. Every chunk carries the CRC-32 of its type and data.

Reading accepts every standard image: grey, grey with alpha, RGB, RGBA and palette images at
the bit depths the format allows, plain or Adam7-interlaced, with the five row filters, and a
`tRNS` chunk for transparency. Samples become 8-bit RGBA: narrower grey levels are scaled up,
16-bit samples rounded down to 8 bits, palette indices looked up. Chunks other than `IHDR`,
`PLTE`, `tRNS`, `IDAT` and `IEND` are skipped, and checksums are not verified.
-/

namespace Thumbnailer
namespace Raster

/-- Bytes of a number in big-endian order. -/
def bigEndian (n width : Nat) : ByteArray :=
  ⟨((List.range width).reverse.map fun i => (n >>> (8 * i)).toUInt8).toArray⟩

/-- The CRC-32 table of the reflected polynomial `0xEDB88320`. -/
def crcTable : Array UInt32 :=
  (Array.range 256).map fun n =>
    (List.range 8).foldl (fun (c : UInt32) _ => if c &&& 1 == 1 then (0xEDB88320 : UInt32) ^^^ (c >>> 1) else c >>> 1) n.toUInt32

/-- CRC-32 of a byte string. -/
def crc32 (bs : ByteArray) : UInt32 :=
  bs.foldl (fun (c : UInt32) b => crcTable.getD ((c ^^^ b.toUInt32) &&& 0xFF).toNat 0 ^^^ (c >>> 8)) 0xFFFFFFFF ^^^ (0xFFFFFFFF : UInt32)

/-- Adler-32 of a byte string. -/
def adler32 (bs : ByteArray) : Nat :=
  let (a, b) := bs.foldl (fun (a, b) x => let a := (a + x.toNat) % 65521; (a, (b + a) % 65521)) (1, 0)
  b * 65536 + a

/-- The bytes of an ASCII string. -/
def asciiBytes (s : String) : ByteArray := ⟨(s.toList.map fun c => c.toNat.toUInt8).toArray⟩

/-- A chunk: length, type, data, CRC-32 of type and data. -/
def pngChunk (kind : String) (data : ByteArray) : ByteArray :=
  let body := asciiBytes kind ++ data
  bigEndian data.size 4 ++ body ++ bigEndian (crc32 body).toNat 4

/-- Stored deflate blocks of at most 65535 bytes, the last one flagged. -/
def storedBlocks (data : ByteArray) : ByteArray :=
  let n := (data.size + 65534) / 65535
  (List.range (max n 1)).foldl (fun acc i =>
    let part := data.extract (i * 65535) ((i + 1) * 65535)
    let final : UInt8 := if i + 1 ≥ n then 1 else 0
    let len := part.size
    acc.push final ++ ⟨#[(len % 256).toUInt8, (len / 256).toUInt8,
      ((65535 - len) % 256).toUInt8, ((65535 - len) / 256).toUInt8]⟩ ++ part) ByteArray.empty

/-- A zlib stream of stored blocks. -/
def zlibStored (data : ByteArray) : ByteArray :=
  ⟨#[0x78, 0x01]⟩ ++ storedBlocks data ++ bigEndian (adler32 data) 4

/-- The eight bytes every PNG file starts with. -/
def pngSignature : ByteArray := ⟨#[137, 80, 78, 71, 13, 10, 26, 10]⟩

/-- An 8-bit RGBA PNG of `w × h` pixels given row-major. -/
def encodePng (w h : Nat) (pixels : ByteArray) : ByteArray :=
  let header := bigEndian w 4 ++ bigEndian h 4 ++ ⟨#[8, 6, 0, 0, 0]⟩
  let rows := (List.range h).foldl (fun acc y => (acc.push 0) ++ pixels.extract (y * w * 4) ((y + 1) * w * 4))
    ByteArray.empty
  pngSignature ++ pngChunk "IHDR" header ++ pngChunk "IDAT" (zlibStored rows) ++ pngChunk "IEND" ByteArray.empty

/-- The header of a PNG image. -/
structure PngHeader where
  width : Nat
  height : Nat
  depth : Nat
  colorType : Nat
  interlaced : Bool

/-- Samples per pixel of a colour type. -/
def PngHeader.channels (h : PngHeader) : Nat :=
  match h.colorType with
  | 0 => 1
  | 2 => 3
  | 3 => 1
  | 4 => 2
  | _ => 4

/-- Whether the colour type and depth go together. -/
def PngHeader.valid (h : PngHeader) : Bool :=
  0 < h.width && 0 < h.height &&
  match h.colorType with
  | 0 => [1, 2, 4, 8, 16].contains h.depth
  | 3 => [1, 2, 4, 8].contains h.depth
  | 2 | 4 | 6 => [8, 16].contains h.depth
  | _ => false

/-- The chunks of a PNG file that decoding needs. -/
structure PngChunks where
  header : Option PngHeader := none
  palette : ByteArray := ByteArray.empty
  transparency : ByteArray := ByteArray.empty
  data : ByteArray := ByteArray.empty

/-- A big-endian number at an offset. -/
def readBigEndian (bs : ByteArray) (at_ width : Nat) : Option Nat :=
  (List.range width).foldlM (fun acc i => (bs[at_ + i]?).map fun b => acc * 256 + b.toNat) 0

/-- Reads chunks from an offset until `IEND`. Each round passes at least twelve bytes. -/
def readPngChunks : Nat → Nat → PngChunks → ByteArray → Option PngChunks
  | 0, _, _, _ => none
  | fuel + 1, at_, acc, bs => do
    let len ← readBigEndian bs at_ 4
    let kind := String.ofList ((List.range 4).map fun i => Char.ofNat ((bs[at_ + 4 + i]?).getD 0).toNat)
    if at_ + 12 + len > bs.size then none
    let body := bs.extract (at_ + 8) (at_ + 8 + len)
    let next := at_ + 12 + len
    match kind with
    | "IEND" => pure acc
    | "IHDR" =>
      let header : PngHeader := { width := ← readBigEndian body 0 4, height := ← readBigEndian body 4 4,
                                  depth := (← body[8]?).toNat, colorType := (← body[9]?).toNat,
                                  interlaced := (← body[12]?) == (1 : UInt8) }
      readPngChunks fuel next { acc with header := some header } bs
    | "PLTE" => readPngChunks fuel next { acc with palette := body } bs
    | "tRNS" => readPngChunks fuel next { acc with transparency := body } bs
    | "IDAT" => readPngChunks fuel next { acc with data := acc.data ++ body } bs
    | _ => readPngChunks fuel next acc bs

/-- The Paeth predictor. -/
def paeth (a b c : Nat) : Nat :=
  let p : Int := (a : Int) + b - c
  let pa := (p - a).natAbs
  let pb := (p - b).natAbs
  let pc := (p - c).natAbs
  if pa ≤ pb && pa ≤ pc then a else if pb ≤ pc then b else c

/-- One row reconstructed from its filter, the filtered bytes and the row above. -/
def unfilterRow (kind : Nat) (raw prev : ByteArray) (bpp : Nat) : Option ByteArray :=
  if kind > 4 then none
  else
    some ((List.range raw.size).foldl (fun out i =>
      let x := (raw.get! i).toNat
      let a := if i ≥ bpp then (out.get! (i - bpp)).toNat else 0
      let b := (prev[i]?.map (·.toNat)).getD 0
      let c := if i ≥ bpp then ((prev[i - bpp]?).map (·.toNat)).getD 0 else 0
      let pred := match kind with
        | 1 => a
        | 2 => b
        | 3 => (a + b) / 2
        | 4 => paeth a b c
        | _ => 0
      out.push (x + pred).toUInt8) ByteArray.empty)

/-- The rows of one image (or interlace pass) of `rows` rows of `stride` bytes, from an offset
of the inflated data; answers the rows and the offset after them. -/
def unfilterRows (data : ByteArray) (at_ rows stride bpp : Nat) : Option (Array ByteArray × Nat) :=
  (List.range rows).foldlM (fun (acc, at_) _ => do
    let kind := (← data[at_]?).toNat
    if at_ + 1 + stride > data.size then none
    let raw := data.extract (at_ + 1) (at_ + 1 + stride)
    let row ← unfilterRow kind raw (acc.back?.getD ByteArray.empty) bpp
    pure (acc.push row, at_ + 1 + stride)) (#[], at_)

/-- The Adam7 passes: first column, first row, column step, row step. -/
def adam7 : List (Nat × Nat × Nat × Nat) :=
  [(0, 0, 8, 8), (4, 0, 8, 8), (0, 4, 4, 8), (2, 0, 4, 4), (0, 2, 2, 4), (1, 0, 2, 2), (0, 1, 1, 2)]

/-- Positions along a side of `n` starting at `s` with step `d`. -/
def passSide (n s d : Nat) : Nat := if n > s then (n - s + d - 1) / d else 0

/-- Sample `c` of pixel `x` in a row. -/
def sampleAt (row : ByteArray) (h : PngHeader) (x c : Nat) : Nat :=
  let index := x * h.channels + c
  if h.depth = 16 then (row.get! (2 * index)).toNat * 256 + (row.get! (2 * index + 1)).toNat
  else if h.depth = 8 then (row.get! index).toNat
  else
    let bit := index * h.depth
    ((row.get! (bit / 8)).toNat >>> (8 - h.depth - bit % 8)) % Nat.pow 2 h.depth

/-- A sample scaled to 8 bits. -/
def sampleByte (h : PngHeader) (v : Nat) : Nat :=
  if h.depth = 16 then v >>> 8 else if h.depth = 8 then v else v * 255 / (Nat.pow 2 h.depth - 1)

/-- The RGBA value of pixel `x` of a row. -/
def pixelOf (ch : PngChunks) (h : PngHeader) (row : ByteArray) (x : Nat) : Rgba :=
  let s := sampleAt row h x
  let byte (v : Nat) : UInt8 := (sampleByte h v).toUInt8
  let trns (i : Nat) : Option Nat := readBigEndian ch.transparency (2 * i) 2
  match h.colorType with
  | 0 =>
    let g := s 0
    ⟨byte g, byte g, byte g, if trns 0 == some g then 0 else 255⟩
  | 2 =>
    let solid := !(trns 0 == some (s 0) && trns 1 == some (s 1) && trns 2 == some (s 2))
    ⟨byte (s 0), byte (s 1), byte (s 2), if solid then 255 else 0⟩
  | 3 =>
    let i := s 0
    let entry (k : Nat) : UInt8 := (ch.palette[3 * i + k]?).getD 0
    ⟨entry 0, entry 1, entry 2, (ch.transparency[i]?).getD 255⟩
  | 4 => ⟨byte (s 0), byte (s 0), byte (s 0), byte (s 1)⟩
  | _ => ⟨byte (s 0), byte (s 1), byte (s 2), byte (s 3)⟩

/-- The image a PNG file holds, or `none` when it is not a readable PNG. -/
def decodePng (bs : ByteArray) : Option Bitmap := do
  if bs.extract 0 8 != pngSignature then none
  let ch ← readPngChunks (bs.size / 12 + 1) 8 {} bs
  let h ← ch.header
  if !h.valid || (h.colorType = 3 && ch.palette.size = 0) then none
  let data ← zlibDecompress ch.data
  let bitsPerPixel := h.channels * h.depth
  let bpp := (bitsPerPixel + 7) / 8
  let stride (w : Nat) : Nat := (w * bitsPerPixel + 7) / 8
  if !h.interlaced then
    let (rows, _) ← unfilterRows data 0 h.height (stride h.width) bpp
    pure (Bitmap.ofFn h.width h.height fun x y => pixelOf ch h (rows.getD y ByteArray.empty) x)
  else
    let (passes, _) ← adam7.foldlM (fun (acc, at_) (xs, ys, dx, dy) => do
      let pw := passSide h.width xs dx
      let ph := passSide h.height ys dy
      if pw = 0 || ph = 0 then pure (acc.push #[], at_)
      else
        let (rows, at_) ← unfilterRows data at_ ph (stride pw) bpp
        pure (acc.push rows, at_)) ((#[] : Array (Array ByteArray)), 0)
    let locate (x y : Nat) : Nat × Nat × Nat :=
      (adam7.zipIdx.find? (fun ((xs, ys, dx, dy), _) => x ≥ xs && y ≥ ys && (x - xs) % dx = 0 && (y - ys) % dy = 0)).elim
        (0, x, y) fun ((xs, ys, dx, dy), p) => (p, (x - xs) / dx, (y - ys) / dy)
    pure (Bitmap.ofFn h.width h.height fun x y =>
      let (p, px, py) := locate x y
      pixelOf ch h ((passes.getD p #[]).getD py ByteArray.empty) px)

end Raster
end Thumbnailer
