/-!
# Inflating zlib streams

Page images are stored compressed with the deflate method inside a zlib stream. This module
reads such a stream back (RFC 1950, RFC 1951):

* bits are read least significant first, byte after byte (`BitReader`);
* a block is stored (raw bytes after the next byte boundary), or coded with the fixed Huffman
  codes, or with codes whose lengths the block itself sends, run-length coded;
* a Huffman code is canonical, so it is known from the number of codes of each length and the
  symbols in order of length (`Huffman`); a symbol is decoded one bit at a time, comparing the
  code read so far with the first code of each length;
* a length/distance pair copies bytes from the output already produced, overlapping copies
  included.

Every loop reads at least one bit per round, so the number of bits in the input bounds it:
each function is total, and a stream that ends early or holds an invalid code gives `none`.
-/

namespace Thumbnailer
namespace Raster

/-- A position in a byte string, counted in bits. -/
structure BitReader where
  data : ByteArray
  pos : Nat := 0

namespace BitReader

/-- The bits left. -/
def remaining (r : BitReader) : Nat := r.data.size * 8 - r.pos

/-- The next bit. -/
def bit (r : BitReader) : Option (Nat × BitReader) :=
  match r.data[r.pos / 8]? with
  | some byte => some ((byte.toNat >>> (r.pos % 8)) % 2, { r with pos := r.pos + 1 })
  | none => none

/-- The next `n` bits as a number, the first bit least significant. -/
def bits (r : BitReader) : Nat → Option (Nat × BitReader)
  | 0 => some (0, r)
  | n + 1 => do
    let (lo, r) ← r.bit
    let (hi, r) ← r.bits n
    pure (lo + 2 * hi, r)

/-- Skips to the next byte boundary. -/
def align (r : BitReader) : BitReader := { r with pos := (r.pos + 7) / 8 * 8 }

/-- The byte at the reader, once aligned. -/
def byteAt (r : BitReader) (i : Nat) : Option Nat := (r.data[r.pos / 8 + i]?).map (·.toNat)

end BitReader

/-- A canonical Huffman code: how many codes have each length 0–15, and the symbols sorted by
code length, then by value. -/
structure Huffman where
  counts : Array Nat
  symbols : Array Nat

namespace Huffman

/-- The code with the given lengths, one per symbol (0: unused). -/
def ofLengths (lengths : List Nat) : Huffman :=
  let counts := lengths.foldl (fun c l => c.modify l (· + 1)) (Array.replicate 16 0)
  let symbols := (List.range 16).foldl (fun acc len =>
    acc ++ ((lengths.zipIdx.filter fun (l, _) => l == len && len != 0).map (·.2)).toArray) #[]
  { counts := counts.set! 0 0, symbols }

/-- Decodes one symbol: at length `len`, `code` is the code read so far, `first` the first code
of that length and `index` the position of its first symbol. -/
def decodeFrom (h : Huffman) : Nat → Nat → Nat → Nat → BitReader → Option (Nat × BitReader)
  | 0, _, _, _, _ => none
  | fuel + 1, code, first, index, r => do
    let (b, r) ← r.bit
    let code := code + b
    let len := 16 - (fuel + 1)
    let count := h.counts.getD len 0
    if code < first + count then
      (h.symbols[index + (code - first)]?).map (·, r)
    else
      h.decodeFrom fuel (code * 2) ((first + count) * 2) (index + count) r

/-- Decodes one symbol. -/
def decode (h : Huffman) (r : BitReader) : Option (Nat × BitReader) := h.decodeFrom 15 0 0 0 r

end Huffman

/-- Base lengths of the length symbols 257–285. -/
def lengthBase : Array Nat :=
  #[3, 4, 5, 6, 7, 8, 9, 10, 11, 13, 15, 17, 19, 23, 27, 31, 35, 43, 51, 59, 67, 83, 99, 115,
    131, 163, 195, 227, 258]

/-- Extra bits of the length symbols 257–285. -/
def lengthExtra : Array Nat :=
  #[0, 0, 0, 0, 0, 0, 0, 0, 1, 1, 1, 1, 2, 2, 2, 2, 3, 3, 3, 3, 4, 4, 4, 4, 5, 5, 5, 5, 0]

/-- Base distances of the distance symbols 0–29. -/
def distBase : Array Nat :=
  #[1, 2, 3, 4, 5, 7, 9, 13, 17, 25, 33, 49, 65, 97, 129, 193, 257, 385, 513, 769, 1025, 1537,
    2049, 3073, 4097, 6145, 8193, 12289, 16385, 24577]

/-- Extra bits of the distance symbols 0–29. -/
def distExtra : Array Nat :=
  #[0, 0, 0, 0, 1, 1, 2, 2, 3, 3, 4, 4, 5, 5, 6, 6, 7, 7, 8, 8, 9, 9, 10, 10, 11, 11, 12, 12, 13, 13]

/-- The fixed literal/length code. -/
def fixedLitLen : Huffman :=
  Huffman.ofLengths (List.replicate 144 8 ++ List.replicate 112 9 ++ List.replicate 24 7 ++ List.replicate 8 8)

/-- The fixed distance code. -/
def fixedDist : Huffman := Huffman.ofLengths (List.replicate 30 5)

/-- Appends `len` bytes copied from `dist` bytes back, one at a time, so a copy may overlap
what it writes. -/
def copyBack (out : ByteArray) (dist : Nat) : Nat → ByteArray
  | 0 => out
  | n + 1 => copyBack (out.push (out.get! (out.size - dist))) dist n

/-- The coded data of a block, up to its end symbol. -/
def inflateCodes (lit dist : Huffman) : Nat → ByteArray → BitReader → Option (ByteArray × BitReader)
  | 0, _, _ => none
  | fuel + 1, out, r => do
    let (sym, r) ← lit.decode r
    if sym < 256 then inflateCodes lit dist fuel (out.push sym.toUInt8) r
    else if sym = 256 then pure (out, r)
    else
      let i := sym - 257
      let (extra, r) ← r.bits (lengthExtra.getD i 0)
      let len := (← lengthBase[i]?) + extra
      let (ds, r) ← dist.decode r
      let (dextra, r) ← r.bits (distExtra.getD ds 0)
      let d := (← distBase[ds]?) + dextra
      if d > out.size then none
      else inflateCodes lit dist fuel (copyBack out d len) r

/-- The code lengths a dynamic block sends, run-length coded with the code-length code. -/
def readLengths (cl : Huffman) (total : Nat) : Nat → List Nat → BitReader → Option (List Nat × BitReader)
  | 0, _, _ => none
  | fuel + 1, acc, r =>
    if acc.length ≥ total then
      if acc.length = total then pure (acc, r) else none
    else do
      let (sym, r) ← cl.decode r
      if sym < 16 then readLengths cl total fuel (acc ++ [sym]) r
      else if sym = 16 then
        let prev ← acc.getLast?
        let (n, r) ← r.bits 2
        readLengths cl total fuel (acc ++ List.replicate (n + 3) prev) r
      else if sym = 17 then
        let (n, r) ← r.bits 3
        readLengths cl total fuel (acc ++ List.replicate (n + 3) 0) r
      else
        let (n, r) ← r.bits 7
        readLengths cl total fuel (acc ++ List.replicate (n + 11) 0) r

/-- The order in which a dynamic block sends the code-length code's lengths. -/
def codeLengthOrder : List Nat := [16, 17, 18, 0, 8, 7, 9, 6, 10, 5, 11, 4, 12, 3, 13, 2, 14, 1, 15]

/-- The codes of a dynamic block. -/
def dynamicCodes (r : BitReader) : Option (Huffman × Huffman × BitReader) := do
  let (hlit, r) ← r.bits 5
  let (hdist, r) ← r.bits 5
  let (hclen, r) ← r.bits 4
  let (cls, r) ← (List.range (hclen + 4)).foldlM (fun (acc, r) _ => do
    let (l, r) ← r.bits 3
    pure (acc ++ [l], r)) ([], r)
  let table := (codeLengthOrder.zip cls).foldl (fun t (sym, l) => t.set! sym l) (Array.replicate 19 0)
  let total := hlit + 257 + hdist + 1
  let (lengths, r) ← readLengths (Huffman.ofLengths table.toList) total (r.remaining + 1) [] r
  pure (Huffman.ofLengths (lengths.take (hlit + 257)), Huffman.ofLengths (lengths.drop (hlit + 257)), r)

/-- A stored block: after the next byte boundary, its length, the length's complement and
the bytes. -/
def storedBlock (out : ByteArray) (r : BitReader) : Option (ByteArray × BitReader) := do
  let r := r.align
  let len := (← r.byteAt 0) + 256 * (← r.byteAt 1)
  let nlen := (← r.byteAt 2) + 256 * (← r.byteAt 3)
  if len + nlen != 65535 then none
  let start := r.pos / 8 + 4
  if start + len > r.data.size then none
  pure (out ++ r.data.extract start (start + len), { r with pos := (start + len) * 8 })

/-- Blocks until the last one. -/
def inflateBlocks : Nat → ByteArray → BitReader → Option ByteArray
  | 0, _, _ => none
  | fuel + 1, out, r => do
    let (final, r) ← r.bit
    let (kind, r) ← r.bits 2
    let (out, r) ← match kind with
      | 0 => storedBlock out r
      | 1 => inflateCodes fixedLitLen fixedDist (r.remaining + 1) out r
      | 2 => do
        let (lit, dist, r) ← dynamicCodes r
        inflateCodes lit dist (r.remaining + 1) out r
      | _ => none
    if final = 1 then pure out else inflateBlocks fuel out r

/-- The data of a deflate stream. -/
def inflate (data : ByteArray) : Option ByteArray :=
  inflateBlocks (data.size * 8 + 1) ByteArray.empty { data }

/-- The data of a zlib stream: a deflate stream after a two-byte header naming the method. -/
def zlibDecompress (data : ByteArray) : Option ByteArray := do
  let cmf := (← data[0]?).toNat
  let flg := (← data[1]?).toNat
  if cmf % 16 != 8 || (cmf * 256 + flg) % 31 != 0 || flg / 32 % 2 = 1 then none
  inflate (data.extract 2 data.size)

end Raster
end Thumbnailer
