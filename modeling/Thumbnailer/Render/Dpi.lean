import Thumbnailer.Numeric.FloatOrder
import Thumbnailer.Page.Size
import Thumbnailer.Text.Blank

/-!
# Choosing a DPI

Thumbnails: the DPI is `base · min(tw / pw, th / ph) · quality · ratio`, clamped to 72–200,
where `base` is 72 for targets at most 150 pixels wide and 96 otherwise and `ratio` is the
device pixel ratio. An empty page or target gives 72. Results are memoised under a key that
truncates the page sides to whole points and `quality · 100` to an integer (NaN giving 0), so
a later call that agrees on the key gets the first call's answer. The memo keeps the values by
key and, beside them, a queue of the keys in the order they were stored: it holds 100 entries
and forgets the oldest first; a new device pixel ratio empties it.

Viewer: `base · max(0.1, zoom) · multiplier · ratio` per axis, clamped to 72–600, where a zoom
that is not finite counts as 1 and the multiplier comes from the quality preset.
-/

namespace Thumbnailer
namespace Render

/-- A device pixel ratio that is positive and finite, else 1. -/
def sanitizeRatio (r : Float) : Float := if r > 0 && r.isFinite then r else 1.0

/-- The memo key of a thumbnail DPI. -/
structure DpiKey where
  targetWidth : Nat
  targetHeight : Nat
  pageWidth : Int
  pageHeight : Int
  qualityPct : Int
  deriving DecidableEq, Repr

/-- How many results the memo keeps. -/
def memoCapacity : Nat := 100

/-- The memo: the value stored under each key, and the keys in the order they were stored. -/
structure DpiCache where
  values : List (DpiKey × Float) := []
  order : List DpiKey := []

namespace DpiCache

/-- The value stored under a key. -/
def get? (c : DpiCache) (k : DpiKey) : Option Float := c.values.lookup k

/-- The values without the one stored under `k`. -/
def eraseKey (values : List (DpiKey × Float)) (k : DpiKey) : List (DpiKey × Float) :=
  values.filter (·.1 != k)

/-- Pops the oldest keys, removing their values, while more than `memoCapacity` are queued. -/
def trim (values : List (DpiKey × Float)) : List DpiKey → DpiCache
  | [] => { values }
  | k :: rest =>
    if rest.length + 1 > memoCapacity then trim (eraseKey values k) rest
    else { values, order := k :: rest }

/-- Stores a value under `k`, replacing any; a key not stored before joins the back of the
queue, which is then trimmed. -/
def insert (c : DpiCache) (k : DpiKey) (d : Float) : DpiCache :=
  trim ((k, d) :: eraseKey c.values k) (if (c.get? k).isSome then c.order else c.order ++ [k])

/-- The number of stored values. -/
def size (c : DpiCache) : Nat := c.values.length

end DpiCache

/-- The thumbnail DPI calculator: a device pixel ratio and the memo. -/
structure DpiCalculator where
  ratio : Float
  cache : DpiCache := {}

namespace DpiCalculator

/-- A calculator for a device pixel ratio (sanitised). -/
def create (ratio : Float) : DpiCalculator := { ratio := sanitizeRatio ratio }

/-- The formula, without memo. -/
def formula (ratio : Float) (t : Page.Target) (p : Page.Size) (quality : Float) : Float :=
  let scale := minNum (Float.ofNat t.width / p.width) (Float.ofNat t.height / p.height)
  let base : Float := if t.width ≤ 150 then 72 else 96
  clampNum (base * scale * quality * ratio) 72 200

/-- The memo key: page sides truncated to whole points, quality to whole percent. -/
def keyOf (t : Page.Target) (p : Page.Size) (quality : Float) : DpiKey :=
  ⟨t.width, t.height, p.width.toInt64.toInt, p.height.toInt64.toInt, (quality * 100).toInt64.toInt⟩

/-- The DPI for a page in a target box, from the memo when the key is there. -/
def thumbnailDpi (c : DpiCalculator) (t : Page.Target) (p : Page.Size) (quality : Float) :
    Float × DpiCalculator :=
  if t.isEmpty || p.isEmpty then (72, c)
  else
    let k := keyOf t p quality
    match c.cache.get? k with
    | some d => (d, c)
    | none =>
      let d := formula c.ratio t p quality
      (d, { c with cache := c.cache.insert k d })

/-- A new device pixel ratio (sanitised); the memo is emptied when the ratio changes. -/
def setRatio (c : DpiCalculator) (r : Float) : DpiCalculator :=
  let r := sanitizeRatio r
  if c.ratio == r then c else { ratio := r, cache := {} }

/-- The number of memoised results. -/
def cachedEntries (c : DpiCalculator) : Nat := c.cache.size

/-- Forgets every memoised result. -/
def clear (c : DpiCalculator) : DpiCalculator := { c with cache := {} }

end DpiCalculator

/-- A quality preset for full-page viewing. -/
inductive Quality where
  | draft
  | normal
  | high
  | ultra
  deriving DecidableEq, Repr

/-- The DPI multiplier of a preset. -/
def Quality.multiplier : Quality → Float
  | .draft => 0.5
  | .normal => 1.0
  | .high => 1.5
  | .ultra => 2.0

/-- A preset from its name in any ASCII case; the error names the lower-cased text. -/
def Quality.read (s : String) : Except String Quality :=
  match Text.asciiLower s with
  | "draft" => .ok .draft
  | "normal" => .ok .normal
  | "high" => .ok .high
  | "ultra" => .ok .ultra
  | other => .error ("unknown render quality '" ++ other ++ "' (draft, normal, high, ultra)")

/-- The viewer's DPI profile. -/
structure ViewerProfile where
  baseX : Float
  baseY : Float
  quality : Quality

/-- A base DPI that is positive and finite, else 72. -/
def sanitizeBase (d : Float) : Float := if d > 0 && d.isFinite then d else 72

/-- A profile with sanitised base DPIs. -/
def ViewerProfile.create (x y : Float) (q : Quality) : ViewerProfile := ⟨sanitizeBase x, sanitizeBase y, q⟩

/-- The effective DPI at a zoom level on a display with the given pixel ratio. -/
def ViewerProfile.effective (v : ViewerProfile) (zoom ratio : Float) : Float × Float :=
  let ratio := sanitizeRatio ratio
  let zoom := if zoom.isFinite then maxNum zoom 0.1 else 1.0
  let factor := zoom * v.quality.multiplier * ratio
  (clampNum (v.baseX * factor) 72 600, clampNum (v.baseY * factor) 72 600)

end Render
end Thumbnailer
