/-!
# Page states

Where each page is in the generation pipeline:

```
Idle → Queued → Rendering → Cached | Failed
         │          │
         └──────────┴──→ Cancelled
Rendering → Queued             (retry)
Cached | Failed | Cancelled → Queued   (requested again)
```

Any state may go back to `Idle`; staying put is always allowed. The table holds the pages
that are not idle; a refused transition changes nothing.
-/

namespace Thumbnailer
namespace Generator

/-- A page's place in the pipeline. -/
inductive PageState where
  | idle
  | queued
  | rendering
  | cached
  | failed
  | cancelled
  deriving DecidableEq, Repr

namespace PageState

/-- Every state, in declaration order. -/
def all : List PageState := [.idle, .queued, .rendering, .cached, .failed, .cancelled]

/-- The allowed moves between different states. -/
def canTransitionTo : PageState → PageState → Bool
  | _, .idle => true
  | .idle, .queued | .cached, .queued | .failed, .queued | .cancelled, .queued => true
  | .rendering, .queued => true
  | .queued, .rendering => true
  | .rendering, .cached | .rendering, .failed => true
  | .queued, .cancelled | .rendering, .cancelled => true
  | _, _ => false

/-- Queued or rendering. -/
def isPending : PageState → Bool
  | .queued | .rendering => true
  | _ => false

/-- The state's name. -/
def name : PageState → String
  | .idle => "Idle"
  | .queued => "Queued"
  | .rendering => "Rendering"
  | .cached => "Cached"
  | .failed => "Failed"
  | .cancelled => "Cancelled"

/-- A state from its name. -/
def ofName? (s : String) : Option PageState := all.find? (·.name == s)

end PageState

/-- The states of the pages that are not idle. -/
structure PageStates where
  entries : List (Nat × PageState) := []

namespace PageStates

/-- The state of a page; untouched pages are idle. -/
def get (t : PageStates) (page : Nat) : PageState := (t.entries.lookup page).getD .idle

/-- Moves a page to `next` if allowed; answers whether the page is now in `next`. -/
def transition (t : PageStates) (page : Nat) (next : PageState) : Bool × PageStates :=
  let cur := t.get page
  if cur = next then (true, t)
  else if !cur.canTransitionTo next then (false, t)
  else
    let rest := t.entries.filter (·.1 != page)
    (true, ⟨if next = .idle then rest else rest ++ [(page, next)]⟩)

/-- How many pages are in a state (never counting idle ones). -/
def count (t : PageStates) (s : PageState) : Nat := (t.entries.filter (·.2 == s)).length

/-- Every page that is not idle, with its state, by page. -/
def snapshot (t : PageStates) : List (Nat × PageState) := t.entries.mergeSort fun a b => a.1 ≤ b.1

/-- Every page back to idle. -/
def clear (_ : PageStates) : PageStates := {}

end PageStates

end Generator
end Thumbnailer
