import Thumbnailer.Numeric.Word

/-!
# Viewport priorities

Pages visible in the thumbnail strip render first (priority 0), pages within a margin of the
visible range next (priority 1, so scrolling finds them ready), everything else last
(priority 5). With no visible range every page gets priority 5. The margin range saturates at
0 and at the largest word.
-/

namespace Thumbnailer
namespace Schedule

/-- Priority of a visible page. -/
def visiblePriority : Int := 0

/-- Priority of a page within the margin. -/
def marginPriority : Int := 1

/-- Priority of any other page. -/
def defaultPriority : Int := 5

/-- The visible pages `first ..= last` and a margin, or nothing visible. -/
structure Viewport where
  visible : Option (Nat × Nat) := none
  margin : Nat := 0
  deriving DecidableEq, Repr

namespace Viewport

/-- Visible pages between two bounds given in either order. -/
def create (first last margin : Nat) : Viewport := ⟨some (min first last, max first last), margin⟩

/-- Nothing visible. -/
def hidden : Viewport := {}

/-- The visible range. -/
def visibleRange (v : Viewport) : Option (Nat × Nat) := v.visible

/-- The visible range widened by the margin, saturating. -/
def marginRange (v : Viewport) : Option (Nat × Nat) :=
  v.visible.map fun (a, b) => (a - v.margin, min (b + v.margin) wordMax)

/-- Whether a page is visible. -/
def isVisible (v : Viewport) (page : Nat) : Bool := v.visible.any fun (a, b) => a ≤ page && page ≤ b

/-- The queue priority of a page. -/
def priorityFor (v : Viewport) (page : Nat) : Int :=
  if v.isVisible page then visiblePriority
  else if v.marginRange.any (fun (a, b) => a ≤ page && page ≤ b) then marginPriority
  else defaultPriority

end Viewport

end Schedule
end Thumbnailer
