/-!
# Render errors

Everything that can stop a page from becoming a bitmap, with its message. The request's own
faults (no document, a page out of range, an empty target) are final; the rest may go away
on a retry.

A render job can also fail because its worker panicked; `JobFailure` adds that case.
-/

namespace Thumbnailer
namespace Render

/-- Why a render failed. -/
inductive RenderError where
  | noDocument
  | invalidPage (page pageCount : Nat)
  | zeroTargetSize (width height : Nat)
  | emptyRaster (page : Nat)
  | source (page : Nat) (message : String)
  | gpu (message : String)
  | panicked (message : String)
  deriving DecidableEq, Repr

namespace RenderError

/-- The error's kind, as a name. -/
def kind : RenderError → String
  | .noDocument => "NoDocument"
  | .invalidPage .. => "InvalidPage"
  | .zeroTargetSize .. => "ZeroTargetSize"
  | .emptyRaster .. => "EmptyRaster"
  | .source .. => "Source"
  | .gpu .. => "Gpu"
  | .panicked .. => "Panicked"

/-- The error's message. -/
def message : RenderError → String
  | .noDocument => "no document loaded"
  | .invalidPage p n => "page " ++ toString p ++ " is out of range (document has " ++ toString n ++ " pages)"
  | .zeroTargetSize w h => "target size " ++ toString w ++ "x" ++ toString h ++ " is empty"
  | .emptyRaster p => "page " ++ toString p ++ " rendered to an empty image"
  | .source p m => "page " ++ toString p ++ " failed to render: " ++ m
  | .gpu m => "GPU rasterizer failed: " ++ m
  | .panicked m => "renderer panicked: " ++ m

/-- Whether retrying the same request could succeed: not when the request itself is at
fault. -/
def retryable : RenderError → Bool
  | .noDocument | .invalidPage .. | .zeroTargetSize .. => false
  | _ => true

end RenderError

/-- Why a render job failed. -/
inductive JobFailure where
  | render (e : RenderError)
  | workerPanicked (message : String)
  deriving DecidableEq, Repr

namespace JobFailure

/-- The failure's kind, as a name. -/
def kind : JobFailure → String
  | .render e => e.kind
  | .workerPanicked _ => "WorkerPanicked"

/-- The failure's message. -/
def message : JobFailure → String
  | .render e => e.message
  | .workerPanicked m => "render worker panicked: " ++ m

/-- Whether a retry could succeed; a panicked worker may well do better next time. -/
def retryable : JobFailure → Bool
  | .render e => e.retryable
  | .workerPanicked _ => true

/-- The failure of a job that ran: a renderer panic counts as the worker's. -/
def ofRender : RenderError → JobFailure
  | .panicked m => .workerPanicked m
  | e => .render e

end JobFailure

end Render
end Thumbnailer
