/-!
# Rejected thumbnail requests

A request the generator refuses before it reaches the queue, with the message it reports.
-/

namespace Thumbnailer
namespace Generator

/-- Why a request was refused. -/
inductive Rejection where
  | noDocument
  | invalidPage (page pageCount : Nat)
  | zeroTargetSize (width height : Nat)
  deriving DecidableEq, Repr

/-- The refusal's kind, as a name. -/
def Rejection.kind : Rejection → String
  | .noDocument => "NoDocument"
  | .invalidPage .. => "InvalidPage"
  | .zeroTargetSize .. => "ZeroTargetSize"

/-- The refusal's message. -/
def Rejection.message : Rejection → String
  | .noDocument => "No document loaded"
  | .invalidPage p n => "Invalid page number " ++ toString p ++ " (document has " ++ toString n ++ " pages)"
  | .zeroTargetSize w h => "Thumbnail size " ++ toString w ++ "x" ++ toString h ++ " is empty"

end Generator
end Thumbnailer
