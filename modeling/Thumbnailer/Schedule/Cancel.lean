/-!
# Cancellation tokens

A token is a shared flag: cancelling it cancels every clone, for good. Tokens are modelled as
handles into a table of flags; a clone is a new handle on the same flag.
-/

namespace Thumbnailer
namespace Schedule

/-- Handles and the flags they share. -/
structure TokenTable where
  /-- The flag each handle points to. -/
  handles : List Nat := []
  /-- The flags. -/
  flags : List Bool := []
  deriving DecidableEq, Repr

namespace TokenTable

/-- A new live token; answers its handle. -/
def fresh (t : TokenTable) : Nat × TokenTable :=
  (t.handles.length, { handles := t.handles ++ [t.flags.length], flags := t.flags ++ [false] })

/-- A new handle on the flag of handle `h`, if `h` exists. -/
def clone (t : TokenTable) (h : Nat) : Option (Nat × TokenTable) :=
  t.handles[h]?.map fun f => (t.handles.length, { t with handles := t.handles ++ [f] })

/-- Whether the token of handle `h` is cancelled, if `h` exists. -/
def isCancelled (t : TokenTable) (h : Nat) : Option Bool :=
  t.handles[h]?.map fun f => t.flags[f]?.getD false

/-- Cancels the token of handle `h` and all its clones, if `h` exists. -/
def cancel (t : TokenTable) (h : Nat) : Option TokenTable :=
  t.handles[h]?.map fun f => { t with flags := t.flags.set f true }

/-- The flag of every handle, in handle order. -/
def states (t : TokenTable) : List Bool := t.handles.map fun f => t.flags[f]?.getD false

end TokenTable

/-- The message of a check on a cancelled token. -/
def cancelledMessage : String := "job cancelled"

end Schedule
end Thumbnailer
