import Thumbnailer.Service.Value
import Thumbnailer.Time.Instant

/-!
# Sessions of steps

A stateful request carries a list of steps, each `{"op": name, ...}`. Every step updates the
state and yields a result; the answer lists, per step, the result beside a snapshot of the
state taken after it. An error in any step ends the whole request with that error.
-/

namespace Thumbnailer
namespace Service

/-- Runs steps over a state, pairing each result with a snapshot. -/
def runSteps {σ : Type} (s : σ) (steps : List Value) (step : σ → Value → String → Reply (Value × σ))
    (snap : σ → List (String × Value)) : Reply Value := do
  let (outs, _) ← steps.foldlM (fun (outs, st) j => do
    let (r, st) ← step st j (← j.text "op")
    pure (outs ++ [Value.obj (("result", r) :: snap st)], st)) ([], s)
  pure (.obj [("steps", .arr outs)])

/-- Runs the steps of a session over something that times its operations: the `k`-th step
happens at the `k`-th tick after creation, as for a caller that never waits. -/
def runClockedSteps {σ : Type} (s : σ) (steps : List Value) (step : σ → Instant → Value → String → Reply (Value × σ))
    (snap : σ → List (String × Value)) : Reply Value :=
  runSteps (0, s) steps (fun (k, st) j op => do
    let (r, st) ← step st (Instant.tick (k + 1)) j op
    pure (r, (k + 1, st))) fun ks => snap ks.2

/-- The error for a step a session does not know. -/
def unknownStep {α : Type} (family op : String) : Reply α :=
  bad ("unknown " ++ family ++ " op \"" ++ op ++ "\"")

/-- The instant `secs` whole seconds after creation, from a `secs` field. -/
def secsIn (j : Value) : Reply Instant := do
  let s ← j.u64 "secs"
  if s > i64Max then bad "secs too large" else pure (Instant.atSecs s)

end Service
end Thumbnailer
