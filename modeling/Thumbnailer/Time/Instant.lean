/-!
# Instants

The caches, the buffer pool and the generator read no clock of their own: every operation that
the program times takes the instant it happens at as an argument. The callers' instants are a
whole number of seconds after the objects were made plus a number of infinitesimal ticks:
`⟨s, k⟩` stands for `s` seconds and `k` ticks, ticks being smaller than any positive duration.
A session that never waits gives its steps the ticks `⟨0, 1⟩, ⟨0, 2⟩, …`, and a caller
that names a clock reading gives whole seconds.

Durations are compared with whole seconds or milliseconds only (`Instant.elapsedOver`,
`Instant.elapsedUnder`, `Instant.elapsedAtLeastMs`), and a later instant minus an earlier one
stops at zero, as saturating clock arithmetic does.
-/

namespace Thumbnailer

/-- Whole seconds after creation, plus infinitesimal ticks. -/
structure Instant where
  secs : Nat
  ticks : Nat
  deriving DecidableEq, Repr

namespace Instant

/-- Creation time. -/
def origin : Instant := ⟨0, 0⟩

/-- The `k`-th tick after creation. -/
def tick (k : Nat) : Instant := ⟨0, k⟩

/-- `s` whole seconds after creation. -/
def atSecs (s : Nat) : Instant := ⟨s, 0⟩

/-- Time order: seconds first, then ticks. -/
def before (a b : Instant) : Bool := a.secs < b.secs || (a.secs = b.secs && a.ticks < b.ticks)

/-- `now - t > limit` seconds, the difference stopping at zero. -/
def elapsedOver (now t : Instant) (limit : Nat) : Bool :=
  let ds : Int := (now.secs : Int) - t.secs
  ds > limit || (ds = limit && now.ticks > t.ticks)

/-- `now - t < limit` seconds, the difference stopping at zero. -/
def elapsedUnder (now t : Instant) (limit : Nat) : Bool :=
  let ds : Int := (now.secs : Int) - t.secs
  ds < limit || (ds = limit && now.ticks < t.ticks)

/-- `now - t ≥ ms` milliseconds, the difference stopping at zero: always for a zero interval,
and otherwise exactly when the seconds between them reach it, the ticks not falling behind. -/
def elapsedAtLeastMs (now t : Instant) (ms : Nat) : Bool :=
  let d : Int := ((now.secs : Int) - t.secs) * 1000
  ms = 0 || d > ms || (d = ms && now.ticks ≥ t.ticks)

end Instant
end Thumbnailer
