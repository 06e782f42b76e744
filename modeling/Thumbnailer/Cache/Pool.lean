import Thumbnailer.Numeric.Word
import Thumbnailer.Time.Instant

/-!
# A budgeted pool of pixel buffers

Render workers borrow scratch buffers of `w · h · 4` bytes. The pool keeps entries, each
reserving some bytes against a budget (clamped to 16–512 MiB) and either lent out or free.

* `acquire` lends the free entry with the smallest reservation that is large enough (the
  first of equals, in entry order); otherwise it makes a new entry if the budget allows;
  otherwise it refuses and counts an exhaustion.
* `release` returns a lent entry. If the pool is over budget at that moment, the entry is
  dropped instead.
* `sweepAt` drops free entries idle for more than five minutes, and then, like
  `setCapacity`, free entries from the least recently used on until the pool fits its budget.

The pool keeps no clock: lending, returning and sweeping each take the instant they happen at,
which stamps the entries they make or hand back.

Entries sit in a vector; removing one moves the last entry into its place (`swapRemove`), and
that order decides among equals. `swapRemove_length` is what the pruning loop's bound rests
on; what the pool does for its callers is proved in `Thumbnailer.Proofs.Cache.PoolAcquire`,
`Thumbnailer.Proofs.Cache.PoolPruning` and `Thumbnailer.Proofs.Cache.Lending`.
-/

namespace Thumbnailer
namespace Cache

/-- One mebibyte. -/
def mebibyte : Nat := 1024 * 1024

/-- Clamps a pool budget to 16–512 MiB. -/
def clampPoolSize (bytes : Nat) : Nat := max (16 * mebibyte) (min bytes (512 * mebibyte))

/-- One pool entry. -/
structure Pool.Entry where
  id : Nat
  reserved : Nat
  lastUsed : Instant
  inUse : Bool
  deriving Repr

/-- The pool's state. -/
structure Pool where
  capacity : Nat
  entries : List Pool.Entry := []
  nextId : Nat := 0
  reuses : Nat := 0
  allocations : Nat := 0
  exhausted : Nat := 0

/-- Usage counters reported by a pool. -/
structure Pool.Stats where
  entries : Nat
  inUse : Nat
  bytesReserved : Nat
  capacity : Nat
  reuses : Nat
  allocations : Nat
  exhausted : Nat
  deriving Repr, DecidableEq

/-- Removes index `i`, moving the last element into its place. -/
def swapRemove {α : Type} (l : List α) (i : Nat) : List α :=
  match l.getLast? with
  | none => l
  | some last => if i + 1 < l.length then (l.set i last).dropLast else l.dropLast

theorem swapRemove_length {α : Type} (l : List α) (i : Nat) (h : i < l.length) :
    (swapRemove l i).length = l.length - 1 := by
  unfold swapRemove
  cases hl : l.getLast? with
  | none => simp [List.getLast?_eq_none_iff.mp hl] at h
  | some last =>
    simp only
    split <;> simp

namespace Pool

/-- A pool with the given budget (clamped). -/
def create (capacity : Nat) : Pool := { capacity := clampPoolSize capacity }

/-- Bytes reserved by all entries. -/
def reserved (p : Pool) : Nat := p.entries.foldr (fun e acc => e.reserved + acc) 0

/-- Lexicographic order on pairs. -/
def lexLt (a b : Nat × Nat) : Bool := a.1 < b.1 || (a.1 = b.1 && a.2 < b.2)

/-- One step of the scan for a least entry: entry `ei.1` at index `ei.2` replaces the best so far
(an index and its key) when it satisfies `ok` and ranks strictly first. -/
def argMinStep (ok : Entry → Bool) (key : Entry → Nat × Nat) (best : Option (Nat × (Nat × Nat)))
    (ei : Entry × Nat) : Option (Nat × (Nat × Nat)) :=
  if !ok ei.1 then best
  else match best with
    | none => some (ei.2, key ei.1)
    | some (j, k) => if lexLt (key ei.1) k then some (ei.2, key ei.1) else some (j, k)

/-- The index of the first entry minimising `key` among those satisfying `ok`. -/
def argMinBy (es : List Entry) (ok : Entry → Bool) (key : Entry → Nat × Nat) : Option Nat :=
  (es.zipIdx.foldl (argMinStep ok key) none).map (·.1)

/-- Lends a buffer of `w · h · 4` bytes at `now`, returning the entry's id. -/
def acquire (p : Pool) (w h : Nat) (now : Instant) : Except Overflow (Option Nat × Pool) := do
  let required ← checkedMul (w * h) 4
  match argMinBy p.entries (fun e => !e.inUse && e.reserved ≥ required) (fun e => (e.reserved, 0)) with
  | some i =>
    let e := p.entries[i]?.getD ⟨0, 0, Instant.origin, false⟩
    pure (some e.id, { p with reuses := p.reuses + 1,
                               entries := p.entries.set i { e with inUse := true } })
  | none =>
    let total ← checkedAdd p.reserved required
    if total > p.capacity then pure (none, { p with exhausted := p.exhausted + 1 })
    else
      pure (some p.nextId, { p with nextId := p.nextId + 1, allocations := p.allocations + 1,
                                     entries := p.entries ++ [⟨p.nextId, required, now, true⟩] })

/-- Returns the lent entry `id` at `now`; over budget, the entry is dropped instead. -/
def release (p : Pool) (id : Nat) (now : Instant) : Pool :=
  match p.entries.findIdx? (·.id = id) with
  | none => p
  | some i =>
    if p.reserved > p.capacity then { p with entries := swapRemove p.entries i }
    else { p with entries := p.entries.modify i fun e => { e with inUse := false, lastUsed := now } }

/-- Drops free entries, least recently used first, until the budget is respected; returns
how many went. The count of entries bounds the loop. -/
def prune (p : Pool) : Nat × Pool :=
  go p.entries.length 0 p
where
  go : Nat → Nat → Pool → Nat × Pool
    | 0, n, p => (n, p)
    | fuel + 1, n, p =>
      if p.reserved ≤ p.capacity then (n, p)
      else
        let key (e : Entry) : Nat × Nat := (e.lastUsed.secs, e.lastUsed.ticks)
        match argMinBy p.entries (fun e => !e.inUse) key with
        | none => (n, p)
        | some i => go fuel (n + 1) { p with entries := swapRemove p.entries i }

/-- Drops free entries idle for more than five minutes at `now`, then prunes to the budget;
returns how many entries went. -/
def sweepAt (p : Pool) (now : Instant) : Nat × Pool :=
  let kept := p.entries.filter fun e => e.inUse || !Instant.elapsedOver now e.lastUsed 300
  let idle := p.entries.length - kept.length
  let (pruned, p) := prune { p with entries := kept }
  (idle + pruned, p)

/-- A new budget (clamped), pruning free entries. -/
def setCapacity (p : Pool) (capacity : Nat) : Pool :=
  (prune { p with capacity := clampPoolSize capacity }).2

/-- Drops every free entry. -/
def clear (p : Pool) : Pool := { p with entries := p.entries.filter (·.inUse) }

/-- The usage counters. -/
def stats (p : Pool) : Stats where
  entries := p.entries.length
  inUse := (p.entries.filter (·.inUse)).length
  bytesReserved := p.reserved
  capacity := p.capacity
  reuses := p.reuses
  allocations := p.allocations
  exhausted := p.exhausted

/-- Lends a buffer and returns it at once, at `now`, as a codec does with its staging buffer. -/
def borrow (p : Pool) (w h : Nat) (now : Instant) : Except Overflow Pool := do
  match ← p.acquire w h now with
  | (some id, p) => pure (p.release id now)
  | (none, p) => pure p

end Pool

/-- A pool together with the guards its callers hold: (handle, entry id). Dropping a guard hands
its entry back. -/
structure Lent where
  pool : Pool
  held : List (Nat × Nat) := []
  next : Nat := 0

namespace Lent

/-- Lends a buffer of `w · h · 4` bytes to a new guard at `now`; returns the guard's handle. -/
def acquire (s : Lent) (w h : Nat) (now : Instant) : Except Overflow (Option Nat × Lent) := do
  match ← s.pool.acquire w h now with
  | (some id, p) => pure (some s.next, { pool := p, held := s.held ++ [(s.next, id)], next := s.next + 1 })
  | (none, p) => pure (none, { s with pool := p })

/-- Drops the guard with handle `hd` at `now`, handing its entry back; false when no such guard
is held. -/
def drop (s : Lent) (hd : Nat) (now : Instant) : Bool × Lent :=
  match s.held.lookup hd with
  | some id => (true, { s with pool := s.pool.release id now, held := s.held.filter (·.1 ≠ hd) })
  | none => (false, s)

end Lent
end Cache
end Thumbnailer
