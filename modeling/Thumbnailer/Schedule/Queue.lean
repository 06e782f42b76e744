import Thumbnailer.Schedule.Request

/-!
# The request queue

Waiting requests, most urgent first: ordered by priority, then by submission instant, then by
the sequence number each push assigns. The queue is kept as a list sorted by that rank, so
`pop` takes the head. A push is refused when the same work is already waiting.

Removals (`clear`, `removeWhere`) return what they removed in queue order; `setPriority`
changes the priority of every waiting request for a page and restores the order.
-/

namespace Thumbnailer
namespace Schedule

/-- A waiting request and its push sequence number. -/
structure Queued where
  request : Request
  seq : Nat

/-- The rank of a waiting request; smaller leaves first. -/
def Queued.rank (q : Queued) : Int × Nat × Nat := (q.request.priority, q.request.submittedAt, q.seq)

/-- Lexicographic order on ranks. -/
def rankLe (a b : Int × Nat × Nat) : Bool :=
  a.1 < b.1 || (a.1 = b.1 && (a.2.1 < b.2.1 || (a.2.1 = b.2.1 && a.2.2 ≤ b.2.2)))

/-- Whether `a` leaves no later than `b`. -/
def Queued.le (a b : Queued) : Bool := rankLe a.rank b.rank

/-- The queue: waiting requests sorted by rank, and the next sequence number. -/
structure Queue where
  items : List Queued := []
  nextSeq : Nat := 0

namespace Queue

/-- Inserts before the first element that ranks after it. -/
def insertSorted (q : Queued) : List Queued → List Queued
  | [] => [q]
  | x :: xs => if Queued.le q x then q :: x :: xs else x :: insertSorted q xs

/-- Queues a request unless the same work is waiting; returns whether it was added. -/
def push (qu : Queue) (r : Request) : Bool × Queue :=
  if qu.items.any (·.request.sameWork r) then (false, qu)
  else (true, { items := insertSorted ⟨r, qu.nextSeq⟩ qu.items, nextSeq := qu.nextSeq + 1 })

/-- Takes the most urgent request. -/
def pop (qu : Queue) : Option Request × Queue :=
  match qu.items with
  | [] => (none, qu)
  | x :: xs => (some x.request, { qu with items := xs })

/-- The number of waiting requests. -/
def size (qu : Queue) : Nat := qu.items.length

/-- Whether a request for the page is waiting. -/
def containsPage (qu : Queue) (page : Nat) : Bool := qu.items.any (·.request.page == page)

/-- Removes the requests satisfying `p`, returning them in queue order. -/
def removeWhere (qu : Queue) (p : Request → Bool) : List Request × Queue :=
  ((qu.items.filter (p ·.request)).map (·.request), { qu with items := qu.items.filter (!p ·.request) })

/-- Removes everything, returning it in queue order. -/
def clear (qu : Queue) : List Request × Queue := qu.removeWhere fun _ => true

/-- Sets the priority of every waiting request for `page`, restoring the order; returns how
many changed. -/
def setPriority (qu : Queue) (page : Nat) (priority : Int) : Nat × Queue :=
  let hit := fun (x : Queued) => x.request.page == page
  let items := qu.items.map fun x =>
    if hit x then { x with request := { x.request with priority } } else x
  ((qu.items.filter hit).length, { qu with items := items.mergeSort Queued.le })

/-- The waiting requests in queue order. -/
def toList (qu : Queue) : List Request := qu.items.map (·.request)

end Queue

end Schedule
end Thumbnailer
