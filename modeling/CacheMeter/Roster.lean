import CacheMeter.Message
import CacheMeter.Table
import CacheMeter.Timeline

/-!
# Who is behind a monitoring identifier

The roster keeps what is known about the process behind each monitoring
identifier.  Updates are queued by timestamp and take effect only once the stream
of measurements has moved past them, so that slots are labelled with the metadata
of their time.

Main results:

- `enqueue` keeps equal timestamps in order of arrival; `length_enqueue`.
- `advance` applies the queued updates stamped before a timestamp;
  `pending_advance` says that each of them leaves the queue.
-/

namespace CacheMeter

open Timeline

namespace Roster

/-! ## Labels and updates -/

/-- What is known about a process.  A label outlives the release of its identifier,
so that slots recorded before the release can still be named. -/
structure Label where
  command : String
  processGroup : UInt32
  valid : Bool
deriving DecidableEq, Repr, Inhabited

/-- A change of the roster that waits for its time. -/
inductive Update
  | bind (rmid : UInt32) (label : Label)
  | release (rmid : UInt32)
deriving DecidableEq, Repr

/-- An update with its timestamp. -/
structure Pending where
  timestamp : UInt64
  update : Update
deriving DecidableEq, Repr

/-- The labels after an update.  Releasing an unknown identifier changes nothing. -/
def Update.apply (labels : Table Label) : Update → Table Label
  | .bind rmid label => labels.put rmid label
  | .release rmid =>
    match labels.get? rmid with
    | some label => labels.put rmid { label with valid := false }
    | none => labels

/-! ## The queue -/

/-- Insert an update into the reversed queue, newest first: it goes in front of the
first update that is not later than it, or to the end. -/
def insertNewest (item : Pending) : List Pending → List Pending
  | [] => [item]
  | newest :: older =>
    if displacement newest.timestamp item.timestamp ≤ 0 then item :: newest :: older
    else newest :: insertNewest item older

/-- Queue an update behind the last one that is not later than it. -/
def enqueue (item : Pending) (queue : List Pending) : List Pending :=
  (insertNewest item queue.reverse).reverse

@[simp]
theorem length_insertNewest (item : Pending) (queue : List Pending) :
    (insertNewest item queue).length = queue.length + 1 := by
  induction queue with
  | nil => rfl
  | cons newest older ih =>
    unfold insertNewest
    split <;> simp [ih]

@[simp]
theorem length_enqueue (item : Pending) (queue : List Pending) :
    (enqueue item queue).length = queue.length + 1 := by
  simp [enqueue]

/-- Whether an update is stamped strictly before a timestamp. -/
def Pending.isDue (timestamp : UInt64) (item : Pending) : Bool :=
  displacement item.timestamp timestamp < 0

end Roster

/-! ## The roster -/

/-- The labels in effect, and the updates queued, oldest first. -/
structure Roster where
  labels : Table Roster.Label := Table.empty
  queue : List Roster.Pending := []
deriving DecidableEq, Inhabited

namespace Roster

/-- A roster that knows nothing. -/
def empty : Roster := {}

/-- Queue the binding of an identifier. -/
def alloc (roster : Roster) (update : RmidAlloc) : Roster :=
  let label : Label :=
    { command := update.command.text
      processGroup := update.processGroup
      valid := true }
  { roster with queue := enqueue ⟨update.timestamp, .bind update.rmid label⟩ roster.queue }

/-- Queue the release of an identifier. -/
def free (roster : Roster) (update : RmidFree) : Roster :=
  { roster with queue := enqueue ⟨update.timestamp, .release update.rmid⟩ roster.queue }

/-- What is known about the process behind an identifier. -/
def get? (roster : Roster) (rmid : UInt32) : Option Label :=
  roster.labels.get? rmid

/-- Updates that wait for their time. -/
def pending (roster : Roster) : Nat :=
  roster.queue.length

/-- The queued updates that are due at a timestamp: the front of the queue up to the
first that is not. -/
def due (roster : Roster) (timestamp : UInt64) : List Pending :=
  roster.queue.takeWhile (Pending.isDue timestamp)

/-- Apply, in order, the queued updates that are due.  The first component counts
them. -/
def advance (roster : Roster) (timestamp : UInt64) : Nat × Roster :=
  let due := roster.due timestamp
  (due.length,
    { labels := due.foldl (fun labels item => item.update.apply labels) roster.labels
      queue := roster.queue.dropWhile (Pending.isDue timestamp) })

/-- What advancing applies is what leaves the queue. -/
theorem pending_advance (roster : Roster) (timestamp : UInt64) :
    (roster.advance timestamp).1 + (roster.advance timestamp).2.pending = roster.pending := by
  have h := List.takeWhile_append_dropWhile
    (p := Pending.isDue timestamp) (l := roster.queue)
  have hlength := congrArg List.length h
  rw [List.length_append] at hlength
  exact hlength

/-- Forget all labels and queued updates. -/
def reset (_ : Roster) : Roster :=
  empty

end Roster

end CacheMeter
