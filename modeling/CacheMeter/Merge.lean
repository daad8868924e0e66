import CacheMeter.Merge.IndexedHeap
import CacheMeter.Ring.View

/-!
# Merging rings by time

A merger reads many rings as one stream in time order.  Each ring contributes its
oldest unread record to an indexed heap; within a ring the order stays first in,
first out.  Reading happens in batches: records published after a batch was opened
wait for the next one.

Main results:

- `Merger.start`, `Merger.pop` and `Merger.finish` are the steps of a batch;
  `start_eq_error_iff` and `head_eq_error_iff` say when they are refused.
- `Merger.drain` lists the records of a batch in the order in which they come out.
-/

namespace CacheMeter

open CacheMeter.Ring

/-! ## Memory shared with producers -/

/-- The regions of all rings, by number. -/
abbrev Memory := Array Region

/-- The region with a given number; absent if there is none. -/
def Memory.region (memory : Memory) (index : Nat) : Region :=
  memory.getD index Region.absent

/-- A consumer's view together with the number of the region it reads. -/
structure Reader where
  region : Nat
  view : View
deriving DecidableEq, Repr, Inhabited

namespace Reader

/-- Bind a consumer to a region. -/
def attach (memory : Memory) (index : Nat) : Except Ring.Refusal Reader :=
  (View.attach (memory.region index)).map fun view => { region := index, view := view }

/-- Observe what the producer has published. -/
def startRead (reader : Reader) (memory : Memory) : Reader :=
  { reader with view := reader.view.startRead (memory.region reader.region) }

/-- The time of the current record, if there is one. -/
def headTime? (reader : Reader) (memory : Memory) : Option UInt64 :=
  reader.view.headTime? (memory.region reader.region)

/-- The type and payload of the current record. -/
def record? (reader : Reader) (memory : Memory) : Except Ring.Refusal (UInt32 × Bytes) :=
  reader.view.record? (memory.region reader.region)

/-- Consume the current record. -/
def pop (reader : Reader) (memory : Memory) : Except Ring.Refusal Reader :=
  (reader.view.pop (memory.region reader.region)).map fun view =>
    { reader with view := view }

/-- Release consumed space to the producer. -/
def finishRead (reader : Reader) (memory : Memory) : Memory :=
  memory.modify reader.region fun region => reader.view.finishRead region

end Reader

namespace Merge

/-! ## Mergers -/

/-- Why a merge operation is refused. -/
inductive Refusal
  | noRings
  | alreadyOpen
  | notOpen
  | noRecords
  | ring (cause : Ring.Refusal)
deriving DecidableEq, Repr

/-- The text shown for a refusal. -/
def Refusal.message : Refusal → String
  | .noRings => "merger has no rings"
  | .alreadyOpen => "merger read batch is already open"
  | .notOpen => "merger read batch is not open"
  | .noRecords => "no records available"
  | .ring cause => cause.message

/-- A record as it comes out of a merge. -/
structure MergedRecord where
  time : UInt64
  ring : Nat
  recordType : UInt32
  payload : Bytes
deriving DecidableEq, Repr

end Merge

open Merge

/-- The rings being merged, the heap of their current records, and whether a batch
is open. -/
structure Merger where
  readers : Array Reader := #[]
  heap : IndexedHeap := IndexedHeap.empty
  isOpen : Bool := false
deriving DecidableEq, Repr, Inhabited

/-- What came out of a batch: the records, the merger after them, and why no more could
be taken out, if that was refused. -/
structure Merge.Drained where
  records : List MergedRecord := []
  merger : Merger
  refusal : Option Merge.Refusal := none
deriving DecidableEq, Repr

namespace Merger

/-- The reader with a given number. -/
def reader (merger : Merger) (index : Nat) : Reader :=
  merger.readers.getD index default

/-- Whether no ring has an unread record in this batch. -/
def isEmpty (merger : Merger) : Bool :=
  merger.heap.isEmpty

/-- Register a ring between batches.  Its number is the order of registration. -/
def addRing (merger : Merger) (reader : Reader) : Except Merge.Refusal Merger :=
  if merger.isOpen then .error .alreadyOpen
  else .ok { merger with readers := merger.readers.push reader }

/-- A heap with a key for every listed ring that has an unread record and is not held
already. -/
def seed (memory : Memory) (readers : List (Reader × Nat)) (heap : IndexedHeap) :
    IndexedHeap :=
  readers.foldl (fun heap (reader, index) =>
    if heap.contains index then heap
    else
      match reader.headTime? memory with
      | some time => heap.set index time
      | none => heap) heap

/-- Open a batch: observe what every producer has published and key the rings that
have unread records. -/
def start (merger : Merger) (memory : Memory) : Except Merge.Refusal Merger :=
  if merger.readers.isEmpty then .error .noRings
  else if merger.isOpen then .error .alreadyOpen
  else
    let readers := merger.readers.map fun reader => reader.startRead memory
    .ok
      { readers := readers
        heap := seed memory readers.toList.zipIdx merger.heap
        isOpen := true }

/-- The entry of the oldest record in the batch. -/
def head (merger : Merger) : Except Merge.Refusal Entry :=
  if !merger.isOpen then .error .notOpen
  else
    match merger.heap.peek? with
    | some entry => .ok entry
    | none => .error .noRecords

/-- Key a ring by its current record, or drop it if it has none left. -/
def rekey (heap : IndexedHeap) (ring : Nat) : Option UInt64 → IndexedHeap
  | some time => heap.set ring time
  | none => (heap.remove ring).2

/-- Consume the oldest record and key its ring anew. -/
def pop (merger : Merger) (memory : Memory) : Except Merge.Refusal Merger := do
  let entry ← merger.head
  match (merger.reader entry.ring).pop memory with
  | .error cause => .error (.ring cause)
  | .ok popped =>
    .ok
      { merger with
        readers := merger.readers.setIfInBounds entry.ring popped
        heap := rekey merger.heap entry.ring (popped.headTime? memory) }

/-- Release consumed space on every ring and close the batch. -/
def finish (merger : Merger) (memory : Memory) : Merger × Memory :=
  ({ merger with isOpen := false },
    merger.readers.foldl (fun memory reader => reader.finishRead memory) memory)

/-- The oldest record in the batch. -/
def current (merger : Merger) (memory : Memory) : Except Merge.Refusal MergedRecord := do
  let entry ← merger.head
  match (merger.reader entry.ring).record? memory with
  | .error cause => .error (.ring cause)
  | .ok (recordType, payload) =>
    .ok
      { time := entry.time
        ring := entry.ring
        recordType := recordType
        payload := payload }

/-- Unread bytes over all rings.  Every record takes up at least one of them, so no
batch holds more records than this. -/
def backlog (merger : Merger) : Nat :=
  merger.readers.toList.foldr (fun reader total => reader.view.used + total) 0

/-- Take at most `limit` records out of the batch, oldest first, up to the first
refusal. -/
def drainUpTo (memory : Memory) : Nat → Merger → Drained
  | 0, merger => { merger := merger }
  | limit + 1, merger =>
    if merger.isEmpty then { merger := merger }
    else
      match merger.current memory, merger.pop memory with
      | .ok record, .ok popped =>
        let rest := drainUpTo memory limit popped
        { rest with records := record :: rest.records }
      | .error refusal, _ | _, .error refusal =>
        { merger := merger, refusal := some refusal }

/-- Take every record out of the batch, oldest first.  The step after the last record
comes upon a ring that is keyed without one. -/
def drain (merger : Merger) (memory : Memory) : Drained :=
  drainUpTo memory (merger.backlog + 1) merger

/-! ## Refusals -/

theorem start_eq_error_iff {merger : Merger} {memory : Memory} {refusal : Merge.Refusal} :
    merger.start memory = .error refusal ↔
      (merger.readers.isEmpty = true ∧ refusal = .noRings) ∨
        (merger.readers.isEmpty = false ∧ merger.isOpen = true ∧ refusal = .alreadyOpen) := by
  unfold start
  cases merger.readers.isEmpty <;> cases merger.isOpen <;>
    simp [eq_comm]

theorem head_eq_error_iff {merger : Merger} {refusal : Merge.Refusal} :
    merger.head = .error refusal ↔
      (merger.isOpen = false ∧ refusal = .notOpen) ∨
        (merger.isOpen = true ∧ merger.heap.peek? = none ∧ refusal = .noRecords) := by
  unfold head
  cases merger.isOpen <;> cases merger.heap.peek? <;> simp [eq_comm]

end Merger

end CacheMeter
