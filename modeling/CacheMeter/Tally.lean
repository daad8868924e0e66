import CacheMeter.Message

/-!
# Counts of messages

A tally counts messages by kind, samples reported lost and records that could not
be decoded.  Counters wrap at `2 ^ 64`; taking a snapshot starts them anew.

Main results:

- `Tally.record` and its relatives add to one counter each; `count_recordMany`.
- `Tally.snapshot` hands over the counts and leaves zeros; `count_snapshot` says
  that the snapshot holds what the tally held.
-/

namespace CacheMeter

/-- Counters per message kind, of samples lost and of decode errors. -/
structure Tally where
  measurements : UInt64 := 0
  rmidAllocs : UInt64 := 0
  rmidFrees : UInt64 := 0
  lostNotices : UInt64 := 0
  lostSamples : UInt64 := 0
  decodeErrors : UInt64 := 0
deriving DecidableEq, Repr, Inhabited

namespace Tally

open Message (Kind)

/-! ## Counting -/

/-- Every counter at zero. -/
def zero : Tally := {}

/-- The counter of a kind. -/
def count (tally : Tally) : Kind → UInt64
  | .measurement => tally.measurements
  | .rmidAlloc => tally.rmidAllocs
  | .rmidFree => tally.rmidFrees
  | .lost => tally.lostNotices

/-- Count `n` messages of a kind. -/
def recordMany (tally : Tally) (kind : Kind) (n : UInt64) : Tally :=
  match kind with
  | .measurement => { tally with measurements := tally.measurements + n }
  | .rmidAlloc => { tally with rmidAllocs := tally.rmidAllocs + n }
  | .rmidFree => { tally with rmidFrees := tally.rmidFrees + n }
  | .lost => { tally with lostNotices := tally.lostNotices + n }

/-- Count one message of a kind. -/
def record (tally : Tally) (kind : Kind) : Tally :=
  tally.recordMany kind 1

/-- Count samples reported lost. -/
def recordLost (tally : Tally) (lost : UInt64) : Tally :=
  { tally with lostSamples := tally.lostSamples + lost }

/-- Count a record that could not be decoded. -/
def recordDecodeError (tally : Tally) : Tally :=
  { tally with decodeErrors := tally.decodeErrors + 1 }

theorem count_recordMany (tally : Tally) (kind other : Kind) (n : UInt64) :
    (tally.recordMany kind n).count other =
      if kind = other then tally.count other + n else tally.count other := by
  cases kind <;> cases other <;> rfl

/-! ## Snapshots -/

/-- What a tally held when it was started anew; kinds with no message are left out. -/
structure Snapshot where
  messages : List (Kind × UInt64)
  lostSamples : UInt64
  decodeErrors : UInt64
deriving DecidableEq, Repr

/-- The count of a kind in a snapshot. -/
def Snapshot.count (snapshot : Snapshot) (kind : Kind) : UInt64 :=
  ((snapshot.messages.find? fun entry => entry.1 = kind).map Prod.snd).getD 0

/-- Whether nothing at all was counted. -/
def Snapshot.isEmpty (snapshot : Snapshot) : Bool :=
  snapshot.messages.isEmpty && snapshot.lostSamples = 0 && snapshot.decodeErrors = 0

/-- All messages of a snapshot together. -/
def Snapshot.total (snapshot : Snapshot) : Nat :=
  snapshot.messages.foldr (fun entry total => entry.2.toNat + total) 0

/-- Hand over the counts and start anew. -/
def snapshot (tally : Tally) : Snapshot × Tally :=
  ({ messages := (Kind.all.map fun kind => (kind, tally.count kind)).filter fun entry =>
        entry.2 ≠ 0
     lostSamples := tally.lostSamples
     decodeErrors := tally.decodeErrors },
    zero)

theorem count_snapshot (tally : Tally) (kind : Kind) :
    tally.snapshot.1.count kind = tally.count kind := by
  cases kind <;>
    simp only [snapshot, Snapshot.count, Kind.all, List.map_cons, List.map_nil, List.filter,
      count] <;>
    (repeat' split) <;> simp_all [List.find?]

end Tally

end CacheMeter
