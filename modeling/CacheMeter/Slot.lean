import CacheMeter.Counters
import CacheMeter.Table
import CacheMeter.Timeline

/-!
# Time slots

A slot is one fixed-width bucket of time with the totals that each entity
accumulated inside it.

Main results:

- `contains` and `overlap?` place instants and intervals relative to a slot,
  wrap-safe.
- `totalOf_record`: recording a share adds it to that entity's total and leaves
  every other entity's total alone.
-/

namespace CacheMeter

open Timeline

/-- One bucket of the sliding window: the time it covers and a total per entity. -/
structure Slot where
  startTime : UInt64
  endTime : UInt64
  totals : Table Counters := Table.empty
deriving DecidableEq, Inhabited

namespace Slot

/-- The empty slot of the given length that begins at `startTime`. -/
def fresh (startTime length : UInt64) : Slot where
  startTime := startTime
  endTime := startTime + length

/-- Whether no entity has an entry in the slot. -/
def isEmpty (slot : Slot) : Bool :=
  slot.totals.isEmpty

/-! ## Placing time in a slot -/

/-- Whether an instant lies in the slot; the end is excluded. -/
def contains (slot : Slot) (timestamp : UInt64) : Bool :=
  0 ≤ displacement timestamp slot.startTime && displacement timestamp slot.endTime < 0

/-- The part of an interval inside the slot, as first instant and end, if any. -/
def overlap? (slot : Slot) (first last : UInt64) : Option (UInt64 × UInt64) :=
  let lower := if 0 ≤ displacement first slot.startTime then first else slot.startTime
  let upper := if 0 ≤ displacement last slot.endTime then slot.endTime else last
  if 0 < displacement upper lower then some (lower, upper) else none

/-! ## Totals -/

/-- The total of an entity in the slot; zero for one without an entry. -/
def totalOf (slot : Slot) (entity : UInt32) : Counters :=
  (slot.totals.get? entity).getD Counters.zero

/-- Add a share to an entity's total, creating its entry. -/
def record (slot : Slot) (entity : UInt32) (share : Counters) : Slot :=
  { slot with totals := slot.totals.put entity (slot.totalOf entity + share) }

@[simp]
theorem startTime_record (slot : Slot) (entity : UInt32) (share : Counters) :
    (slot.record entity share).startTime = slot.startTime := rfl

@[simp]
theorem endTime_record (slot : Slot) (entity : UInt32) (share : Counters) :
    (slot.record entity share).endTime = slot.endTime := rfl

theorem totalOf_record (slot : Slot) (entity other : UInt32) (share : Counters) :
    (slot.record entity share).totalOf other =
      if entity = other then slot.totalOf other + share else slot.totalOf other := by
  by_cases h : entity = other
  · subst h
    simp [record, totalOf]
  · simp [record, totalOf, h]

end Slot

end CacheMeter
