import CacheMeter.Binary64

/-!
# Hardware counters

A measurement reports what one monitored entity spent over an interval of time;
counters are the totals that such measurements add up to.  Totals saturate at the
largest word, and a share of the counters is cut off in proportion to time, in
double precision.

Main results:

- `toNat_saturatingAdd`: saturating addition is addition bounded by the largest
  word.
- `Counters.splitOff_of_le`: the share that covers everything left takes exactly
  what is left.
-/

namespace CacheMeter

/-! ## Measurements -/

/-- Counter deltas of one entity over the interval that ends at `endTime` and
lasts `duration` nanoseconds. -/
structure Measurement where
  entity : UInt32
  cycles : UInt64
  instructions : UInt64
  cacheMisses : UInt64
  endTime : UInt64
  duration : UInt64
deriving DecidableEq, Repr, Inhabited

/-- Where the measured interval begins on the circle of timestamps. -/
def Measurement.startTime (m : Measurement) : UInt64 :=
  m.endTime - m.duration

/-! ## Totals -/

/-- The sum of two words, or the largest word if the sum does not fit. -/
def saturatingAdd (a b : UInt64) : UInt64 :=
  if a.toNat + b.toNat < UInt64.size then a + b else UInt64.ofNat (UInt64.size - 1)

theorem toNat_saturatingAdd (a b : UInt64) :
    (saturatingAdd a b).toNat = min (a.toNat + b.toNat) (UInt64.size - 1) := by
  unfold saturatingAdd
  split
  next h =>
    rw [UInt64.toNat_add, Nat.mod_eq_of_lt h]
    omega
  next h =>
    rw [UInt64.toNat_ofNat_of_lt' (by decide)]
    omega

/-- Counter totals and the nanoseconds of measured time they cover. -/
structure Counters where
  cycles : UInt64 := 0
  instructions : UInt64 := 0
  cacheMisses : UInt64 := 0
  duration : UInt64 := 0
deriving DecidableEq, Repr, Inhabited

namespace Counters

/-- Nothing counted. -/
def zero : Counters := {}

/-- The counters of a whole measurement. -/
def ofMeasurement (m : Measurement) : Counters where
  cycles := m.cycles
  instructions := m.instructions
  cacheMisses := m.cacheMisses
  duration := m.duration

/-- Add two totals field by field, saturating. -/
def add (a b : Counters) : Counters where
  cycles := saturatingAdd a.cycles b.cycles
  instructions := saturatingAdd a.instructions b.instructions
  cacheMisses := saturatingAdd a.cacheMisses b.cacheMisses
  duration := saturatingAdd a.duration b.duration

instance : Add Counters := ⟨add⟩

/-! ## Shares in proportion to time -/

/-- The part of `count` that falls to `part` out of `whole` nanoseconds: the count
is scaled by the quotient in double precision and truncated. -/
def proportion (count part whole : UInt64) : UInt64 :=
  let fraction := Binary64.quotient (Binary64.ofWord part) (Binary64.ofWord whole)
  Binary64.toWord (Binary64.product (Binary64.ofWord count) fraction)

/-- What remains of `count` after taking `part` from it, at least zero. -/
def remainder (count part : UInt64) : UInt64 :=
  count - min part count

/-- Cut off the share that covers `duration` nanoseconds.  The first component is
the share, the second what is left.  A share that covers everything left takes
exactly that. -/
def splitOff (total : Counters) (duration : UInt64) : Counters × Counters :=
  if total.duration ≤ duration then (total, zero)
  else
    let share : Counters :=
      { cycles := proportion total.cycles duration total.duration
        instructions := proportion total.instructions duration total.duration
        cacheMisses := proportion total.cacheMisses duration total.duration
        duration := duration }
    (share,
      { cycles := remainder total.cycles share.cycles
        instructions := remainder total.instructions share.instructions
        cacheMisses := remainder total.cacheMisses share.cacheMisses
        duration := total.duration - duration })

theorem splitOff_of_le {total : Counters} {duration : UInt64}
    (h : total.duration ≤ duration) : total.splitOff duration = (total, zero) := by
  simp [splitOff, h]

/-- Cycles per instruction in double precision, if any instruction retired. -/
def cyclesPerInstruction (total : Counters) : Option Rat :=
  if total.instructions = 0 then none
  else
    some (Binary64.quotient (Binary64.ofWord total.cycles)
      (Binary64.ofWord total.instructions))

end Counters

end CacheMeter
