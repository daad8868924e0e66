/-!
# The wrapping nanosecond timeline

Timestamps are nanosecond counts modulo `2 ^ 64`, so two of them are compared by
the short way round the circle, and slot boundaries form a grid on that circle.

Main results:

- `displacement` is the signed short way from one timestamp to another;
  `displacement_self` and `displacement_eq_zero` say when it vanishes.
- `gridStart` is the start of the grid slot that contains a timestamp, in word
  arithmetic; `gridIndex` is the number of that slot on the unbounded line.
-/

namespace CacheMeter.Timeline

/-! ## Signed distance -/

/-- Half the circle of timestamps, in nanoseconds. -/
def halfTurn : Nat := UInt64.size / 2

theorem halfTurn_eq : halfTurn = 9223372036854775808 := rfl

/-- The signed displacement from `b` to `a`, taking the short way round.
Exactly half a turn counts as backwards. -/
def displacement (a b : UInt64) : Int :=
  if (a - b).toNat < halfTurn then ((a - b).toNat : Int)
  else ((a - b).toNat : Int) - UInt64.size

@[simp]
theorem displacement_self (a : UInt64) : displacement a a = 0 := by
  simp [displacement, halfTurn_eq]

/-- Two timestamps are zero apart only when they are the same. -/
theorem displacement_eq_zero {a b : UInt64} : displacement a b = 0 ↔ a = b := by
  constructor
  · intro h
    have hlt := (a - b).toNat_lt
    have hz : (a - b).toNat = 0 := by
      rw [displacement, halfTurn_eq, UInt64.size] at h
      split at h <;> omega
    have hsub : a - b = 0 := UInt64.toNat_inj.mp (by simpa using hz)
    have hab : a - b + b = 0 + b := by rw [hsub]
    simpa using hab
  · rintro rfl
    exact displacement_self a

/-! ## The slot grid -/

/-- How many steps of `length` are needed to cover `distance`. -/
def stepsToCover (distance length : UInt64) : UInt64 :=
  distance / length + if distance % length = 0 then 0 else 1

/-- Start of the slot that contains `timestamp`, for slots of `length`
nanoseconds whose boundaries sit at `offset` modulo `length`.  Timestamps before
the first boundary land in a slot that starts below zero. -/
def gridStart (length offset timestamp : UInt64) : UInt64 :=
  if offset ≤ timestamp then
    offset + (timestamp - offset) / length * length
  else
    offset - stepsToCover (offset - timestamp) length * length

/-- Number of the grid slot that contains `timestamp`, counted from the slot that
starts at `offset`; slots before it have negative numbers. -/
def gridIndex (length offset timestamp : UInt64) : Int :=
  ((timestamp.toNat : Int) - offset.toNat) / length.toNat

end CacheMeter.Timeline
