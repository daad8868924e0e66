import Mathlib
import CacheMeter.Timeline

/-!
# Offsets on the circle

Positions on the circle of timestamps are measured from a base, going forward.  Among
timestamps that all lie within half of the circle from the base, comparing by the short way
round compares these offsets.

Main results:

- Theorem `displacement_eq_offset_of_lt`: displacements are differences of offsets.
- Theorem `displacement_add_le`: what a step covers is not ahead any more.
- Theorem `displacement_eq_sub`: positions relative to one timestamp give the way between two
  others, as long as these are less than half of the circle apart.
-/

namespace CacheMeter.Timeline

variable {base a b : UInt64}

/-- How far a timestamp lies past `base`, going forward round the circle. -/
def offset (base timestamp : UInt64) : Nat :=
  (timestamp - base).toNat

@[simp]
theorem offset_self (base : UInt64) : offset base base = 0 := by
  simp [offset]

theorem offset_add {length : UInt64} (h : offset base a + length.toNat < UInt64.size) :
    offset base (a + length) = offset base a + length.toNat := by
  have hsplit : a + length - base = a - base + length := by grind
  rw [offset, hsplit, UInt64.toNat_add]
  exact Nat.mod_eq_of_lt h

/-- The way between two timestamps is the difference of their offsets. -/
theorem toNat_sub_eq_offset (h : offset base b ≤ offset base a) :
    (a - b).toNat = offset base a - offset base b := by
  have hsplit : a - b = (a - base) - (b - base) := by grind
  rw [hsplit]
  exact UInt64.toNat_sub_of_le _ _ (UInt64.le_iff_toNat_le.mpr h)

/-- Within half of the circle the short way round is the difference of offsets. -/
theorem displacement_eq_offset_of_lt (ha : offset base a < halfTurn)
    (hb : offset base b < halfTurn) :
    displacement a b = (offset base a : Int) - offset base b := by
  rw [halfTurn_eq] at ha hb
  rcases Nat.lt_or_ge (offset base a) (offset base b) with hlt | hle
  · have hsub := toNat_sub_eq_offset hlt.le
    have hneg : (a - b).toNat = UInt64.size - (b - a).toNat := by
      have hflip : a - b = 0 - (b - a) := by grind
      have hpos := (b - a).toNat_lt
      rw [hflip, UInt64.toNat_sub, UInt64.toNat_zero, UInt64.size]
      omega
    have hsize : UInt64.size = 18446744073709551616 := rfl
    rw [displacement, hneg, hsub, halfTurn_eq, hsize, if_neg (by omega)]
    omega
  · have hsub := toNat_sub_eq_offset hle
    rw [displacement, hsub, halfTurn_eq, if_pos (by omega)]
    omega

theorem displacement_eq_offset (ha : offset base a ≤ 2 ^ 62) (hb : offset base b ≤ 2 ^ 62) :
    displacement a b = (offset base a : Int) - offset base b :=
  displacement_eq_offset_of_lt (ha.trans_lt (by decide)) (hb.trans_lt (by decide))

/-- Different timestamps lie at different offsets. -/
theorem offset_injective (base : UInt64) : Function.Injective (offset base) := by
  intro a b h
  have hsub : a - base = b - base := UInt64.toNat_inj.mp h
  grind

/-- The way forward that does not go round the end of the timeline. -/
theorem displacement_of_le (hle : b ≤ a) (hahead : 0 < displacement a b) :
    displacement a b = (a.toNat : Int) - b.toNat := by
  have hsub := UInt64.toNat_sub_of_le _ _ hle
  have hle' := UInt64.le_iff_toNat_le.mp hle
  have hlt := a.toNat_lt
  have hsize : UInt64.size = 18446744073709551616 := rfl
  rw [displacement, halfTurn_eq, hsize, hsub] at hahead ⊢
  split_ifs at * <;> omega

/-- The short way round is the same after two equal steps. -/
theorem displacement_add_right (a b step : UInt64) :
    displacement (a + step) (b + step) = displacement a b := by
  have hsub : a + step - (b + step) = a - b := by grind
  rw [displacement, displacement, hsub]

/-- A step back shortens the way. -/
theorem displacement_sub_left {a b back : UInt64} (hahead : 0 < displacement a b)
    (hback : back.toNat ≤ 2 ^ 62) : displacement (a - back) b = displacement a b - back.toNat := by
  have hsplit : a - back - b = (a - b) - back := by grind
  have hlt := (a - b).toNat_lt
  have hsize : UInt64.size = 18446744073709551616 := rfl
  rw [displacement, halfTurn_eq, hsize] at hahead ⊢
  rw [displacement, halfTurn_eq, hsize, hsplit, UInt64.toNat_sub]
  split_ifs at * <;> omega

/-- A timestamp is not ahead of one that was moved past it. -/
theorem displacement_add_le {step : UInt64} (hahead : 0 < displacement a b)
    (hstep : displacement a b ≤ step.toNat) (hbound : step.toNat < 2 ^ 63) :
    displacement a (b + step) ≤ 0 := by
  have hsplit : a - (b + step) = (a - b) - step := by grind
  have hlt := (a - b).toNat_lt
  have hsize : UInt64.size = 18446744073709551616 := rfl
  rw [displacement, halfTurn_eq, hsize] at hahead hstep
  rw [displacement, halfTurn_eq, hsize, hsplit, UInt64.toNat_sub]
  split_ifs at * <;> omega

/-! ## Signed positions -/

/-- The way forward is a difference of words. -/
theorem toNat_sub_of_displacement {distance : Nat} (h : displacement a b = distance) :
    (a - b).toNat = distance := by
  have hlt := (a - b).toNat_lt
  have hsize : UInt64.size = 18446744073709551616 := rfl
  rw [displacement, halfTurn_eq, hsize] at h
  split_ifs at h <;> omega

/-- A timestamp ahead of another is reached by a step forward. -/
theorem eq_add_of_displacement {distance : Nat} (h : displacement a b = distance) :
    a = b + UInt64.ofNat distance := by
  have hword : a - b = UInt64.ofNat distance := by
    rw [← toNat_sub_of_displacement h, UInt64.ofNat_toNat]
  rw [← hword]
  grind

/-- The way between two timestamps is the difference of their positions relative to a third
one, unless the short way round is the other one. -/
theorem displacement_eq_sub (hlow : -(2 ^ 63) ≤ displacement a base - displacement b base)
    (hhigh : displacement a base - displacement b base < 2 ^ 63) :
    displacement a b = displacement a base - displacement b base := by
  have hsplit : a - b = (a - base) - (b - base) := by grind
  have ha := (a - base).toNat_lt
  have hb := (b - base).toNat_lt
  have hsize : UInt64.size = 18446744073709551616 := rfl
  simp only [displacement, halfTurn_eq, hsize, hsplit, UInt64.toNat_sub] at *
  split_ifs at * <;> omega

/-- A step forward adds to the position, as long as it does not lead half of the circle
away. -/
theorem displacement_add_step {step : UInt64}
    (h : displacement a base + step.toNat < 2 ^ 63) :
    displacement (a + step) base = displacement a base + step.toNat := by
  have hsplit : a + step - base = (a - base) + step := by grind
  have ha := (a - base).toNat_lt
  have hstep := step.toNat_lt
  have hsize : UInt64.size = 18446744073709551616 := rfl
  simp only [displacement, halfTurn_eq, hsize, hsplit, UInt64.toNat_add] at *
  split_ifs at * <;> omega

/-- A step back takes from the position, as long as it does not lead half of the circle
away. -/
theorem displacement_sub_step {step : UInt64}
    (h : -(2 ^ 63) ≤ displacement a base - step.toNat) :
    displacement (a - step) base = displacement a base - step.toNat := by
  have hsplit : a - step - base = (a - base) - step := by grind
  have ha := (a - base).toNat_lt
  have hstep := step.toNat_lt
  have hsize : UInt64.size = 18446744073709551616 := rfl
  simp only [displacement, halfTurn_eq, hsize, hsplit, UInt64.toNat_sub] at *
  split_ifs at * <;> omega

/-- What lies some way before a timestamp is as much further back. -/
theorem displacement_eq_sub_offset (h : -(2 ^ 63) ≤ displacement a base - offset b a) :
    displacement b base = displacement a base - offset b a := by
  have hsplit : b = a - (a - b) := by grind
  conv_lhs => rw [hsplit]
  exact displacement_sub_step h

end CacheMeter.Timeline
