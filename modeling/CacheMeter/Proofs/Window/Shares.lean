import Mathlib
import CacheMeter.Counters
import CacheMeter.Proofs.Binary64.Rounding

/-!
# Shares add up

Cutting a share off some counters neither creates nor loses a count, although shares are
computed in double precision: a share that is not everything is at most what there was,
because the fraction of time it stands for is a double below one.

Main results:

- Theorem `Counters.amount_add_of_lt`: totals add up as long as they fit a word.
- Theorem `Counters.proportion_le`: a share is at most the count it is taken from.
- Theorem `Counters.amount_splitOff`: share and rest are what there was.
-/

namespace CacheMeter.Counters

/-! ## Quantities -/

/-- What counters count. -/
inductive Quantity
  | cycles
  | instructions
  | cacheMisses
  | duration
deriving DecidableEq, Repr

/-- How much of a quantity was counted. -/
def amount (total : Counters) : Quantity → Nat
  | .cycles => total.cycles.toNat
  | .instructions => total.instructions.toNat
  | .cacheMisses => total.cacheMisses.toNat
  | .duration => total.duration.toNat

@[simp]
theorem amount_zero (quantity : Quantity) : zero.amount quantity = 0 := by
  cases quantity <;> rfl

/-- An amount fits a word. -/
theorem amount_lt (total : Counters) (quantity : Quantity) :
    total.amount quantity < UInt64.size := by
  cases quantity <;> exact UInt64.toNat_lt _

/-- Amounts add up, as far as a word goes. -/
theorem amount_add (a b : Counters) (quantity : Quantity) :
    (a + b).amount quantity =
      min (a.amount quantity + b.amount quantity) (UInt64.size - 1) := by
  cases quantity <;> exact toNat_saturatingAdd _ _

/-- Totals that fit a word add up exactly. -/
theorem amount_add_of_lt {a b : Counters} {quantity : Quantity}
    (h : a.amount quantity + b.amount quantity < UInt64.size) :
    (a + b).amount quantity = a.amount quantity + b.amount quantity := by
  rw [amount_add]
  omega

/-! ## Shares of a count -/

/-- The word of a double is at most a word that the double does not exceed. -/
theorem toNat_toWord_le {x : Rat} {count : UInt64} (h : x ≤ count.toNat) :
    (Binary64.toWord x).toNat ≤ count.toNat := by
  have hfloor : x.floor.toNat ≤ count.toNat := by
    have hle : x.floor ≤ (count.toNat : Int) := by
      have hcast : (x.floor : Rat) ≤ count.toNat := (Rat.floor_le x).trans h
      exact_mod_cast hcast
    omega
  have hlt := count.toNat_lt
  rw [Binary64.toWord, UInt64.toNat_ofNat_of_lt' (by simp only [UInt64.size]; omega)]
  omega

/-- Words keep their order as doubles. -/
theorem ofWord_mono {a b : UInt64} (h : a ≤ b) : Binary64.ofWord a ≤ Binary64.ofWord b :=
  Binary64.nearest_mono (by exact_mod_cast UInt64.le_iff_toNat_le.mp h)

/-- Different words of at most fifty-three bits are different doubles. -/
theorem ofWord_lt_ofWord {part whole : UInt64} (hlt : part < whole)
    (hwhole : whole.toNat ≤ 2 ^ 53) : Binary64.ofWord part < Binary64.ofWord whole := by
  have hpart : part.toNat < whole.toNat := UInt64.lt_iff_toNat_lt.mp hlt
  have hexactPart : Binary64.ofWord part = part.toNat :=
    Binary64.nearest_natCast (by omega)
  have hexactWhole : Binary64.ofWord whole = whole.toNat :=
    Binary64.nearest_natCast hwhole
  rw [hexactPart, hexactWhole]
  exact_mod_cast hpart

/-- The share of a count that falls to a part of the time is at most the count, as long as the
part is a smaller double than the whole. -/
theorem proportion_le {count part whole : UInt64}
    (hlt : Binary64.ofWord part < Binary64.ofWord whole) :
    (proportion count part whole).toNat ≤ count.toNat :=
  toNat_toWord_le (Binary64.nearest_mul_le (Binary64.nearest_div_le hlt))

/-- What is left is the difference, or nothing. -/
theorem toNat_remainder (count part : UInt64) :
    (remainder count part).toNat = count.toNat - part.toNat := by
  have hmin : (min part count).toNat = min part.toNat count.toNat := by
    rw [UInt64.min_def]
    split_ifs with hle
    · exact (Nat.min_eq_left (UInt64.le_iff_toNat_le.mp hle)).symm
    · have hlt := UInt64.lt_iff_toNat_lt.mp (UInt64.not_le.mp hle)
      exact (Nat.min_eq_right hlt.le).symm
  have hle : min part count ≤ count := by
    rw [UInt64.le_iff_toNat_le, hmin]
    exact Nat.min_le_right _ _
  rw [remainder, UInt64.toNat_sub_of_le _ _ hle, hmin]
  omega

/-! ## Cutting off a share -/

/-- A part shorter than the whole takes a share of each amount. -/
theorem splitOff_of_lt {total : Counters} {duration : UInt64}
    (h : duration < total.duration) :
    total.splitOff duration =
      let share : Counters :=
        { cycles := proportion total.cycles duration total.duration
          instructions := proportion total.instructions duration total.duration
          cacheMisses := proportion total.cacheMisses duration total.duration
          duration := duration }
      (share,
        { cycles := remainder total.cycles share.cycles
          instructions := remainder total.instructions share.instructions
          cacheMisses := remainder total.cacheMisses share.cacheMisses
          duration := total.duration - duration }) := by
  rw [splitOff, if_neg (UInt64.not_le.mpr h)]

/-- The share covers as much time as it is cut for, or all there is. -/
theorem duration_share (total : Counters) (duration : UInt64) :
    (total.splitOff duration).1.duration.toNat = min total.duration.toNat duration.toNat := by
  by_cases h : total.duration ≤ duration
  · rw [splitOff_of_le h]
    exact (Nat.min_eq_left (UInt64.le_iff_toNat_le.mp h)).symm
  · have hlt := UInt64.not_le.mp h
    rw [splitOff_of_lt hlt]
    exact (Nat.min_eq_right (UInt64.lt_iff_toNat_lt.mp hlt).le).symm

/-- The rest is what there was less the share, or nothing if the share is more. -/
theorem amount_rest (total : Counters) (duration : UInt64) (quantity : Quantity) :
    (total.splitOff duration).2.amount quantity =
      total.amount quantity - (total.splitOff duration).1.amount quantity := by
  by_cases h : total.duration ≤ duration
  · rw [splitOff_of_le h, amount_zero, Nat.sub_self]
  · have hlt := UInt64.not_le.mp h
    rw [splitOff_of_lt hlt]
    cases quantity with
    | cycles | instructions | cacheMisses => exact toNat_remainder _ _
    | duration => exact UInt64.toNat_sub_of_le _ _ (UInt64.le_of_lt hlt)

/-- The time that is left is the time not covered by the share. -/
theorem duration_splitOff (total : Counters) (duration : UInt64) :
    (total.splitOff duration).2.duration.toNat = total.duration.toNat - duration.toNat := by
  have hrest := amount_rest total duration .duration
  simp only [amount, duration_share] at hrest
  omega

/-- A share that is cut off for a smaller double of time than there is takes no more than there
is. -/
theorem amount_share_le {total : Counters} {duration : UInt64}
    (h : duration < total.duration →
      Binary64.ofWord duration < Binary64.ofWord total.duration) (quantity : Quantity) :
    (total.splitOff duration).1.amount quantity ≤ total.amount quantity := by
  by_cases hle : total.duration ≤ duration
  · rw [splitOff_of_le hle]
  · have hlt := UInt64.not_le.mp hle
    rw [splitOff_of_lt hlt]
    cases quantity with
    | cycles | instructions | cacheMisses => exact proportion_le (h hlt)
    | duration => exact (UInt64.lt_iff_toNat_lt.mp hlt).le

/-- A share and what is left of the counters add up to the counters. -/
theorem amount_splitOff {total : Counters} (duration : UInt64)
    (hbound : total.duration.toNat ≤ 2 ^ 53) (quantity : Quantity) :
    (total.splitOff duration).1.amount quantity + (total.splitOff duration).2.amount quantity =
      total.amount quantity := by
  have hle : (total.splitOff duration).1.amount quantity ≤ total.amount quantity :=
    amount_share_le (fun hlt => ofWord_lt_ofWord hlt hbound) quantity
  rw [amount_rest]
  omega

end CacheMeter.Counters
