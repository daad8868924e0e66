import Mathlib
import CacheMeter.Proofs.Window.Shares

/-!
# Shares beyond what there is

Cutting off a share conserves the time for all counters and durations, and nothing remains once
the time is used up.  A count is conserved unless its share is larger than the count.  That takes
two roundings: the time cut off and the time there is are different words but the same double, so
that the fraction is one although some time is left, and the count is rounded up.  Neither happens
below `2 ^ 53`.

Main results:

- Definition `Counters.excess`: what a share takes beyond what there is.
- Theorem `Counters.excess_pos_iff`: when it takes more than there is.
- Theorem `Counters.sum_splitAll`: shares cut off one after the other add up to what there was and
  their excesses.
- Theorem `Counters.splitOff_conserves_iff`: exactly when shares add up to what there was.
-/

namespace CacheMeter.Counters

/-! ## One share -/

/-- How much of a quantity a share takes beyond what there is. -/
def excess (total : Counters) (duration : UInt64) (quantity : Quantity) : Nat :=
  (total.splitOff duration).1.amount quantity - total.amount quantity

/-- A share and what is left add up to what there was and the excess. -/
theorem amount_splitOff_excess (total : Counters) (duration : UInt64) (quantity : Quantity) :
    (total.splitOff duration).1.amount quantity + (total.splitOff duration).2.amount quantity =
      total.amount quantity + total.excess duration quantity := by
  rw [amount_rest, excess]
  omega

/-- An amount as the word that its double is truncated to. -/
def inDoubles (amount : Nat) : Nat :=
  (Binary64.toWord (Binary64.nearest amount)).toNat

/-- Amounts of at most fifty-three bits are the same in doubles. -/
theorem inDoubles_of_le {amount : Nat} (h : amount ≤ 2 ^ 53) : inDoubles amount = amount := by
  have hfloor : (amount : Rat).floor = amount := by
    exact_mod_cast Rat.floor_intCast amount
  have hword : min amount (UInt64.size - 1) = amount := by
    simp only [UInt64.size]
    omega
  rw [inDoubles, Binary64.nearest_natCast h, Binary64.toWord, hfloor, Int.toNat_natCast, hword]
  exact UInt64.toNat_ofNat_of_lt' (by simp only [UInt64.size]; omega)

/-- Some time is to be left, but in doubles none is, and a count is more in doubles than it is. -/
structure Overdraws (total : Counters) (duration : UInt64) (quantity : Quantity) : Prop where
  ne_duration : quantity ≠ .duration
  lt : duration < total.duration
  sameDouble : Binary64.ofWord duration = Binary64.ofWord total.duration
  lt_inDoubles : total.amount quantity < inDoubles (total.amount quantity)

instance (total : Counters) (duration : UInt64) (quantity : Quantity) :
    Decidable (total.Overdraws duration quantity) :=
  decidable_of_iff
    (quantity ≠ .duration ∧ duration < total.duration ∧
      Binary64.ofWord duration = Binary64.ofWord total.duration ∧
        total.amount quantity < inDoubles (total.amount quantity))
    ⟨fun h => ⟨h.1, h.2.1, h.2.2.1, h.2.2.2⟩, fun h => ⟨h.1, h.2, h.3, h.4⟩⟩

section Excess

variable {total : Counters} {duration : UInt64} {quantity : Quantity}

/-- A part of the time that is the same double as the whole gets all of a count, in doubles. -/
theorem proportion_of_sameDouble {part whole : UInt64} (hpos : 0 < whole)
    (hsame : Binary64.ofWord part = Binary64.ofWord whole) (count : UInt64) :
    (proportion count part whole).toNat = inDoubles count.toNat := by
  have hword : 0 < whole.toNat := UInt64.lt_iff_toNat_lt.mp hpos
  obtain ⟨k, hround, hlow, -⟩ := Binary64.nearest_eq_mul_spacing hword
  have hne : Binary64.ofWord whole ≠ 0 := by
    have hspacing := Binary64.spacing_pos whole.toNat
    rw [Binary64.ofWord, hround]
    positivity
  have hone : Binary64.quotient (Binary64.ofWord part) (Binary64.ofWord whole) = 1 := by
    rw [hsame, Binary64.quotient, div_self hne]
    exact_mod_cast Binary64.nearest_natCast (k := 1) (by norm_num)
  rw [proportion, hone, Binary64.product, mul_one, Binary64.ofWord, Binary64.nearest_nearest]
  rfl

/-- Where the times are the same double, the share of a count is the count in doubles. -/
theorem amount_share_of_sameDouble (hquantity : quantity ≠ .duration)
    (hlt : duration < total.duration)
    (hsame : Binary64.ofWord duration = Binary64.ofWord total.duration) :
    (total.splitOff duration).1.amount quantity = inDoubles (total.amount quantity) := by
  have hpos : 0 < total.duration :=
    UInt64.lt_of_le_of_lt (UInt64.le_iff_toNat_le.mpr (Nat.zero_le _)) hlt
  rw [splitOff_of_lt hlt]
  cases quantity with
  | cycles | instructions | cacheMisses => exact proportion_of_sameDouble hpos hsame _
  | duration => exact absurd rfl hquantity

/-- A share takes more than there is exactly where it overdraws. -/
theorem excess_pos_iff :
    0 < total.excess duration quantity ↔ total.Overdraws duration quantity := by
  rw [excess, Nat.sub_pos_iff_lt]
  constructor
  · intro hmore
    have hquantity : quantity ≠ .duration := by
      rintro rfl
      have hshare := duration_share total duration
      simp only [amount] at hmore
      omega
    obtain ⟨hlt, hge⟩ : duration < total.duration ∧
        ¬Binary64.ofWord duration < Binary64.ofWord total.duration := by
      by_contra hnot
      rw [not_and_not_right] at hnot
      exact absurd (amount_share_le hnot quantity) (not_le.mpr hmore)
    have hsame := le_antisymm (ofWord_mono (UInt64.le_of_lt hlt)) (not_lt.mp hge)
    exact ⟨hquantity, hlt, hsame, by rwa [amount_share_of_sameDouble hquantity hlt hsame] at hmore⟩
  · rintro ⟨hquantity, hlt, hsame, hmore⟩
    rwa [amount_share_of_sameDouble hquantity hlt hsame]

theorem excess_eq_zero_iff :
    total.excess duration quantity = 0 ↔ ¬total.Overdraws duration quantity := by
  rw [← excess_pos_iff, Nat.pos_iff_ne_zero, not_not]

/-- Only counts and times of more than fifty-three bits are overdrawn. -/
theorem Overdraws.lt_amount (h : total.Overdraws duration quantity) :
    2 ^ 53 < total.amount quantity ∧ 2 ^ 53 < total.duration.toNat := by
  refine ⟨?_, ?_⟩
  · by_contra hle
    have hexact := inDoubles_of_le (not_lt.mp hle)
    have hmore := h.lt_inDoubles
    omega
  · by_contra hle
    exact absurd h.sameDouble (ofWord_lt_ofWord h.lt (not_lt.mp hle)).ne

end Excess

/-! ## Shares one after the other -/

/-- Cut off shares one after the other.  The first component lists the shares, the second is what
is left. -/
def splitAll (total : Counters) : List UInt64 → List Counters × Counters
  | [] => ([], total)
  | duration :: rest =>
    let (share, left) := total.splitOff duration
    let (shares, last) := left.splitAll rest
    (share :: shares, last)

/-- The cuts by which shares are cut off one after the other: from what, and for how long. -/
def cuts (total : Counters) : List UInt64 → List (Counters × UInt64)
  | [] => []
  | duration :: rest => (total, duration) :: (total.splitOff duration).2.cuts rest

section Sequence

variable {total : Counters} {durations : List UInt64} {quantity : Quantity}

/-- Shares and what is left add up to what there was and what each cut takes beyond that. -/
theorem sum_splitAll (total : Counters) (durations : List UInt64) (quantity : Quantity) :
    ((total.splitAll durations).1.map fun share => share.amount quantity).sum +
        (total.splitAll durations).2.amount quantity =
      total.amount quantity +
        ((total.cuts durations).map fun cut => cut.1.excess cut.2 quantity).sum := by
  induction durations generalizing total with
  | nil => simp [splitAll, cuts]
  | cons duration rest ih =>
    have hcut := amount_splitOff_excess total duration quantity
    have hrest := ih (total.splitOff duration).2
    simp only [splitAll, cuts, List.map_cons, List.sum_cons]
    omega

theorem splitAll_zero (durations : List UInt64) : (zero.splitAll durations).2 = zero := by
  induction durations with
  | nil => rfl
  | cons duration rest ih =>
    have hall : zero.duration ≤ duration := UInt64.le_iff_toNat_le.mpr (Nat.zero_le _)
    simp only [splitAll, splitOff_of_le hall, ih]

/-- Nothing is left once the time is used up. -/
theorem splitAll_of_le (hne : durations ≠ [])
    (hall : total.duration.toNat ≤ (durations.map UInt64.toNat).sum) :
    (total.splitAll durations).2 = zero := by
  induction durations generalizing total with
  | nil => exact absurd rfl hne
  | cons duration rest ih =>
    rw [List.map_cons, List.sum_cons] at hall
    simp only [splitAll]
    by_cases hle : total.duration ≤ duration
    · rw [splitOff_of_le hle]
      exact splitAll_zero rest
    · have hlt := UInt64.lt_iff_toNat_lt.mp (UInt64.not_le.mp hle)
      have hleft := duration_splitOff total duration
      refine ih ?_ (by omega)
      rintro rfl
      simp only [List.map_nil, List.sum_nil] at hall
      omega

/-- Shares that use up the time add up to what there was, as long as none of them overdraws. -/
theorem sum_splitAll_eq_iff (hne : durations ≠ [])
    (hall : total.duration.toNat ≤ (durations.map UInt64.toNat).sum) :
    ((total.splitAll durations).1.map fun share => share.amount quantity).sum =
        total.amount quantity ↔
      ∀ cut ∈ total.cuts durations, ¬cut.1.Overdraws cut.2 quantity := by
  have hsum := sum_splitAll total durations quantity
  rw [splitAll_of_le hne hall, amount_zero, Nat.add_zero] at hsum
  rw [hsum, Nat.add_eq_left, List.sum_eq_zero_iff, List.forall_mem_map]
  exact forall₂_congr fun _ _ => excess_eq_zero_iff

end Sequence

/-! ## Conservation -/

/-- The share covers the time it is cut for, or all there is.  Share and rest are what there was
unless the cut overdraws the quantity, which takes more than fifty-three bits of it and of the
time, and never concerns the time itself.  Once shares one after the other use up the time, nothing
is left, and they are what there was unless one of the cuts overdraws. -/
theorem splitOff_conserves_iff (total : Counters) (duration : UInt64) (durations : List UInt64)
    (quantity : Quantity) :
    (total.splitOff duration).1.duration.toNat = min duration.toNat total.duration.toNat ∧
      ((total.splitOff duration).1.amount quantity +
            (total.splitOff duration).2.amount quantity = total.amount quantity ↔
          ¬total.Overdraws duration quantity) ∧
      (total.Overdraws duration quantity → quantity ≠ .duration ∧
        2 ^ 53 < total.amount quantity ∧ 2 ^ 53 < total.duration.toNat) ∧
      (durations ≠ [] → total.duration.toNat ≤ (durations.map UInt64.toNat).sum →
        (total.splitAll durations).2 = zero ∧
          (((total.splitAll durations).1.map fun share => share.amount quantity).sum =
              total.amount quantity ↔
            ∀ cut ∈ total.cuts durations, ¬cut.1.Overdraws cut.2 quantity)) := by
  refine ⟨?_, ?_, fun h => ⟨h.ne_duration, h.lt_amount⟩, ?_⟩
  · rw [duration_share, Nat.min_comm]
  · rw [amount_splitOff_excess, Nat.add_eq_left]
    exact excess_eq_zero_iff
  · intro hne hall
    exact ⟨splitAll_of_le hne hall, sum_splitAll_eq_iff hne hall⟩

/-- More than a hundred days of a busy entity. -/
def hundredDays : Counters where
  cycles := 9007199254740995
  instructions := 3002399751580331
  cacheMisses := 7
  duration := 9007199254740993

/-- All but a nanosecond of the time is cut off, then that nanosecond: the instructions are
conserved, the cycles are not. -/
theorem splitOff_conserves_hundredDays :
    [9007199254740992, 1] ≠ ([] : List UInt64) ∧
      hundredDays.duration.toNat ≤ (([9007199254740992, 1] : List UInt64).map UInt64.toNat).sum ∧
      ¬hundredDays.Overdraws 9007199254740992 .instructions ∧
      (hundredDays.splitOff 9007199254740992).1.instructions.toNat +
          (hundredDays.splitOff 9007199254740992).2.instructions.toNat =
        hundredDays.instructions.toNat ∧
      hundredDays.Overdraws 9007199254740992 .cycles ∧
      (hundredDays.splitAll [9007199254740992, 1]).2 = zero := by
  have hkept : ¬hundredDays.Overdraws 9007199254740992 .instructions := by decide +kernel
  have hall : hundredDays.duration.toNat ≤
      (([9007199254740992, 1] : List UInt64).map UInt64.toNat).sum := by decide +kernel
  obtain ⟨-, hconserves, -, hsequence⟩ :=
    splitOff_conserves_iff hundredDays 9007199254740992 [9007199254740992, 1] .instructions
  exact ⟨by decide, hall, hkept, hconserves.mpr hkept, by decide +kernel,
    (hsequence (by decide) hall).1⟩

/-- The share has one cycle more than there was. -/
theorem not_conserved_hundredDays :
    (hundredDays.splitOff 9007199254740992).1.cycles = 9007199254740996 ∧
      (hundredDays.splitOff 9007199254740992).1.cycles.toNat +
          (hundredDays.splitOff 9007199254740992).2.cycles.toNat ≠ hundredDays.cycles.toNat ∧
      ((hundredDays.splitAll [9007199254740992, 1]).1.map fun share => share.cycles.toNat).sum ≠
        hundredDays.cycles.toNat := by
  decide +kernel

end CacheMeter.Counters
