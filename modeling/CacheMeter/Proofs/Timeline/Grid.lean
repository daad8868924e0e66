import Mathlib
import CacheMeter.Slot
import CacheMeter.Proofs.Timeline.Offsets

/-!
# The slot grid is a floor

A grid of slots of one length is laid over the timeline, with a boundary at its phase.  The start
of the slot that holds a timestamp is computed in words, in two ways: from the phase on the way
since then is rounded down to whole slots, and below it the way to it is rounded up to whole slots
and taken back, round the end of the timeline if need be.  On the unbounded line both are the
floor of the same division.

Main results:

- Definition `InSlot`: the slot with a number holds a timestamp, on the unbounded line.
- Theorem `inSlot_iff`: just one slot does, the one that `gridIndex` names.
- Theorem `toNat_gridStart_emod`: where it begins on the circle.
- Theorem `contains_iff_offset_lt`: which instants a slot holds that is no longer than half of the
  circle.
- Theorem `gridStart_floors`: the start of a slot is the floor of a timestamp.
-/

namespace CacheMeter.Timeline

/-- The grid slot with a number holds a timestamp, where slot zero begins at the phase. -/
def InSlot (length phase : UInt64) (index : Int) (timestamp : UInt64) : Prop :=
  (phase.toNat : Int) + index * length.toNat ≤ timestamp.toNat ∧
    (timestamp.toNat : Int) < phase.toNat + (index + 1) * length.toNat

section Grid

variable {length phase timestamp : UInt64} {index : Int}

/-! ## Numbers of slots -/

/-- Just one slot holds a timestamp. -/
theorem inSlot_iff (hpos : 0 < length.toNat) :
    InSlot length phase index timestamp ↔ index = gridIndex length phase timestamp := by
  have hpos' : (0 : Int) < length.toNat := by exact_mod_cast hpos
  have hlow : index ≤ gridIndex length phase timestamp ↔
      index * length.toNat ≤ (timestamp.toNat : Int) - phase.toNat :=
    Int.le_ediv_iff_mul_le hpos'
  have hhigh : gridIndex length phase timestamp < index + 1 ↔
      (timestamp.toNat : Int) - phase.toNat < (index + 1) * length.toNat :=
    Int.ediv_lt_iff_lt_mul hpos'
  rw [InSlot]
  constructor
  · rintro ⟨hbegins, hends⟩
    have hle := hlow.mpr (by omega)
    have hlt := hhigh.mpr (by omega)
    omega
  · intro heq
    have hle := hlow.mp heq.le
    have hlt := hhigh.mp (by omega)
    exact ⟨by omega, by omega⟩

theorem inSlot_gridIndex (hpos : 0 < length.toNat) (phase timestamp : UInt64) :
    InSlot length phase (gridIndex length phase timestamp) timestamp :=
  (inSlot_iff hpos).mpr rfl

theorem gridIndex_mono (hpos : 0 < length.toNat) (phase : UInt64) {earlier later : UInt64}
    (hle : earlier ≤ later) : gridIndex length phase earlier ≤ gridIndex length phase later := by
  have hwords := UInt64.le_iff_toNat_le.mp hle
  exact Int.ediv_le_ediv (by exact_mod_cast hpos) (by omega)

/-- Steps that cover a distance are counted without overflow: whole steps, rounded up. -/
theorem toNat_stepsToCover (hpos : 0 < length.toNat) (distance : UInt64) :
    (stepsToCover distance length).toNat =
      distance.toNat / length.toNat + if distance.toNat % length.toNat = 0 then 0 else 1 := by
  have hzero : distance % length = 0 ↔ distance.toNat % length.toNat = 0 := by
    rw [← UInt64.toNat_inj, UInt64.toNat_mod, UInt64.toNat_zero]
  have hlt := distance.toNat_lt
  have hsplit := Nat.div_add_mod' distance.toNat length.toNat
  have hquotient := Nat.le_mul_of_pos_right (distance.toNat / length.toNat) hpos
  rw [stepsToCover, UInt64.toNat_add, UInt64.toNat_div, if_congr hzero rfl rfl]
  split_ifs with hrest
  · rw [UInt64.toNat_zero, Nat.add_zero, Nat.mod_eq_of_lt (by omega)]
  · rw [UInt64.toNat_one, Nat.mod_eq_of_lt (by omega)]

/-- Below the phase, slots are counted back from it. -/
theorem gridIndex_of_lt (hpos : 0 < length.toNat) (hlt : timestamp < phase) :
    gridIndex length phase timestamp = -(stepsToCover (phase - timestamp) length).toNat := by
  have hwords := UInt64.lt_iff_toNat_lt.mp hlt
  have hway : (phase - timestamp).toNat = phase.toNat - timestamp.toNat :=
    UInt64.toNat_sub_of_le _ _ (UInt64.le_iff_toNat_le.mpr hwords.le)
  have hsplit := Nat.div_add_mod' (phase.toNat - timestamp.toNat) length.toNat
  have hrest := Nat.mod_lt (phase.toNat - timestamp.toNat) hpos
  symm
  rw [← inSlot_iff hpos, InSlot, toNat_stepsToCover hpos, hway]
  split_ifs with hzero
  · push_cast [hwords.le] at hsplit ⊢
    constructor <;> grind
  · push_cast [hwords.le] at hsplit ⊢
    constructor <;> grind

/-! ## Starts of slots -/

/-- From the first boundary on, slots are counted on the plain timeline. -/
theorem toNat_gridStart (h : phase ≤ timestamp) :
    (gridStart length phase timestamp).toNat =
      phase.toNat + (timestamp.toNat - phase.toNat) / length.toNat * length.toNat := by
  have hle := UInt64.le_iff_toNat_le.mp h
  have hlt := timestamp.toNat_lt
  have hfloor := Nat.div_mul_le_self (timestamp.toNat - phase.toNat) length.toNat
  rw [gridStart, if_pos h, UInt64.toNat_add, UInt64.toNat_mul, UInt64.toNat_div,
    UInt64.toNat_sub_of_le _ _ h, Nat.mod_eq_of_lt (by omega), Nat.mod_eq_of_lt (by omega)]

/-- A slot begins where its number says, up to whole turns. -/
theorem toNat_gridStart_emod (hpos : 0 < length.toNat) (phase timestamp : UInt64) :
    ((gridStart length phase timestamp).toNat : Int) =
      (phase.toNat + gridIndex length phase timestamp * length.toNat) % UInt64.size := by
  have hsize : (UInt64.size : Int) = 18446744073709551616 := rfl
  by_cases hle : phase ≤ timestamp
  · have hwords := UInt64.le_iff_toNat_le.mp hle
    have hindex : gridIndex length phase timestamp =
        ((timestamp.toNat - phase.toNat) / length.toNat : Nat) := by
      rw [gridIndex]
      push_cast [hwords]
      rfl
    have hword := (gridStart length phase timestamp).toNat_lt
    have hstart := @toNat_gridStart length phase timestamp hle
    rw [hstart] at hword
    rw [hindex, hstart, hsize]
    generalize (timestamp.toNat - phase.toNat) / length.toNat = count at hword
    push_cast
    omega
  · rw [gridIndex_of_lt hpos (UInt64.not_le.mp hle), gridStart, if_neg hle, UInt64.toNat_sub,
      UInt64.toNat_mul, hsize, Int.neg_mul]
    generalize (stepsToCover (phase - timestamp) length).toNat = count
    rw [← Int.natCast_mul]
    omega

/-- A timestamp lies less than a slot length after the start of its slot. -/
theorem offset_gridStart_lt (hpos : 0 < length.toNat) (phase timestamp : UInt64) :
    offset (gridStart length phase timestamp) timestamp < length.toNat := by
  have hsize : (UInt64.size : Int) = 18446744073709551616 := rfl
  obtain ⟨hbegins, hends⟩ := inSlot_gridIndex hpos phase timestamp
  have hstart := toNat_gridStart_emod hpos phase timestamp
  have hlength := length.toNat_lt
  have htime := timestamp.toNat_lt
  rw [hsize] at hstart
  rw [Int.add_mul, Int.one_mul] at hends
  rw [offset, UInt64.toNat_sub]
  omega

end Grid

/-- A slot holds the instants that lie less than its length after its start, if it is no longer
than half of the circle. -/
theorem contains_iff_offset_lt {slot : Slot} {length : UInt64}
    (hend : slot.endTime = slot.startTime + length) (hlength : length.toNat ≤ 2 ^ 63)
    (instant : UInt64) :
    slot.contains instant = true ↔ offset slot.startTime instant < length.toNat := by
  have hsplit : instant - slot.endTime = (instant - slot.startTime) - length := by
    rw [hend]
    grind
  have hlt := (instant - slot.startTime).toNat_lt
  have hsize : UInt64.size = 18446744073709551616 := rfl
  simp only [Slot.contains, Bool.and_eq_true, decide_eq_true_eq]
  rw [displacement, displacement, halfTurn_eq, hsize, hsplit,
    UInt64.toNat_sub (instant - slot.startTime), offset]
  split_ifs <;> omega

/-! ## Both sides of the phase -/

/-- The word at which the slot of a timestamp begins, and the number of the slot. -/
structure Floors (length phase timestamp : UInt64) (index : Int) (start : UInt64) : Prop where
  near : (timestamp - start).toNat < length.toNat
  start_eq : (start.toNat : Int) = (phase.toNat + index * length.toNat) % UInt64.size
  inSlot : InSlot length phase index timestamp
  unique : ∀ other, InSlot length phase other timestamp → other = index
  /-- From the phase on, every step of the computation is exact. -/
  exact_of_le : phase ≤ timestamp →
    (timestamp - phase).toNat = timestamp.toNat - phase.toNat ∧
      ((timestamp - phase) / length * length).toNat =
        (timestamp.toNat - phase.toNat) / length.toNat * length.toNat ∧
      start.toNat = phase.toNat + ((timestamp - phase) / length * length).toNat ∧
      start ≤ timestamp

theorem floors_gridStart {length : UInt64} (hpos : 0 < length.toNat) (phase timestamp : UInt64) :
    Floors length phase timestamp (gridIndex length phase timestamp)
      (gridStart length phase timestamp) where
  near := offset_gridStart_lt hpos phase timestamp
  start_eq := toNat_gridStart_emod hpos phase timestamp
  inSlot := inSlot_gridIndex hpos phase timestamp
  unique _ hother := (inSlot_iff hpos).mp hother
  exact_of_le hle := by
    have hwords := UInt64.le_iff_toNat_le.mp hle
    have hlt := timestamp.toNat_lt
    have hway := UInt64.toNat_sub_of_le _ _ hle
    have hfloor := Nat.div_mul_le_self (timestamp.toNat - phase.toNat) length.toNat
    have hslots : ((timestamp - phase) / length * length).toNat =
        (timestamp.toNat - phase.toNat) / length.toNat * length.toNat := by
      rw [UInt64.toNat_mul, UInt64.toNat_div, hway, Nat.mod_eq_of_lt (by omega)]
    have hstart := @toNat_gridStart length phase timestamp hle
    refine ⟨hway, hslots, by rw [hslots, hstart], ?_⟩
    rw [UInt64.le_iff_toNat_le, hstart]
    omega

/-- The start of the slot of a timestamp is its floor on the slot grid, whatever the length of
the slots and their phase: it begins the one slot that holds the timestamp on the unbounded line.
Later timestamps lie in later slots or the same one, and a slot on the circle holds what lies less
than its length after its start. -/
theorem gridStart_floors (length phase : UInt64) (hpos : 0 < length.toNat) :
    (∀ timestamp, Floors length phase timestamp (gridIndex length phase timestamp)
        (gridStart length phase timestamp)) ∧
      (∀ earlier later, earlier ≤ later →
        gridIndex length phase earlier ≤ gridIndex length phase later) ∧
      (∀ first second, gridIndex length phase first = gridIndex length phase second ↔
        ∃ index, InSlot length phase index first ∧ InSlot length phase index second) ∧
      (length.toNat ≤ 2 ^ 63 → ∀ start timestamp,
        (Slot.fresh start length).contains timestamp = true ↔
          (timestamp - start).toNat < length.toNat) := by
  refine ⟨floors_gridStart hpos phase, fun _ _ => gridIndex_mono hpos phase, ?_, ?_⟩
  · intro first second
    simp only [inSlot_iff hpos, exists_eq_left]
  · intro hlength start timestamp
    exact contains_iff_offset_lt rfl hlength timestamp

/-- Three slots back from a phase at the end of the timeline are more than all of it. -/
theorem gridStart_floors_back :
    let length : UInt64 := 7000000000000000000
    let phase : UInt64 := 18446744073709551615
    0 < length.toNat ∧ length.toNat ≤ 2 ^ 63 ∧
      gridIndex length phase 0 = -3 ∧ gridStart length phase 0 = 15893488147419103231 ∧
      Floors length phase 0 (gridIndex length phase 0) (gridStart length phase 0) ∧
      (Slot.fresh (gridStart length phase 0) length).contains 0 = true := by
  intro length phase
  have hpos : 0 < length.toNat := by decide
  have hlength : length.toNat ≤ 2 ^ 63 := by decide
  obtain ⟨hfloors, -, -, hcontains⟩ := gridStart_floors length phase hpos
  exact ⟨hpos, hlength, by decide, by decide, hfloors 0,
    (hcontains hlength _ 0).mpr (hfloors 0).near⟩

end CacheMeter.Timeline
