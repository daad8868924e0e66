import Mathlib
import CacheMeter.Proofs.Window.Seams

/-!
# Where a timestamp lands

A move brings the window to the slot of a timestamp, or past it: where the slots have lost the
grid on their way round the end of the timeline, the last slide goes further than it has to, by
less than a slot.  Either way the timestamp lies in the newest slot or in the one before it,
and in no other.  What is measured at an instant goes to that slot as a whole.

Main results:

- Theorem `Window.Contiguous.newest_advance_of_not_stale`: how far a move overshoots.
- Theorem `Window.Tiled.contains_getElem_iff`: the one slot of a tiling that can contain a
  timestamp.
- Theorem `Window.lands_after_advance`: the slot in which a timestamp lands, and what a
  measurement without duration adds there.
-/

namespace CacheMeter.Window

open Timeline
open Counters (Quantity)

/-! ## What a slot gains -/

/-- A slot that has the times of another and its totals for all entities but one. -/
structure SameBut (entity : UInt32) (before after : Slot) : Prop where
  startTime_eq : after.startTime = before.startTime
  endTime_eq : after.endTime = before.endTime
  get?_eq : ∀ other, other ≠ entity → after.totals.get? other = before.totals.get? other

/-- An entity has an entry in the slot, with an amount of a quantity added to what it had
before; totals stop at the largest word. -/
def Gains (entity : UInt32) (quantity : Quantity) (amount : Nat) (before after : Slot) : Prop :=
  ∃ total, after.totals.get? entity = some total ∧
    total.amount quantity =
      min ((before.totalOf entity).amount quantity + amount) (UInt64.size - 1)

section Gains

variable {entity : UInt32} {slot : Slot} {share : Counters}

/-- To record something touches one entity. -/
theorem sameBut_record (entity : UInt32) (slot : Slot) (share : Counters) :
    SameBut entity slot (slot.record entity share) where
  startTime_eq := rfl
  endTime_eq := rfl
  get?_eq other hother := by simp [Slot.record, Ne.symm hother]

theorem gains_record (entity : UInt32) (slot : Slot) (share : Counters) (quantity : Quantity) :
    Gains entity quantity (share.amount quantity) slot (slot.record entity share) :=
  ⟨slot.totalOf entity + share, by simp [Slot.record], Counters.amount_add _ _ _⟩

end Gains

/-! ## The slot of a timestamp -/

/-- A timestamp lies less than a slot length after the start of its slot. -/
theorem Shape.offset_slotStart_lt {shape : Shape} (hcheck : shape.check = .ok ())
    (timestamp : UInt64) :
    offset (shape.slotStart timestamp) timestamp < shape.slotLength.toNat := by
  obtain ⟨hlength, -, -⟩ := Shape.check_eq_ok_iff.mp hcheck
  exact offset_gridStart_lt (UInt64.lt_iff_toNat_lt.mp hlength) _ _

/-! ## Tilings -/

section Tilings

variable {length edge timestamp : UInt64} {slots : List Slot}

theorem Tiled.startTime_getElem (h : Tiled length edge slots) {index : Nat}
    (hindex : index < slots.length) :
    slots[index].startTime = edge + UInt64.ofNat index * length := by
  induction slots generalizing edge index with
  | nil => simp at hindex
  | cons first rest ih =>
    cases index with
    | zero => simp [h.1]
    | succ index =>
      rw [List.getElem_cons_succ, ih h.2.2 (Nat.lt_of_succ_lt_succ hindex), ofNat_succ_mul]
      grind

/-- Among slots without gaps, a timestamp can only be in the one whose number is its distance
from their beginning, counted in slots. -/
theorem Tiled.contains_getElem_iff (h : Tiled length edge slots) (hpos : 0 < length.toNat)
    (hspan : slots.length * length.toNat ≤ 2 ^ 62) {index : Nat}
    (hindex : index < slots.length) :
    slots[index].contains timestamp = true ↔ offset edge timestamp / length.toNat = index := by
  have hend := h.endTime_of_mem (List.getElem_mem hindex)
  have hlast : (index + 1) * length.toNat ≤ 2 ^ 62 :=
    (Nat.mul_le_mul_right _ hindex).trans hspan
  rw [Nat.succ_mul] at hlast
  have hstart := h.startTime_getElem hindex
  have hmul : (UInt64.ofNat index * length).toNat = index * length.toNat :=
    toNat_ofNat_mul (by simp only [UInt64.size]; omega)
  have hsplit : timestamp - slots[index].startTime =
      (timestamp - edge) - UInt64.ofNat index * length := by
    rw [hstart]
    grind
  have hlt := (timestamp - edge).toNat_lt
  rw [contains_iff_offset_lt hend (by omega), Nat.div_eq_iff hpos, offset, offset, hsplit,
    UInt64.toNat_sub, hmul]
  omega

end Tilings

/-! ## Landing -/

/-- The slot with a number, and no other, contains a timestamp. -/
structure Lands (slots : List Slot) (timestamp : UInt64) (index : Nat) : Prop where
  lt_length : index < slots.length
  contains_iff : ∀ other (h : other < slots.length),
    slots[other].contains timestamp = true ↔ other = index

/-- Slots without gaps contain a timestamp in one slot or not at all. -/
theorem Tiled.lands_or {length edge : UInt64} {slots : List Slot} (h : Tiled length edge slots)
    (hpos : 0 < length.toNat) (hspan : slots.length * length.toNat ≤ 2 ^ 62)
    (timestamp : UInt64) :
    Lands slots timestamp (offset edge timestamp / length.toNat) ∨
      slots.length ≤ offset edge timestamp / length.toNat ∧
        ∀ slot ∈ slots, slot.contains timestamp = false := by
  by_cases hlt : offset edge timestamp / length.toNat < slots.length
  · left
    refine ⟨hlt, fun other hother => ?_⟩
    rw [h.contains_getElem_iff hpos hspan hother, eq_comm]
  · right
    refine ⟨Nat.le_of_not_lt hlt, fun slot hmem => ?_⟩
    obtain ⟨index, hindex, rfl⟩ := List.getElem_of_mem hmem
    rw [← Bool.not_eq_true, h.contains_getElem_iff hpos hspan hindex]
    omega

section Instants

variable {entity : UInt32} {timestamp : UInt64} {counters : Counters} {slots : List Slot}

/-- What is measured at an instant is recorded in the slot where it lands. -/
theorem recordAt_of_lands {index : Nat} (h : Lands slots timestamp index) :
    recordAt entity timestamp counters slots =
      slots.modify index fun slot => slot.record entity counters := by
  induction slots generalizing index with
  | nil => exact absurd h.lt_length (Nat.not_lt_zero _)
  | cons slot rest ih =>
    have hhere := h.contains_iff 0 (Nat.zero_lt_succ _)
    rw [List.getElem_cons_zero] at hhere
    cases index with
    | zero => simp [recordAt, hhere]
    | succ index =>
      have hrest : Lands rest timestamp index := by
        refine ⟨Nat.lt_of_succ_lt_succ h.lt_length, fun other hother => ?_⟩
        have hiff := h.contains_iff (other + 1) (Nat.succ_lt_succ hother)
        rwa [List.getElem_cons_succ, Nat.succ_inj] at hiff
      simp [recordAt, hhere, ih hrest]

/-- A timestamp that no slot contains is recorded nowhere. -/
theorem recordAt_of_forall (h : ∀ slot ∈ slots, slot.contains timestamp = false) :
    recordAt entity timestamp counters slots = slots := by
  induction slots with
  | nil => rfl
  | cons slot rest ih =>
    obtain ⟨hhere, hrest⟩ := List.forall_mem_cons.mp h
    simp [recordAt, hhere, ih hrest]

end Instants

/-! ## Moves -/

section Moves

variable {window : Window} {timestamp : UInt64}

/-- The slot of a timestamp begins before the newest slot held. -/
def Stale (window : Window) (timestamp : UInt64) : Prop :=
  ∃ newest ∈ window.slots.getLast?, window.way timestamp newest < 0

/-- A move to a timestamp that is not stale ends with the slot of the timestamp, or, if the
window holds another one, less than a slot past it. -/
theorem Contiguous.newest_advance_of_not_stale (h : window.Contiguous)
    (hpos : 0 < window.shape.slotLength.toNat) (hcount : 0 < window.shape.slotCount.toNat)
    (hfresh : ¬window.Stale timestamp) :
    ∃ newest ∈ (window.advance timestamp).2.slots.getLast?,
      ∃ excess < window.shape.slotLength.toNat,
        newest.startTime = window.slotStart timestamp + UInt64.ofNat excess ∧
          (0 < excess → 2 ≤ window.shape.slotCount.toNat) := by
  have hanew := getLast?_freshSlots hcount (window.slotStart timestamp)
  rcases advance_cases window timestamp with
    ⟨-, hmove⟩ |
      ⟨newest, ahead, hlast, hway, ⟨hstays, hmove⟩ | ⟨-, -, hmove⟩ | ⟨hahead, hslides, hmove⟩⟩
  · rw [hmove]
    exact ⟨_, hanew, 0, hpos, by simp [Slot.fresh], by simp⟩
  · -- The window stays only if its newest slot is the slot of the timestamp.
    have hzero : displacement (window.slotStart timestamp) newest.startTime = 0 := by
      by_contra hne
      refine hfresh ⟨newest, hlast, ?_⟩
      rw [way]
      omega
    rw [hmove]
    exact ⟨newest, hlast, 0, hpos, by simp [displacement_eq_zero.mp hzero], by simp⟩
  · rw [hmove]
    exact ⟨_, hanew, 0, hpos, by simp [Slot.fresh], by simp⟩
  · obtain hempty | ⟨-, edge, htiled⟩ := h
    · simp [hempty] at hlast
    obtain ⟨moved, hmoved, hstart⟩ :=
      htiled.getLast_slide hlast (slideCount window.shape ahead)
    obtain ⟨distance, rfl⟩ := Int.eq_ofNat_of_zero_le hahead.le
    have hcover := le_slideCount_mul hpos (distance : Int)
    have hshort := Nat.div_mul_le_self
      (distance + window.shape.slotLength.toNat - 1) window.shape.slotLength.toNat
    have hsome := slideCount_pos hpos hahead
    rw [slideCount, Int.toNat_natCast] at *
    generalize (distance + window.shape.slotLength.toNat - 1) /
      window.shape.slotLength.toNat = count at *
    rw [hmove]
    refine ⟨moved, hmoved, count * window.shape.slotLength.toNat - distance, by omega, ?_,
      by omega⟩
    have hsum : UInt64.ofNat count * window.shape.slotLength = UInt64.ofNat distance +
        UInt64.ofNat (count * window.shape.slotLength.toNat - distance) := by
      rw [← UInt64.ofNat_add, Nat.add_sub_cancel' (by exact_mod_cast hcover), UInt64.ofNat_mul,
        UInt64.ofNat_toNat]
    rw [hstart, hsum, eq_add_of_displacement hway]
    grind

/-- A timestamp that is not stale lies as far past the beginning of the moved window as its
newest slot, plus its own way into its slot, less what the move overshot. -/
theorem Contiguous.offset_of_not_stale (h : window.Contiguous)
    (hcheck : window.shape.check = .ok ())
    (hspan : window.shape.slotCount.toNat * window.shape.slotLength.toNat ≤ 2 ^ 62)
    (hfresh : ¬window.Stale timestamp) {edge : UInt64}
    (htiled : Tiled window.shape.slotLength edge (window.advance timestamp).2.slots) :
    ∃ before place excess, (window.advance timestamp).2.slots.length = before + 1 ∧
      place < window.shape.slotLength.toNat ∧ excess < window.shape.slotLength.toNat ∧
        offset edge timestamp + excess = before * window.shape.slotLength.toNat + place := by
  have hshape := Shape.bounded_of_check hcheck hspan
  obtain ⟨newest, hlast, excess, hexcess, hstart, hsecond⟩ :=
    h.newest_advance_of_not_stale hshape.slotLength_pos hshape.slotCount_pos hfresh
  have hlength := (h.advance timestamp).1
  rw [shape_advance] at hlength
  obtain ⟨hend, hnext⟩ := htiled.endTime_getLast hlast
  obtain ⟨before, hbefore⟩ := Nat.exists_eq_add_of_lt (hlength ▸ hshape.slotCount_pos)
  rw [Nat.zero_add] at hbefore
  have hwithin : offset (window.slotStart timestamp) timestamp < window.shape.slotLength.toNat :=
    Shape.offset_slotStart_lt hcheck timestamp
  refine ⟨before, offset (window.slotStart timestamp) timestamp, excess, hbefore, hwithin,
    hexcess, ?_⟩
  -- Only a window of several slots can overshoot, by less than all but one of them.
  have hreach : excess ≤ before * window.shape.slotLength.toNat := by
    rcases Nat.eq_zero_or_pos excess with hzero | hsome
    · omega
    · exact hexcess.le.trans (Nat.le_mul_of_pos_left _ (by have := hsecond hsome; omega))
  have hbound : before * window.shape.slotLength.toNat + window.shape.slotLength.toNat ≤
      2 ^ 62 := by
    rwa [← Nat.add_one_mul, ← hbefore, hlength]
  have hwords : timestamp - edge =
      UInt64.ofNat (before * window.shape.slotLength.toNat - excess) +
        (timestamp - window.slotStart timestamp) := by
    have hsplit : UInt64.ofNat before * window.shape.slotLength =
        UInt64.ofNat (before * window.shape.slotLength.toNat - excess) + UInt64.ofNat excess := by
      rw [← UInt64.ofNat_add, Nat.sub_add_cancel hreach, UInt64.ofNat_mul, UInt64.ofNat_toNat]
    rw [hbefore, ofNat_succ_mul] at hend
    grind
  have hword : (UInt64.ofNat (before * window.shape.slotLength.toNat - excess)).toNat =
      before * window.shape.slotLength.toNat - excess :=
    UInt64.toNat_ofNat_of_lt' (by simp only [UInt64.size]; omega)
  rw [offset] at hwithin ⊢
  rw [hwords, UInt64.toNat_add, hword, Nat.mod_eq_of_lt (by omega), offset]
  omega

/-- A timestamp that is not stale lands, after the move to it, in the newest slot or in the one
before it. -/
theorem Contiguous.lands_of_not_stale (h : window.Contiguous)
    (hcheck : window.shape.check = .ok ())
    (hspan : window.shape.slotCount.toNat * window.shape.slotLength.toNat ≤ 2 ^ 62)
    (hfresh : ¬window.Stale timestamp) :
    ∃ index, Lands (window.advance timestamp).2.slots timestamp index ∧
      (window.advance timestamp).2.slots.length ≤ index + 2 := by
  have hpos := (Shape.bounded_of_check hcheck hspan).slotLength_pos
  obtain ⟨hlength, edge, htiled⟩ := h.advance timestamp
  rw [shape_advance] at hlength htiled
  obtain ⟨before, place, excess, hbefore, hplace, hexcess, hoffset⟩ :=
    h.offset_of_not_stale hcheck hspan hfresh htiled
  rw [← hlength] at hspan
  obtain hlands | ⟨hpast, -⟩ := htiled.lands_or hpos hspan timestamp
  · refine ⟨_, hlands, ?_⟩
    have hindex : before - 1 ≤ offset edge timestamp / window.shape.slotLength.toNat := by
      rw [Nat.le_div_iff_mul_le hpos, Nat.sub_one_mul]
      omega
    omega
  · -- It lies before the end of the newest slot.
    rw [hbefore, Nat.le_div_iff_mul_le hpos, Nat.succ_mul] at hpast
    omega

end Moves

/-! ## Measurements at an instant -/

/-- What a measurement without duration does to slots.  If it lands in one of them, that slot
gains all its counters and the others stay; otherwise all of them stay. -/
inductive Placed (m : Measurement) (slots : List Slot) : List Slot → Prop
  | lands {index : Nat} {before after : Slot} (hlands : Lands slots m.endTime index)
    (hbefore : slots[index]? = some before) (hsame : SameBut m.entity before after)
    (hgains : ∀ quantity,
      Gains m.entity quantity ((Counters.ofMeasurement m).amount quantity) before after) :
    Placed m slots (slots.set index after)
  | misses (hnone : ∀ slot ∈ slots, slot.contains m.endTime = false) : Placed m slots slots

/-- A measurement at an instant goes to one slot of a full window at most. -/
theorem Full.placed {window : Window} (h : window.Full) (hshape : window.shape.Bounded)
    {m : Measurement} (hzero : m.duration = 0) :
    Placed m window.slots (Window.distribute window.slots m) := by
  obtain ⟨hlength, edge, htiled⟩ := h
  have hspan := hshape.span_le
  rw [← hlength] at hspan
  rw [Window.distribute, if_pos hzero]
  obtain hlands | ⟨-, hnone⟩ := htiled.lands_or hshape.slotLength_pos hspan m.endTime
  · have hbefore := List.getElem?_eq_getElem hlands.lt_length
    rw [recordAt_of_lands hlands, List.modify_eq_set, hbefore]
    exact .lands hlands hbefore (sameBut_record _ _ _) (gains_record _ _ _)
  · rw [recordAt_of_forall hnone]
    exact .misses hnone

/-- Whatever calls led to a window, and also where it has lost the slot grid: a timestamp that
is not stale lands, after the move to it, in exactly one slot, the newest or the one before it.
A window whose newest slot is not behind the timestamp stays as it is.  A measurement without
duration adds all its counters to the slot where it lands, and nothing anywhere if a stale one
lands in none. -/
theorem lands_after_advance {shape : Shape} (hcheck : shape.check = .ok ())
    (hspan : shape.slotCount.toNat * shape.slotLength.toNat ≤ 2 ^ 62) (calls : List Call)
    (timestamp : UInt64) :
    let window := after { shape := shape } calls
    let moved := (window.advance timestamp).2
    (¬window.Stale timestamp → ∃ index, Lands moved.slots timestamp index ∧
        moved.slots.length ≤ index + 2) ∧
      ((∃ newest ∈ window.slots.getLast?, window.way timestamp newest ≤ 0) →
        window.advance timestamp = ([], window)) ∧
      ∀ m : Measurement, m.endTime = timestamp → m.duration = 0 →
        ∃ slots, window.update m = .ok { shape := shape, slots := slots } ∧
          Placed m moved.slots slots := by
  have hshape : (after { shape := shape } calls).shape = shape := shape_after _ calls
  have hcontiguous : (after { shape := shape } calls).Contiguous :=
    Contiguous.after (.inl rfl) calls
  generalize after { shape := shape } calls = window at *
  subst hshape
  refine ⟨hcontiguous.lands_of_not_stale hcheck hspan, ?_, ?_⟩
  · rintro ⟨newest, hlast, hstays⟩
    exact advance_of_not_ahead hlast hstays
  · rintro m rfl hzero
    have hbounded : (window.advance m.endTime).2.shape.Bounded := by
      rw [shape_advance]
      exact Shape.bounded_of_check hcheck hspan
    have hshort : m.duration.toNat < halfTurn := by
      rw [hzero, halfTurn_eq]
      decide
    refine ⟨_, ?_, (hcontiguous.advance m.endTime).placed hbounded hzero⟩
    simp only [update_of_lt hshort, shape_advance]

/-- Slots that begin at an eight after the first measurement past the end of the timeline, and
no longer at a four. -/
def strayed : List Call :=
  [.advance 18446744073709551615,
    .update
      { entity := 1, cycles := 9, instructions := 5, cacheMisses := 2, endTime := 12,
        duration := 3 }]

/-- The slot of the timestamp would begin at 24, but the window slides to the slot from 28 on,
and the timestamp lands in the one before it. -/
theorem lands_after_advance_strayed :
    let window := after { shape := fours } strayed
    let moved := (window.advance 25).2
    let m : Measurement :=
      { entity := 2, cycles := 7, instructions := 1, cacheMisses := 0, endTime := 25,
        duration := 0 }
    fours.check = .ok () ∧ fours.slotCount.toNat * fours.slotLength.toNat ≤ 2 ^ 62 ∧
      ¬window.Stale 25 ∧ moved.slots.getLast?.map Slot.startTime = some 28 ∧
      Lands moved.slots 25 1 ∧
      ∃ slots, window.update m = .ok { shape := fours, slots := slots } ∧
        Placed m moved.slots slots := by
  have hcheck : fours.check = .ok () := by decide
  have hspan : fours.slotCount.toNat * fours.slotLength.toNat ≤ 2 ^ 62 := by decide
  have hfresh : ¬(after { shape := fours } strayed).Stale 25 := by
    rw [Stale]
    decide +kernel
  have hnewest : ((after { shape := fours } strayed).advance 25).2.slots.getLast?.map
      Slot.startTime = some 28 := by decide +kernel
  have hsecond : (((after { shape := fours } strayed).advance 25).2.slots.get
      ⟨1, by decide +kernel⟩).contains 25 = true := by decide +kernel
  obtain ⟨hlands, -, hplaced⟩ := lands_after_advance hcheck hspan strayed 25
  obtain ⟨index, hindex, -⟩ := hlands hfresh
  obtain rfl : 1 = index := (hindex.contains_iff 1 _).mp hsecond
  exact ⟨hcheck, hspan, hfresh, hnewest, hindex, hplaced _ rfl rfl⟩

end CacheMeter.Window
