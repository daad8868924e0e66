import Mathlib
import CacheMeter.Proofs.Timeline.Offsets
import CacheMeter.Window

/-!
# Slots without gaps

The slots of a window follow each other without gaps, whichever way the window moved, and
also where it reaches below zero or past the largest timestamp.  Positions are therefore
measured from the oldest slot, going forward round the circle: as long as the window covers
at most a quarter of the circle, comparing timestamps by the short way round compares these
offsets.

Main results:

- Theorem `Window.Contiguous.advance`: a window that has moved holds its full number of
  slots, each beginning where the one before it ends.
- Theorem `Window.Contiguous.advance_advance`: moving to the same timestamp again changes
  nothing.
-/

namespace CacheMeter.Window

open Timeline

/-! ## Tilings -/

/-- Slots of one length, the first beginning at `edge` and each of the others where the one
before it ends. -/
def Tiled (length : UInt64) : UInt64 → List Slot → Prop
  | _, [] => True
  | edge, slot :: rest =>
    slot.startTime = edge ∧ slot.endTime = edge + length ∧ Tiled length (edge + length) rest

section Tilings

variable {length edge : UInt64} {slots : List Slot}

theorem ofNat_succ_mul (n : Nat) (length : UInt64) :
    UInt64.ofNat (n + 1) * length = length + UInt64.ofNat n * length := by
  rw [UInt64.ofNat_add]
  grind

/-- Up to the whole circle slots are counted without wrapping. -/
theorem toNat_ofNat_mul {n : Nat} (h : n * length.toNat < UInt64.size) :
    (UInt64.ofNat n * length).toNat = n * length.toNat := by
  rw [UInt64.toNat_mul, UInt64.toNat_ofNat', Nat.mod_mul_mod]
  exact Nat.mod_eq_of_lt h

/-- Slots lie side by side if the first do and the rest from their end on. -/
theorem tiled_append {others : List Slot} :
    Tiled length edge (slots ++ others) ↔
      Tiled length edge slots ∧
        Tiled length (edge + UInt64.ofNat slots.length * length) others := by
  induction slots generalizing edge with
  | nil => simp [Tiled]
  | cons slot rest ih =>
    have hedge : edge + length + UInt64.ofNat rest.length * length =
        edge + UInt64.ofNat (rest.length + 1) * length := by
      rw [ofNat_succ_mul]
      grind
    rw [List.cons_append, Tiled, Tiled, ih, List.length_cons, hedge]
    tauto

/-- The last slot ends where the tiling does. -/
theorem Tiled.endTime_getLast (h : Tiled length edge slots) {newest : Slot}
    (hlast : slots.getLast? = some newest) :
    newest.endTime = edge + UInt64.ofNat slots.length * length ∧
      newest.startTime + length = newest.endTime := by
  rcases List.getLast?_eq_some_iff.mp hlast with ⟨before, rfl⟩
  rcases tiled_append.mp h with ⟨-, hstart, hend, -⟩
  rw [List.length_append, List.length_singleton, ofNat_succ_mul, hstart, hend]
  exact ⟨by grind, rfl⟩

/-- The first slot begins where the tiling does. -/
theorem Tiled.startTime_head (h : Tiled length edge slots) {oldest : Slot}
    (hfirst : oldest ∈ slots.head?) : oldest.startTime = edge := by
  cases slots with
  | nil => simp at hfirst
  | cons slot rest =>
    have hsame : slot = oldest := by simpa using hfirst
    rw [← hsame, h.1]

/-- The slots of a fresh window end where the newest one does. -/
theorem tiled_freshSlots (shape : Shape) (newestStart : UInt64) :
    Tiled shape.slotLength
      (newestStart + shape.slotLength - UInt64.ofNat shape.slotCount.toNat * shape.slotLength)
      (shape.freshSlots newestStart) := by
  unfold Shape.freshSlots
  induction shape.slotCount.toNat with
  | zero => trivial
  | succ n ih =>
    have hstart : newestStart - UInt64.ofNat n * shape.slotLength =
        newestStart + shape.slotLength - UInt64.ofNat (n + 1) * shape.slotLength := by
      rw [ofNat_succ_mul]
      grind
    have hnext : newestStart + shape.slotLength - UInt64.ofNat (n + 1) * shape.slotLength +
        shape.slotLength =
          newestStart + shape.slotLength - UInt64.ofNat n * shape.slotLength := by
      rw [ofNat_succ_mul]
      grind
    rw [List.range_succ, List.reverse_append, List.reverse_singleton, List.singleton_append,
      List.map_cons]
    refine ⟨hstart, ?_, ?_⟩
    · rw [Slot.fresh, hstart]
    · rw [hnext]
      exact ih

@[simp]
theorem length_freshSlots (shape : Shape) (newestStart : UInt64) :
    (shape.freshSlots newestStart).length = shape.slotCount.toNat := by
  simp [Shape.freshSlots]

/-- The newest slot of a fresh window is the one asked for. -/
theorem getLast?_freshSlots {shape : Shape} (hcount : 0 < shape.slotCount.toNat)
    (newestStart : UInt64) :
    (shape.freshSlots newestStart).getLast? =
      some (Slot.fresh newestStart shape.slotLength) := by
  rw [Shape.freshSlots, ← Nat.sub_add_cancel hcount, List.range_succ_eq_map]
  simp

/-- Sliding by one slot moves the tiling by one slot. -/
theorem Tiled.slid {oldest : Slot} {rest : List Slot} {newest : Slot}
    (h : Tiled length edge (oldest :: rest)) (hlast : (oldest :: rest).getLast? = some newest) :
    Tiled length (edge + length) (rest ++ [Slot.fresh newest.endTime length]) := by
  have hend := (h.endTime_getLast hlast).1
  have hedge : newest.endTime = edge + length + UInt64.ofNat rest.length * length := by
    rw [hend, List.length_cons, ofNat_succ_mul]
    grind
  refine tiled_append.mpr ⟨h.2.2, ?_⟩
  rw [← hedge]
  exact ⟨rfl, rfl, trivial⟩

/-- Sliding by any number of slots moves the tiling by as many. -/
theorem Tiled.slide (h : Tiled length edge slots) (hne : slots ≠ []) (count : Nat) :
    Tiled length (edge + UInt64.ofNat count * length) (Window.slide length count slots).2 ∧
      (Window.slide length count slots).2.length = slots.length := by
  induction count generalizing edge slots with
  | zero => simpa [Window.slide] using h
  | succ count ih =>
    cases slots with
    | nil => exact absurd rfl hne
    | cons oldest rest =>
      have hslid := h.slid (List.getLast?_eq_some_getLast hne)
      rcases ih hslid (by simp) with ⟨htiled, hlength⟩
      have hedge : edge + length + UInt64.ofNat count * length =
          edge + UInt64.ofNat (count + 1) * length := by
        rw [ofNat_succ_mul]
        grind
      rw [hedge] at htiled
      rw [List.length_append, List.length_singleton] at hlength
      exact ⟨htiled, hlength⟩

/-- The newest slot moves along. -/
theorem Tiled.getLast_slide (h : Tiled length edge slots) {newest : Slot}
    (hlast : slots.getLast? = some newest) (count : Nat) :
    ∃ moved, (Window.slide length count slots).2.getLast? = some moved ∧
      moved.startTime = newest.startTime + UInt64.ofNat count * length := by
  have hne : slots ≠ [] := by
    rintro rfl
    simp at hlast
  rcases h.slide hne count with ⟨htiled, hlength⟩
  have hne' : (Window.slide length count slots).2 ≠ [] := by
    rw [← List.length_pos_iff_ne_nil, hlength]
    exact List.length_pos_iff_ne_nil.mpr hne
  have hmoved := List.getLast?_eq_some_getLast hne'
  rcases h.endTime_getLast hlast with ⟨hend, hstart⟩
  rcases htiled.endTime_getLast hmoved with ⟨hend', hstart'⟩
  rw [hlength] at hend'
  exact ⟨_, hmoved, by grind⟩

end Tilings

/-! ## Windows -/

/-- A shape that has been checked, and whose window covers at most a quarter of the
circle. -/
structure Shape.Bounded (shape : Shape) : Prop where
  slotLength_pos : 0 < shape.slotLength.toNat
  slotCount_pos : 0 < shape.slotCount.toNat
  span_le : shape.slotCount.toNat * shape.slotLength.toNat ≤ 2 ^ 62

theorem Shape.bounded_of_check {shape : Shape} (hcheck : shape.check = .ok ())
    (hspan : shape.slotCount.toNat * shape.slotLength.toNat ≤ 2 ^ 62) : shape.Bounded := by
  unfold check at hcheck
  split_ifs at hcheck with hlength hcount
  have hlength' : shape.slotLength.toNat ≠ 0 := by simpa [← UInt64.toNat_inj] using hlength
  have hcount' : shape.slotCount.toNat ≠ 0 := by simpa [← UInt32.toNat_inj] using hcount
  exact ⟨by omega, by omega, hspan⟩

/-- The window holds its full number of slots, without gaps. -/
def Full (window : Window) : Prop :=
  window.slots.length = window.shape.slotCount.toNat ∧
    ∃ edge, Tiled window.shape.slotLength edge window.slots

/-- The window holds no slots yet, or its full number of them without gaps. -/
def Contiguous (window : Window) : Prop :=
  window.slots = [] ∨ window.Full

/-- A window of fresh slots is full. -/
theorem full_freshSlots (shape : Shape) (newestStart : UInt64) :
    Full { shape := shape, slots := shape.freshSlots newestStart } :=
  ⟨length_freshSlots shape newestStart, _, tiled_freshSlots shape newestStart⟩

/-! ## Moving -/

/-- The four ways in which a window can move: it is filled, it stays, it is replaced, or it
slides. -/
theorem advance_cases (window : Window) (timestamp : UInt64) :
    (window.slots = [] ∧ window.advance timestamp =
        ([], { window with
          slots := window.shape.freshSlots (window.slotStart timestamp) })) ∨
      ∃ newest ahead, window.slots.getLast? = some newest ∧
        displacement (window.slotStart timestamp) newest.startTime = ahead ∧
        ((ahead ≤ 0 ∧ window.advance timestamp = ([], window)) ∨
          (0 < ahead ∧ window.shape.slotCount.toNat ≤ slideCount window.shape ahead ∧
            window.advance timestamp =
              (window.slots, { window with
                slots := window.shape.freshSlots (window.slotStart timestamp) })) ∨
          (0 < ahead ∧ slideCount window.shape ahead < window.shape.slotCount.toNat ∧
            window.advance timestamp =
              ((slide window.shape.slotLength (slideCount window.shape ahead) window.slots).1,
                { window with
                  slots := (slide window.shape.slotLength (slideCount window.shape ahead)
                    window.slots).2 }))) := by
  cases hlast : window.slots.getLast? with
  | none =>
    have hempty := List.getLast?_eq_none_iff.mp hlast
    exact .inl ⟨hempty, advance_empty hempty timestamp⟩
  | some newest =>
    refine .inr ⟨newest, _, rfl, rfl, ?_⟩
    by_cases hahead : displacement (window.slotStart timestamp) newest.startTime ≤ 0
    · exact .inl ⟨hahead, advance_of_not_ahead hlast hahead⟩
    · have hpos := not_le.mp hahead
      unfold advance
      rw [hlast]
      dsimp only
      rw [if_neg hahead]
      split_ifs with hcount
      · exact .inr (.inl ⟨hpos, hcount, rfl⟩)
      · exact .inr (.inr ⟨hpos, Nat.not_le.mp hcount, rfl⟩)

@[simp]
theorem shape_advance (window : Window) (timestamp : UInt64) :
    (window.advance timestamp).2.shape = window.shape := by
  rcases advance_cases window timestamp with
    ⟨-, h⟩ | ⟨newest, ahead, -, -, ⟨-, h⟩ | ⟨-, -, h⟩ | ⟨-, -, h⟩⟩ <;> rw [h]

/-- A window that has moved is full. -/
theorem Contiguous.advance {window : Window} (h : window.Contiguous) (timestamp : UInt64) :
    (window.advance timestamp).2.Full := by
  rcases advance_cases window timestamp with
    ⟨-, hmove⟩ | ⟨newest, ahead, hlast, -, ⟨-, hmove⟩ | ⟨-, -, hmove⟩ | ⟨-, -, hmove⟩⟩
  · rw [hmove]
    exact full_freshSlots _ _
  all_goals
    have hne : window.slots ≠ [] := by
      intro hempty
      rw [hempty] at hlast
      simp at hlast
    rcases h with hempty | hfull
    · exact absurd hempty hne
    rw [hmove]
  · exact hfull
  · exact full_freshSlots _ _
  · rcases hfull with ⟨hlength, edge, htiled⟩
    rcases htiled.slide hne _ with ⟨htiled', hlength'⟩
    exact ⟨hlength'.trans hlength, _, htiled'⟩

/-- The slots by which a window moves cover the way it has to go. -/
theorem le_slideCount_mul {shape : Shape} (hpos : 0 < shape.slotLength.toNat) (ahead : Int) :
    ahead ≤ (slideCount shape ahead * shape.slotLength.toNat : Nat) := by
  have hdiv := Nat.div_add_mod (ahead.toNat + shape.slotLength.toNat - 1) shape.slotLength.toNat
  have hmod := Nat.mod_lt (ahead.toNat + shape.slotLength.toNat - 1) hpos
  rw [Nat.mul_comm] at hdiv
  unfold slideCount
  omega

/-- A way of a whole number of slots takes that many. -/
theorem slideCount_of_multiple {shape : Shape} (hpos : 0 < shape.slotLength.toNat) (steps : Nat) :
    slideCount shape (steps * shape.slotLength.toNat : Nat) = steps := by
  rw [slideCount, Int.toNat_natCast, Nat.add_sub_assoc hpos, Nat.mul_comm,
    Nat.mul_add_div hpos, Nat.div_eq_of_lt (Nat.sub_lt hpos Nat.one_pos), Nat.add_zero]

/-- A window shorter than half of the circle that has moved to a timestamp has reached it. -/
theorem Contiguous.reached {window : Window} (h : window.Contiguous)
    (hpos : 0 < window.shape.slotLength.toNat) (hcount : 0 < window.shape.slotCount.toNat)
    (hspan : window.shape.slotCount.toNat * window.shape.slotLength.toNat < 2 ^ 63)
    (timestamp : UInt64) :
    ∃ newest, (window.advance timestamp).2.slots.getLast? = some newest ∧
      displacement (window.slotStart timestamp) newest.startTime ≤ 0 := by
  have hfresh : ∃ newest,
      (window.shape.freshSlots (window.slotStart timestamp)).getLast? = some newest ∧
        displacement (window.slotStart timestamp) newest.startTime ≤ 0 :=
    ⟨_, getLast?_freshSlots hcount _, by simp [Slot.fresh]⟩
  rcases advance_cases window timestamp with
    ⟨-, hmove⟩ |
      ⟨newest, ahead, hlast, hway, ⟨hahead, hmove⟩ | ⟨-, -, hmove⟩ | ⟨hahead, hslides, hmove⟩⟩
  · rw [hmove]
    exact hfresh
  · rw [hmove]
    exact ⟨newest, hlast, hway.trans_le hahead⟩
  · rw [hmove]
    exact hfresh
  · rcases h with hempty | ⟨-, edge, htiled⟩
    · rw [hempty] at hlast
      simp at hlast
    rcases htiled.getLast_slide hlast (slideCount window.shape ahead) with
      ⟨moved, hmoved, hstart⟩
    rw [hmove]
    refine ⟨moved, hmoved, ?_⟩
    have hcover := le_slideCount_mul hpos ahead
    have hbound : slideCount window.shape ahead * window.shape.slotLength.toNat < 2 ^ 63 :=
      (Nat.mul_le_mul_right _ hslides.le).trans_lt hspan
    have hword := toNat_ofNat_mul (hbound.trans (by decide))
    rw [hstart]
    apply displacement_add_le
    · rw [hway]
      exact hahead
    · rw [hway, hword]
      exact hcover
    · rw [hword]
      exact hbound

/-- Moving to the same timestamp again changes nothing. -/
theorem Contiguous.advance_advance {window : Window} (h : window.Contiguous)
    (hshape : window.shape.Bounded) (timestamp : UInt64) :
    (window.advance timestamp).2.advance timestamp = ([], (window.advance timestamp).2) := by
  have hspan := hshape.span_le.trans_lt (by decide : 2 ^ 62 < 2 ^ 63)
  rcases h.reached hshape.slotLength_pos hshape.slotCount_pos hspan timestamp with
    ⟨newest, hlast, hahead⟩
  apply advance_of_not_ahead hlast
  rw [slotStart, shape_advance]
  exact hahead

end CacheMeter.Window
