import Mathlib
import CacheMeter.Proofs.Window.Spreading

/-!
# Slots that come and slots that leave

A window is a queue of slots: a move takes the oldest ones out in front and puts empty
ones in behind, or replaces all of them.  Either way the slots that left, followed by those
then held, are the slots held before, followed by the ones that the move opened.

Main results:

- Definition `Window.opening`: the slots that a move opens.
- Theorem `Window.advance_append`: no slot appears or disappears otherwise.
- Theorem `Window.moves_advance`: a move slides the window, replaces it or leaves it alone.
-/

namespace CacheMeter.Window

open Timeline

/-! ## Runs of empty slots -/

/-- Empty slots one after the other, the first beginning at `edge`. -/
def freshRun (length : UInt64) : UInt64 → Nat → List Slot
  | _, 0 => []
  | edge, count + 1 => Slot.fresh edge length :: freshRun length (edge + length) count

/-- Nothing has been recorded in the slots. -/
def Unused (slots : List Slot) : Prop :=
  ∀ slot ∈ slots, slot.totals = Table.empty

section Runs

variable {length edge : UInt64} {slots : List Slot} {count : Nat}

@[simp]
theorem length_freshRun (length edge : UInt64) (count : Nat) :
    (freshRun length edge count).length = count := by
  induction count generalizing edge with
  | zero => rfl
  | succ count ih => simp [freshRun, ih]

/-- Fresh slots lie side by side. -/
theorem tiled_freshRun (length edge : UInt64) (count : Nat) :
    Tiled length edge (freshRun length edge count) := by
  induction count generalizing edge with
  | zero => trivial
  | succ count ih => exact ⟨rfl, rfl, ih (edge + length)⟩

/-- Nothing is recorded in them. -/
theorem unused_freshRun (length edge : UInt64) (count : Nat) :
    Unused (freshRun length edge count) := by
  induction count generalizing edge with
  | zero => exact fun slot hmem => absurd hmem List.not_mem_nil
  | succ count ih =>
    intro slot hmem
    rcases List.mem_cons.mp hmem with rfl | hmem
    · rfl
    · exact ih (edge + length) slot hmem

/-- The slots of a tiling begin one length after the other. -/
theorem Tiled.startTime_of_mem (h : Tiled length edge slots) {slot : Slot}
    (hmem : slot ∈ slots) :
    ∃ index < slots.length, slot.startTime = edge + UInt64.ofNat index * length := by
  induction slots generalizing edge with
  | nil => exact absurd hmem List.not_mem_nil
  | cons first rest ih =>
    rcases List.mem_cons.mp hmem with rfl | hmem
    · exact ⟨0, by simp, by rw [h.1]; simp⟩
    · rcases ih h.2.2 hmem with ⟨index, hindex, hstart⟩
      refine ⟨index + 1, by simpa using hindex, ?_⟩
      rw [hstart, ofNat_succ_mul]
      grind

end Runs

theorem unused_freshSlots (shape : Shape) (newestStart : UInt64) :
    Unused (shape.freshSlots newestStart) := by
  intro slot hmem
  rcases List.mem_map.mp hmem with ⟨back, -, rfl⟩
  rfl

/-! ## Sliding -/

/-- Sliding opens slots behind the newest one. -/
theorem slide_append {slots : List Slot} {newest : Slot}
    (hlast : slots.getLast? = some newest) (length : UInt64) (count : Nat) :
    (slide length count slots).1 ++ (slide length count slots).2 =
      slots ++ freshRun length newest.endTime count := by
  induction count generalizing slots newest with
  | zero => simp [slide, freshRun]
  | succ count ih =>
    cases slots with
    | nil => simp at hlast
    | cons oldest rest =>
      have hnewest : (oldest :: rest).getLast (List.cons_ne_nil oldest rest) = newest := by
        rw [List.getLast?_eq_some_getLast (List.cons_ne_nil oldest rest)] at hlast
        exact Option.some.inj hlast
      have hrest : (rest ++ [Slot.fresh newest.endTime length]).getLast? =
          some (Slot.fresh newest.endTime length) := by simp
      have hend : (Slot.fresh newest.endTime length).endTime = newest.endTime + length := rfl
      have hlater := ih hrest
      rw [hend] at hlater
      simp only [slide, hnewest, List.cons_append]
      rw [hlater, freshRun, List.append_assoc, List.singleton_append]

theorem length_slide {slots : List Slot} (hne : slots ≠ []) (length : UInt64) (count : Nat) :
    (slide length count slots).1.length = count := by
  induction count generalizing slots with
  | zero => rfl
  | succ count ih =>
    cases slots with
    | nil => exact absurd rfl hne
    | cons oldest rest =>
      simp only [slide, List.length_cons]
      rw [ih (by simp)]

/-! ## Moves -/

/-- The slots that a move to a timestamp opens, in the order of time. -/
def opening (window : Window) (timestamp : UInt64) : List Slot :=
  ((window.advance timestamp).1 ++ (window.advance timestamp).2.slots).drop
    window.slots.length

/-- The slots that left and those then held are the ones held before and the ones opened. -/
theorem advance_append (window : Window) (timestamp : UInt64) :
    (window.advance timestamp).1 ++ (window.advance timestamp).2.slots =
      window.slots ++ window.opening timestamp := by
  have hheld : window.slots <+:
      (window.advance timestamp).1 ++ (window.advance timestamp).2.slots := by
    rcases advance_cases window timestamp with
      ⟨hempty, -⟩ | ⟨newest, ahead, hlast, -, ⟨-, hmove⟩ | ⟨-, -, hmove⟩ | ⟨-, -, hmove⟩⟩
    · rw [hempty]
      exact List.nil_prefix
    · rw [hmove]
      exact List.prefix_rfl
    · rw [hmove]
      exact List.prefix_append _ _
    · rw [hmove, slide_append hlast]
      exact List.prefix_append _ _
  exact (List.prefix_iff_eq_append.mp hheld).symm

/-- A move opens a whole window, nothing, or the slots behind the newest one. -/
theorem opening_cases (window : Window) (timestamp : UInt64) :
    (window.slots = [] ∧
        window.opening timestamp = window.shape.freshSlots (window.slotStart timestamp)) ∨
      ∃ newest ahead, window.slots.getLast? = some newest ∧
        displacement (window.slotStart timestamp) newest.startTime = ahead ∧
        ((ahead ≤ 0 ∧ window.opening timestamp = []) ∨
          (0 < ahead ∧ window.shape.slotCount.toNat ≤ slideCount window.shape ahead ∧
            window.opening timestamp =
              window.shape.freshSlots (window.slotStart timestamp)) ∨
          (0 < ahead ∧ slideCount window.shape ahead < window.shape.slotCount.toNat ∧
            window.opening timestamp = freshRun window.shape.slotLength newest.endTime
              (slideCount window.shape ahead))) := by
  unfold opening
  rcases advance_cases window timestamp with
    ⟨hempty, hmove⟩ |
      ⟨newest, ahead, hlast, hway, ⟨hahead, hmove⟩ | ⟨hahead, hcount, hmove⟩ |
        ⟨hahead, hcount, hmove⟩⟩
  · rw [hmove, hempty]
    exact .inl ⟨rfl, rfl⟩
  · rw [hmove]
    exact .inr ⟨newest, ahead, hlast, hway, .inl ⟨hahead, by simp⟩⟩
  · rw [hmove]
    exact .inr ⟨newest, ahead, hlast, hway, .inr (.inl ⟨hahead, hcount, by simp⟩)⟩
  · rw [hmove, slide_append hlast]
    exact .inr ⟨newest, ahead, hlast, hway, .inr (.inr ⟨hahead, hcount, by simp⟩)⟩

/-! ## What a move does -/

/-- What a move does to the slots held `before`: it slides the window by some slots, it
replaces them all by later ones, or it leaves them alone. -/
inductive Moves (length : UInt64) (before : List Slot) : List Slot → List Slot → Prop
  | slides {evicted after opened : List Slot} (hopened : opened ≠ [])
    (hcount : evicted.length = opened.length)
    (hsplit : evicted ++ after = before ++ opened) (hunused : Unused opened)
    (htiled : ∃ edge, Tiled length edge (before ++ opened)) : Moves length before evicted after
  | replaces {after : List Slot} (hunused : Unused after)
    (htiled : ∃ edge, Tiled length edge after)
    (hlater : ∀ newest ∈ before.getLast?, ∀ slot ∈ after,
      0 < displacement slot.startTime newest.startTime) : Moves length before before after
  | stays : Moves length before [] before

/-- Moving back by less than the way ahead stays ahead. -/
theorem displacement_sub_pos {a b back : UInt64} {ahead : Int}
    (hway : displacement a b = ahead) (hback : (back.toNat : Int) < ahead) :
    0 < displacement (a - back) b := by
  have hlt := (a - b).toNat_lt
  have hsize : UInt64.size = 18446744073709551616 := rfl
  have hsplit : a - back - b = a - b - back := by grind
  have hle : back ≤ a - b := by
    rw [UInt64.le_iff_toNat_le]
    rw [displacement, halfTurn_eq, hsize] at hway
    split_ifs at hway <;> omega
  have hsub : (a - back - b).toNat = (a - b).toNat - back.toNat := by
    rw [hsplit, UInt64.toNat_sub_of_le _ _ hle]
  rw [displacement, halfTurn_eq, hsize] at hway
  rw [displacement, halfTurn_eq, hsize, hsub]
  split_ifs at * <;> omega

/-- A whole window that takes the place of another begins after its newest slot. -/
theorem displacement_freshSlots_pos {shape : Shape} {newestStart start : UInt64} {ahead : Int}
    (hway : displacement newestStart start = ahead)
    (hcount : shape.slotCount.toNat ≤ slideCount shape ahead) {slot : Slot}
    (hmem : slot ∈ shape.freshSlots newestStart) : 0 < displacement slot.startTime start := by
  rcases List.mem_map.mp hmem with ⟨back, hback, rfl⟩
  have hlt : back < slideCount shape ahead := by
    have hback' : back < shape.slotCount.toNat := by simpa using hback
    omega
  have hsteps : (back + 1) * shape.slotLength.toNat ≤
      ahead.toNat + shape.slotLength.toNat - 1 :=
    (Nat.mul_le_mul_right _ hlt).trans (Nat.div_mul_le_self _ _)
  have hpos : 0 < shape.slotLength.toNat := by
    rw [Nat.pos_iff_ne_zero]
    intro hzero
    rw [slideCount, hzero, Nat.div_zero] at hlt
    exact Nat.not_lt_zero back hlt
  have hword : (UInt64.ofNat back * shape.slotLength).toNat ≤
      back * shape.slotLength.toNat := by
    rw [UInt64.toNat_mul, UInt64.toNat_ofNat', Nat.mod_mul_mod]
    exact Nat.mod_le _ _
  rw [Nat.succ_mul] at hsteps
  exact displacement_sub_pos hway (by omega)

/-- A window that is behind slides at least once. -/
theorem slideCount_pos {shape : Shape} (hpos : 0 < shape.slotLength.toNat) {ahead : Int}
    (hahead : 0 < ahead) : 0 < slideCount shape ahead :=
  Nat.div_pos (by omega) hpos

/-- A window without gaps slides, is replaced, or stays. -/
theorem moves_advance {window : Window} (h : window.Contiguous)
    (hpos : 0 < window.shape.slotLength.toNat) (timestamp : UInt64) :
    Moves window.shape.slotLength window.slots (window.advance timestamp).1
      (window.advance timestamp).2.slots := by
  have hunused := unused_freshSlots window.shape (window.slotStart timestamp)
  have htiled := tiled_freshSlots window.shape (window.slotStart timestamp)
  rcases advance_cases window timestamp with
    ⟨hempty, hmove⟩ |
      ⟨newest, ahead, hlast, hway, ⟨-, hmove⟩ | ⟨-, hcount, hmove⟩ | ⟨hahead, -, hmove⟩⟩
  · rw [hmove, hempty]
    exact .replaces hunused ⟨_, htiled⟩ (by simp)
  · rw [hmove]
    exact .stays
  · rw [hmove]
    refine .replaces hunused ⟨_, htiled⟩ ?_
    intro other hother slot hmem
    obtain rfl : newest = other := by simpa [hlast] using hother
    exact displacement_freshSlots_pos hway hcount hmem
  · rw [hmove]
    have hne : window.slots ≠ [] := by
      intro hempty
      simp [hempty] at hlast
    have hopened := slideCount_pos hpos hahead
    refine .slides ?_ ?_ (slide_append hlast _ _) (unused_freshRun _ _ _) ?_
    · rw [← List.length_pos_iff_ne_nil, length_freshRun]
      exact hopened
    · rw [length_slide hne, length_freshRun]
    · rcases h with hempty | ⟨-, edge, htiles⟩
      · exact absurd hempty hne
      · refine ⟨edge, tiled_append.mpr ⟨htiles, ?_⟩⟩
        rw [← (htiles.endTime_getLast hlast).1]
        exact tiled_freshRun _ _ _

end CacheMeter.Window
