import Mathlib
import CacheMeter.Proofs.Timeline.Grid
import CacheMeter.Proofs.Window.Conservation
import CacheMeter.Proofs.Window.Opening

/-!
# Windows after any calls

A window is filled, slid, replaced and forgotten by calls in any order, with timestamps
from all over the circle.  Whatever the order, it holds no slot at all or its full number
of them, one after the other.  As long as no timestamp comes too close to zero for a whole
window to lie before it, slots also keep their phase: a move round the end of the timeline
then always replaces the window.

Main results:

- Definition `Window.after`: the window after any calls.
- Theorem `Window.Contiguous.call`: no call leaves a gap.
- Theorem `Window.Phased.call`: no call with a late timestamp leaves the slot grid.
- Theorem `Window.represented_after`: both after any calls.
-/

namespace CacheMeter.Window

open Timeline

/-! ## Calls -/

/-- A call that may change a window. -/
inductive Call
  | advance (timestamp : UInt64)
  | update (m : Measurement)
  | reset
deriving DecidableEq, Repr

/-- The timestamp to which a call moves the window; a refused update moves it nowhere. -/
def Call.timestamp? : Call → Option UInt64
  | .advance timestamp => some timestamp
  | .update m => if m.duration.toNat < halfTurn then some m.endTime else none
  | .reset => none

/-- The window after a call.  A refused update changes nothing. -/
def call (window : Window) : Call → Window
  | .advance timestamp => (window.advance timestamp).2
  | .update m =>
    match window.update m with
    | .ok updated => updated
    | .error _ => window
  | .reset => window.reset.2

/-- The window after calls, one after the other. -/
def after (window : Window) (calls : List Call) : Window :=
  calls.foldl call window

/-- A measurement of half a turn and more is refused. -/
theorem update_of_ge {window : Window} {m : Measurement}
    (h : halfTurn ≤ m.duration.toNat) :
    window.update m = .error (.durationOutOfRange m.duration) :=
  update_eq_error_iff.mpr ⟨h, rfl⟩

/-- A measurement that is short enough is spread over the window moved to its end. -/
theorem call_update_of_lt {window : Window} {m : Measurement}
    (h : m.duration.toNat < halfTurn) :
    window.call (.update m) =
      { (window.advance m.endTime).2 with
        slots := distribute (window.advance m.endTime).2.slots m } := by
  simp only [call, update_of_lt h]

/-- One that is not changes nothing. -/
theorem call_update_of_ge {window : Window} {m : Measurement}
    (h : halfTurn ≤ m.duration.toNat) : window.call (.update m) = window := by
  simp only [call, update_of_ge h]

@[simp]
theorem shape_call (window : Window) (c : Call) : (window.call c).shape = window.shape := by
  cases c with
  | advance timestamp => exact shape_advance window timestamp
  | update m =>
    rcases Nat.lt_or_ge m.duration.toNat halfTurn with hshort | hlong
    · rw [call_update_of_lt hshort]
      exact shape_advance window m.endTime
    · rw [call_update_of_ge hlong]
  | reset => rfl

@[simp]
theorem shape_after (window : Window) (calls : List Call) :
    (window.after calls).shape = window.shape := by
  induction calls generalizing window with
  | nil => rfl
  | cons c rest ih => exact (ih (window.call c)).trans (shape_call window c)

/-! ## No gaps -/

/-- No call leaves a gap. -/
theorem Contiguous.call {window : Window} (h : window.Contiguous) (c : Call) :
    (window.call c).Contiguous := by
  cases c with
  | advance timestamp => exact .inr (h.advance timestamp)
  | update m =>
    rcases Nat.lt_or_ge m.duration.toNat halfTurn with hshort | hlong
    · rw [call_update_of_lt hshort]
      exact .inr ((h.advance m.endTime).distribute m)
    · rwa [call_update_of_ge hlong]
  | reset => exact .inl rfl

/-- A window stays contiguous through any calls. -/
theorem Contiguous.after {window : Window} (h : window.Contiguous) (calls : List Call) :
    (window.after calls).Contiguous := by
  induction calls generalizing window with
  | nil => exact h
  | cons c rest ih => exact ih (h.call c)

section Tilings

variable {length edge : UInt64} {slots : List Slot}

/-- Every slot is as long as the others. -/
theorem Tiled.endTime_of_mem (h : Tiled length edge slots) {slot : Slot}
    (hmem : slot ∈ slots) : slot.endTime = slot.startTime + length := by
  induction slots generalizing edge with
  | nil => exact absurd hmem List.not_mem_nil
  | cons first rest ih =>
    rcases List.mem_cons.mp hmem with rfl | hmem
    · rw [h.1, h.2.1]
    · exact ih h.2.2 hmem

/-- Each slot begins where the one before it ends. -/
theorem Tiled.isChain (h : Tiled length edge slots) :
    slots.IsChain fun a b => a.endTime = b.startTime := by
  induction slots generalizing edge with
  | nil => exact .nil
  | cons first rest ih =>
    cases rest with
    | nil => exact .singleton first
    | cons second rest =>
      have hnext : first.endTime = second.startTime := h.2.1.trans h.2.2.1.symm
      exact .cons_cons hnext (ih h.2.2)

end Tilings

/-! ## The slot grid -/

/-- A slot may begin at the word. -/
def Shape.OnGrid (shape : Shape) (word : UInt64) : Prop :=
  word.toNat ≡ shape.slotOffset.toNat [MOD shape.slotLength.toNat]

/-- A window that ends with the slot of the timestamp does not reach below the first
boundary. -/
def Shape.Late (shape : Shape) (timestamp : UInt64) : Prop :=
  shape.slotCount.toNat * shape.slotLength.toNat + shape.slotOffset.toNat ≤ timestamp.toNat

section Grid

variable {shape : Shape} {timestamp : UInt64}

theorem Shape.Late.offset_le (h : shape.Late timestamp) : shape.slotOffset ≤ timestamp := by
  rw [UInt64.le_iff_toNat_le]
  exact (Nat.le_add_left _ _).trans h

/-- The slot of a timestamp that is late enough begins on the grid. -/
theorem Shape.Late.onGrid_slotStart (h : shape.Late timestamp) :
    shape.OnGrid (shape.slotStart timestamp) := by
  rw [OnGrid, slotStart, toNat_gridStart h.offset_le]
  exact Nat.add_mul_mod_self_right _ _ _

/-- Its start is late enough as well. -/
theorem Shape.Late.slotStart (h : shape.Late timestamp) :
    shape.Late (shape.slotStart timestamp) := by
  rw [Late, Shape.slotStart, toNat_gridStart h.offset_le, Nat.add_comm]
  rw [Late] at h
  rcases Nat.eq_zero_or_pos shape.slotLength.toNat with hzero | hpos
  · simp [hzero]
  · have hslots : shape.slotCount.toNat ≤
        (timestamp.toNat - shape.slotOffset.toNat) / shape.slotLength.toNat := by
      rw [Nat.le_div_iff_mul_le hpos]
      omega
    exact Nat.add_le_add_left (Nat.mul_le_mul_right _ hslots) _

/-- Every slot of a fresh window begins on the grid. -/
theorem onGrid_freshSlots {newestStart : UInt64} (hlate : shape.Late newestStart)
    (hgrid : shape.OnGrid newestStart) {slot : Slot}
    (hmem : slot ∈ shape.freshSlots newestStart) : shape.OnGrid slot.startTime := by
  rcases List.mem_map.mp hmem with ⟨back, hback, rfl⟩
  have hlt : back < shape.slotCount.toNat := by simpa using hback
  have hword := newestStart.toNat_lt
  have hle : back * shape.slotLength.toNat ≤ newestStart.toNat :=
    (Nat.mul_le_mul_right _ hlt.le).trans ((Nat.le_add_right _ _).trans hlate)
  have hmul : (UInt64.ofNat back * shape.slotLength).toNat = back * shape.slotLength.toNat :=
    toNat_ofNat_mul (hle.trans_lt hword)
  have hstart : (newestStart - UInt64.ofNat back * shape.slotLength).toNat =
      newestStart.toNat - back * shape.slotLength.toNat := by
    rw [UInt64.toNat_sub_of_le, hmul]
    rw [UInt64.le_iff_toNat_le, hmul]
    exact hle
  have hshift : newestStart.toNat ≡
      newestStart.toNat - back * shape.slotLength.toNat [MOD shape.slotLength.toNat] := by
    conv_lhs => rw [← Nat.sub_add_cancel hle]
    exact Nat.add_mul_mod_self_right _ _ _
  rw [Shape.OnGrid, Slot.fresh, hstart]
  exact hshift.symm.trans hgrid

/-- On a way of at most a window's span, no timestamp from before the end of the timeline
leads to a late one. -/
theorem Shape.Late.le_of_near {target start : UInt64} (hlate : shape.Late target)
    (hahead : 0 < displacement target start)
    (hnear : displacement target start ≤
      (shape.slotCount.toNat * shape.slotLength.toNat : Nat)) : start ≤ target := by
  have hfirst := start.toNat_lt
  have hsize : UInt64.size = 18446744073709551616 := rfl
  rw [Shape.Late] at hlate
  rw [displacement, halfTurn_eq, UInt64.toNat_sub, hsize] at hahead hnear
  rw [UInt64.le_iff_toNat_le]
  -- Going round the end, the way would be longer than the target, hence than a whole window.
  split_ifs at hahead hnear <;> omega

/-- A window that slides to a late timestamp does not go round the end of the timeline. -/
theorem le_of_slides {target start : UInt64} {ahead : Int}
    (hpos : 0 < shape.slotLength.toNat) (hlate : shape.Late target)
    (hway : displacement target start = ahead) (hahead : 0 < ahead)
    (hcount : slideCount shape ahead < shape.slotCount.toNat) : start ≤ target := by
  have hcover := le_slideCount_mul hpos ahead
  have hspan : slideCount shape ahead * shape.slotLength.toNat ≤
      shape.slotCount.toNat * shape.slotLength.toNat := Nat.mul_le_mul_right _ hcount.le
  exact hlate.le_of_near (by omega) (by omega)

/-- On the grid, sliding goes exactly to the target. -/
theorem slideCount_mul_eq {target start : UInt64} {ahead : Int}
    (hpos : 0 < shape.slotLength.toNat) (htarget : shape.OnGrid target)
    (hstart : shape.OnGrid start) (hle : start ≤ target)
    (hway : displacement target start = ahead) (hahead : 0 < ahead) :
    start.toNat + slideCount shape ahead * shape.slotLength.toNat = target.toNat := by
  have hle' := UInt64.le_iff_toNat_le.mp hle
  have hdvd : shape.slotLength.toNat ∣ target.toNat - start.toNat :=
    (Nat.modEq_iff_dvd' hle').mp (hstart.trans htarget.symm)
  rcases hdvd with ⟨steps, hsteps⟩
  have hdist : ahead = (steps * shape.slotLength.toNat : Nat) := by
    rw [← hway, displacement_of_le hle (by omega), Nat.mul_comm, ← hsteps]
    omega
  rw [hdist, slideCount_of_multiple hpos, Nat.mul_comm, ← hsteps]
  omega

/-- Slots that a slide opens lie on the grid, up to the one that it goes to. -/
theorem onGrid_freshRun {target start edge : UInt64} {count : Nat}
    (hgrid : shape.OnGrid start) (hedge : edge = start + shape.slotLength)
    (hreach : start.toNat + count * shape.slotLength.toNat = target.toNat) {slot : Slot}
    (hmem : slot ∈ freshRun shape.slotLength edge count) : shape.OnGrid slot.startTime := by
  rcases (tiled_freshRun shape.slotLength edge count).startTime_of_mem hmem with
    ⟨index, hindex, hstart⟩
  rw [length_freshRun] at hindex
  have hlt := target.toNat_lt
  have hle : (index + 1) * shape.slotLength.toNat ≤ count * shape.slotLength.toNat :=
    Nat.mul_le_mul_right _ hindex
  have hreached : (index + 1) * shape.slotLength.toNat ≤ target.toNat :=
    hle.trans (hreach ▸ Nat.le_add_left _ _)
  have hmul := toNat_ofNat_mul (hreached.trans_lt hlt)
  have hsum : slot.startTime = start + UInt64.ofNat (index + 1) * shape.slotLength := by
    rw [hstart, hedge, ofNat_succ_mul]
    grind
  rw [Shape.OnGrid, hsum, UInt64.toNat_add, hmul, Nat.mod_eq_of_lt (by omega)]
  exact (Nat.add_mul_mod_self_right _ _ _).trans hgrid

end Grid

/-! ## Phase -/

/-- Every slot begins on the grid. -/
def Phased (window : Window) : Prop :=
  ∀ slot ∈ window.slots, window.shape.OnGrid slot.startTime

section Phase

variable {window : Window} {timestamp : UInt64}

/-- A move to a late timestamp opens slots on the grid. -/
theorem Phased.opening (h : window.Phased) (hcontiguous : window.Contiguous)
    (hpos : 0 < window.shape.slotLength.toNat) (hlate : window.shape.Late timestamp) :
    ∀ slot ∈ window.opening timestamp, window.shape.OnGrid slot.startTime := by
  intro slot hmem
  rcases opening_cases window timestamp with
    ⟨-, hopening⟩ |
      ⟨newest, ahead, hlast, hway, ⟨-, hopening⟩ | ⟨-, -, hopening⟩ |
        ⟨hahead, hcount, hopening⟩⟩
  all_goals rw [hopening] at hmem
  · exact onGrid_freshSlots hlate.slotStart hlate.onGrid_slotStart hmem
  · exact absurd hmem List.not_mem_nil
  · exact onGrid_freshSlots hlate.slotStart hlate.onGrid_slotStart hmem
  · have hnewest : window.shape.OnGrid newest.startTime :=
      h newest (List.mem_of_getLast? hlast)
    have hend : newest.endTime = newest.startTime + window.shape.slotLength := by
      rcases hcontiguous with hempty | ⟨-, edge, htiled⟩
      · simp [hempty] at hlast
      · exact (htiled.endTime_getLast hlast).2.symm
    have hle := le_of_slides hpos hlate.slotStart hway hahead hcount
    have hreach :=
      slideCount_mul_eq hpos hlate.onGrid_slotStart hnewest hle hway hahead
    exact onGrid_freshRun hnewest hend hreach hmem

/-- A window on the grid stays on it when it moves. -/
theorem Phased.advance (h : window.Phased) (hcontiguous : window.Contiguous)
    (hpos : 0 < window.shape.slotLength.toNat) (hlate : window.shape.Late timestamp) :
    (window.advance timestamp).2.Phased := by
  intro slot hmem
  rw [shape_advance]
  have hall : slot ∈ window.slots ++ window.opening timestamp := by
    rw [← advance_append]
    exact List.mem_append_right _ hmem
  rcases List.mem_append.mp hall with hold | hnew
  · exact h slot hold
  · exact h.opening hcontiguous hpos hlate slot hnew

/-- Distributing a measurement moves no slot. -/
theorem Phased.distribute (h : window.Phased) (m : Measurement) :
    Phased { window with slots := Window.distribute window.slots m } := by
  intro slot hmem
  have hspan : (slot.startTime, slot.endTime) ∈ spans window.slots := by
    rw [← spans_distribute window.slots m]
    exact List.mem_map_of_mem hmem
  rcases List.mem_map.mp hspan with ⟨same, hsame, hspans⟩
  have hstart : same.startTime = slot.startTime := congrArg Prod.fst hspans
  rw [← hstart]
  exact h same hsame

/-- No call with a late timestamp leaves the slot grid. -/
theorem Phased.call (h : window.Phased) (hcontiguous : window.Contiguous)
    (hpos : 0 < window.shape.slotLength.toNat) {c : Call}
    (hlate : ∀ timestamp ∈ c.timestamp?, window.shape.Late timestamp) :
    (window.call c).Phased := by
  cases c with
  | advance timestamp => exact h.advance hcontiguous hpos (hlate timestamp rfl)
  | update m =>
    rcases Nat.lt_or_ge m.duration.toNat halfTurn with hshort | hlong
    · have hend : m.endTime ∈ (Call.update m).timestamp? := by
        rw [Call.timestamp?, if_pos hshort]
        exact rfl
      rw [call_update_of_lt hshort]
      exact (h.advance hcontiguous hpos (hlate m.endTime hend)).distribute m
    · rwa [call_update_of_ge hlong]
  | reset => exact fun slot hmem => absurd hmem List.not_mem_nil

/-- It stays on it through any calls. -/
theorem Phased.after (h : window.Phased) (hcontiguous : window.Contiguous)
    (hpos : 0 < window.shape.slotLength.toNat) {calls : List Call}
    (hlate : ∀ c ∈ calls, ∀ timestamp ∈ c.timestamp?, window.shape.Late timestamp) :
    (window.after calls).Phased := by
  induction calls generalizing window with
  | nil => exact h
  | cons c rest ih =>
    have hfirst := h.call hcontiguous hpos (hlate c List.mem_cons_self)
    refine ih hfirst (hcontiguous.call c) ?_ ?_
    · rwa [shape_call]
    · intro other hmem
      rw [shape_call]
      exact hlate other (List.mem_cons_of_mem _ hmem)

end Phase

/-! ## Any calls -/

/-- What is known of a window of a shape, whichever calls led to it. -/
structure Represented (shape : Shape) (window : Window) : Prop where
  shape_eq : window.shape = shape
  /-- The window is empty or full, … -/
  length : window.slots = [] ∨ window.slots.length = shape.slotCount.toNat
  /-- … every slot has the length of the shape, … -/
  endTime_eq : ∀ slot ∈ window.slots, slot.endTime = slot.startTime + shape.slotLength
  /-- … and begins where the one before it ends. -/
  adjacent : window.slots.IsChain fun a b => a.endTime = b.startTime
  /-- Exactly the measurements longer than half the timeline are refused, … -/
  refuses_iff : ∀ m, (∃ refusal, window.update m = .error refusal) ↔
    2 ^ 63 - 1 < m.duration.toNat
  /-- … and they leave the window as it is. -/
  refused : ∀ m refusal, window.update m = .error refusal → window.call (.update m) = window

/-- A contiguous window is as a window of its shape has to be. -/
theorem Contiguous.represented {window : Window} (h : window.Contiguous) :
    Represented window.shape window where
  shape_eq := rfl
  length := h.imp id And.left
  endTime_eq slot hmem := by
    rcases h with hempty | ⟨-, edge, htiled⟩
    · rw [hempty] at hmem
      exact absurd hmem List.not_mem_nil
    · exact htiled.endTime_of_mem hmem
  adjacent := by
    rcases h with hempty | ⟨-, edge, htiled⟩
    · rw [hempty]
      exact .nil
    · exact htiled.isChain
  refuses_iff m := by
    have hhalf := halfTurn_eq
    constructor
    · rintro ⟨refusal, hrefusal⟩
      have hlong := (update_eq_error_iff.mp hrefusal).1
      omega
    · intro hlong
      exact ⟨_, update_of_ge (by omega)⟩
  refused m refusal hrefusal := call_update_of_ge (update_eq_error_iff.mp hrefusal).1

/-- A shape passes the check if slots have a length, there are some, and the offset lies within one.
-/
theorem Shape.check_eq_ok_iff {shape : Shape} :
    shape.check = .ok () ↔
      0 < shape.slotLength ∧ 0 < shape.slotCount ∧ shape.slotOffset < shape.slotLength := by
  have hlength : 0 < shape.slotLength ↔ shape.slotLength ≠ 0 := UInt64.pos_iff_ne_zero
  have hcount : 0 < shape.slotCount ↔ shape.slotCount ≠ 0 := UInt32.pos_iff_ne_zero
  rw [hlength, hcount, ← UInt64.not_le]
  unfold check
  split_ifs <;> simp [*]

/-- After any calls a window is empty or holds its full number of slots without gaps.  If
every timestamp so far left room for a whole window before it, all slots begin on the
grid; how close a timestamp comes to the end of the timeline does not matter. -/
theorem represented_after {shape : Shape} (hlength : 0 < shape.slotLength)
    (hcount : 0 < shape.slotCount) (hoffset : shape.slotOffset < shape.slotLength) :
    ∃ window, ofShape shape = .ok window ∧ ∀ calls,
      Represented shape (window.after calls) ∧
        ((∀ c ∈ calls, ∀ timestamp ∈ c.timestamp?,
            shape.slotCount.toNat * shape.slotLength.toNat + shape.slotOffset.toNat ≤
              timestamp.toNat) →
          ∀ slot ∈ (window.after calls).slots,
            slot.startTime.toNat ≡ shape.slotOffset.toNat [MOD shape.slotLength.toNat]) := by
  have hcheck : shape.check = .ok () := Shape.check_eq_ok_iff.mpr ⟨hlength, hcount, hoffset⟩
  have hpos : 0 < shape.slotLength.toNat := UInt64.lt_iff_toNat_lt.mp hlength
  have hcontiguous : Contiguous { shape := shape } := .inl rfl
  refine ⟨{ shape := shape }, by rw [ofShape, hcheck]; rfl, ?_⟩
  intro calls
  have hshape : (after { shape := shape } calls).shape = shape := shape_after _ calls
  refine ⟨?_, ?_⟩
  · have hrepresented := (hcontiguous.after calls).represented
    rwa [hshape] at hrepresented
  · intro hlate slot hmem
    have hphased : Phased { shape := shape } := fun slot hmem => absurd hmem List.not_mem_nil
    have hall := hphased.after hcontiguous hpos hlate slot hmem
    rwa [hshape] at hall

/-- Slots of ten nanoseconds that begin at a four. -/
def fours : Shape where
  slotLength := 10
  slotCount := 3
  slotOffset := 4

/-- Calls that fill, slide, replace and forget a window, some to timestamps that are taken
for old ones. -/
def wandering : List Call :=
  [.advance 45,
    .update
      { entity := 1, cycles := 9, instructions := 5, cacheMisses := 2, endTime := 62,
        duration := 15 },
    .update
      { entity := 1, cycles := 9, instructions := 5, cacheMisses := 2, endTime := 3,
        duration := 9223372036854775808 },
    .advance 18446744073709551615,
    .advance 9223372036854775807,
    .reset,
    .advance 18446744073709551605,
    .advance 34]

/-- The last call goes round the end of the timeline. -/
theorem represented_after_wandering :
    0 < fours.slotLength ∧ 0 < fours.slotCount ∧ fours.slotOffset < fours.slotLength ∧
      (∀ c ∈ wandering, ∀ timestamp ∈ c.timestamp?, 34 ≤ timestamp.toNat) ∧
      ∃ window, ofShape fours = .ok window ∧
        Represented fours (window.after wandering) ∧
        ∀ slot ∈ (window.after wandering).slots, slot.startTime.toNat ≡ 4 [MOD 10] := by
  have hlate : ∀ c ∈ wandering, ∀ timestamp ∈ c.timestamp?, 34 ≤ timestamp.toNat := by
    simp [wandering, Call.timestamp?, halfTurn_eq]
  obtain ⟨window, hwindow, hafter⟩ :=
    represented_after (by decide : 0 < fours.slotLength) (by decide : 0 < fours.slotCount)
      (by decide)
  exact ⟨by decide, by decide, by decide, hlate, window, hwindow, (hafter wandering).1,
    (hafter wandering).2 hlate⟩

end CacheMeter.Window
