import Mathlib
import CacheMeter.Proofs.Window.Chronicle

/-!
# Seams between slots

The seam between two slots, one opened after the other, is the time from the end of the
earlier one to the start of the later one; it is negative where they overlap.  Slots that a
window slides to leave no time between them.  A window that is replaced starts again on the
slot grid, which the slots held may have lost on their way round the end of the timeline:
where the way ahead takes as many slots as the window holds, and yet is shorter than the
window, the new slots reach back over the newest one held.

Main results:

- Definition `Window.Tears`: a move makes slots overlap.
- Theorem `Window.Contiguous.seam_opening`: the seam that a move leaves.
- Theorem `Window.apart_iff_neverTears`: slots overlap exactly where some move tore them, and
  no move does as long as every timestamp leaves room for a window before it.
-/

namespace CacheMeter.Window

open Timeline

/-! ## Seams -/

/-- The time from the end of a slot to the start of a later one. -/
def seam (earlier later : Slot) : Int :=
  displacement later.startTime earlier.endTime

/-- Every seam between consecutive slots is as described. -/
def Seams (described : Int → Prop) (slots : List Slot) : Prop :=
  slots.IsChain fun earlier later => described (seam earlier later)

/-- No slot begins before the one in front of it ends. -/
def Apart (slots : List Slot) : Prop :=
  Seams (0 ≤ ·) slots

/-- Consecutive slots have no instant in common. -/
def Disjoint (slots : List Slot) : Prop :=
  slots.IsChain fun earlier later =>
    ∀ instant, ¬(earlier.contains instant = true ∧ later.contains instant = true)

section Lists

variable {described : Int → Prop} {length edge : UInt64} {slots others : List Slot}

/-- Only the times of slots matter for their seams. -/
theorem Seams.congr (h : Seams described slots) (hspans : spans others = spans slots) :
    Seams described others := by
  have hchain : (spans slots).IsChain fun earlier later =>
      described (displacement later.1 earlier.2) :=
    List.isChain_map _ |>.mpr h
  rw [← hspans] at hchain
  exact List.isChain_map _ |>.mp hchain

theorem seams_congr (hspans : spans others = spans slots) :
    Seams described others ↔ Seams described slots :=
  ⟨fun h => h.congr hspans.symm, fun h => h.congr hspans⟩

/-- Slots without gaps have no time between them. -/
theorem Tiled.seams (h : Tiled length edge slots) (hzero : described 0) :
    Seams described slots := by
  refine h.isChain.imp ?_
  intro earlier later hadjacent
  rwa [seam, hadjacent, displacement_self]

end Lists

/-! ## The seam that a move leaves -/

section Moves

variable {window : Window} {timestamp : UInt64}

/-- How far a window has to go to a timestamp. -/
def way (window : Window) (timestamp : UInt64) (newest : Slot) : Int :=
  displacement (window.slotStart timestamp) newest.startTime

/-- The way to the timestamp takes as many slots as the window holds, counting the last one
in full, but is shorter than the window. -/
def Tears (window : Window) (timestamp : UInt64) : Prop :=
  ∃ newest ∈ window.slots.getLast?,
    window.shape.slotCount.toNat * window.shape.slotLength.toNat <
        window.way timestamp newest + window.shape.slotLength.toNat ∧
      window.way timestamp newest <
        window.shape.slotCount.toNat * window.shape.slotLength.toNat

/-- A way takes at least so many slots if all but one of them do not cover it. -/
theorem le_slideCount_iff {shape : Shape} (hpos : 0 < shape.slotLength.toNat) {ahead : Int}
    (hahead : 0 < ahead) (count : Nat) :
    count ≤ slideCount shape ahead ↔
      ((count * shape.slotLength.toNat : Nat) : Int) < ahead + shape.slotLength.toNat := by
  rw [slideCount, Nat.le_div_iff_mul_le hpos]
  omega

/-- A window that takes the place of another begins as far after the newest slot as the way
is longer than the window. -/
theorem seam_freshSlots {shape : Shape} (hshape : shape.Bounded) {newestStart : UInt64}
    {newest first : Slot} (hend : newest.startTime + shape.slotLength = newest.endTime)
    (hahead : 0 < displacement newestStart newest.startTime)
    (hfirst : first ∈ (shape.freshSlots newestStart).head?) :
    seam newest first = displacement newestStart newest.startTime -
      (shape.slotCount.toNat * shape.slotLength.toNat : Nat) := by
  have hspan := toNat_ofNat_mul (hshape.span_le.trans_lt (by decide))
  have hstart := (tiled_freshSlots shape newestStart).startTime_head hfirst
  have hshift : displacement (newestStart + shape.slotLength) newest.endTime =
      displacement newestStart newest.startTime := by
    rw [← hend, displacement_add_right]
  rw [seam, hstart, displacement_sub_left (by rwa [hshift]) (by rw [hspan]; exact hshape.span_le),
    hshift, hspan]

/-- A move that opens slots goes ahead, and its first slot follows the newest one without
time between them unless the window is replaced. -/
theorem Contiguous.seam_opening (h : window.Contiguous) (hshape : window.shape.Bounded)
    {newest first : Slot} (hnewest : newest ∈ window.slots.getLast?)
    (hfirst : first ∈ (window.opening timestamp).head?) :
    0 < window.way timestamp newest ∧
      seam newest first =
        if window.shape.slotCount.toNat ≤ slideCount window.shape (window.way timestamp newest)
        then window.way timestamp newest -
          (window.shape.slotCount.toNat * window.shape.slotLength.toNat : Nat)
        else 0 := by
  have hend : newest.startTime + window.shape.slotLength = newest.endTime := by
    rcases h with hempty | ⟨-, edge, htiled⟩
    · rw [hempty] at hnewest
      simp at hnewest
    · exact (htiled.endTime_getLast hnewest).2
  rcases opening_cases window timestamp with
    ⟨hempty, -⟩ |
      ⟨other, ahead, hlast, hway, ⟨-, hopening⟩ | ⟨hahead, hcount, hopening⟩ |
        ⟨hahead, hcount, hopening⟩⟩
  · rw [hempty] at hnewest
    simp at hnewest
  all_goals
    obtain rfl : other = newest := by simpa [hlast] using hnewest
    obtain rfl : window.way timestamp other = ahead := hway
    rw [hopening] at hfirst
  · simp at hfirst
  · rw [if_pos hcount]
    exact ⟨hahead, seam_freshSlots hshape hend hahead hfirst⟩
  · have hstart := (tiled_freshRun _ _ _).startTime_head hfirst
    rw [if_neg (by omega), seam, hstart, displacement_self]
    exact ⟨hahead, rfl⟩

/-- A move ahead opens a slot. -/
theorem opening_ne_nil (hshape : window.shape.Bounded) {newest : Slot}
    (hnewest : newest ∈ window.slots.getLast?) (hahead : 0 < window.way timestamp newest) :
    window.opening timestamp ≠ [] := by
  rw [← List.length_pos_iff_ne_nil]
  rcases opening_cases window timestamp with
    ⟨hempty, -⟩ |
      ⟨other, ahead, hlast, hway, ⟨hstays, -⟩ | ⟨-, -, hopening⟩ | ⟨-, -, hopening⟩⟩
  · rw [hempty] at hnewest
    simp at hnewest
  all_goals
    obtain rfl : other = newest := by simpa [hlast] using hnewest
    obtain rfl : window.way timestamp other = ahead := hway
  · omega
  · rw [hopening, length_freshSlots]
    exact hshape.slotCount_pos
  · rw [hopening, length_freshRun]
    exact slideCount_pos hshape.slotLength_pos hahead

/-- A way that takes a whole window of slots leads ahead. -/
theorem way_pos (hshape : window.shape.Bounded) {newest : Slot}
    (hlong : window.shape.slotCount.toNat * window.shape.slotLength.toNat <
      window.way timestamp newest + window.shape.slotLength.toNat) :
    0 < window.way timestamp newest := by
  have hspan : ((1 * window.shape.slotLength.toNat : Nat) : Int) ≤
      (window.shape.slotCount.toNat * window.shape.slotLength.toNat : Nat) :=
    Int.ofNat_le.mpr (Nat.mul_le_mul_right _ hshape.slotCount_pos)
  push_cast at hspan
  omega

/-- The slots that a move opens begin before the newest one held ends exactly where the move
tears. -/
theorem Contiguous.seam_nonneg_iff (h : window.Contiguous) (hshape : window.shape.Bounded) :
    (∀ newest ∈ window.slots.getLast?, ∀ first ∈ (window.opening timestamp).head?,
        0 ≤ seam newest first) ↔ ¬window.Tears timestamp := by
  constructor
  · rintro hseams ⟨newest, hnewest, hlong, hshort⟩
    have hahead := way_pos hshape hlong
    have hopened := opening_ne_nil hshape hnewest hahead
    have hfirst := List.head?_eq_some_head hopened
    have hseam := (h.seam_opening hshape hnewest hfirst).2
    have hcount := (le_slideCount_iff hshape.slotLength_pos hahead
      window.shape.slotCount.toNat).mpr (by exact_mod_cast hlong)
    rw [if_pos hcount] at hseam
    have hnonneg := hseams newest hnewest _ hfirst
    push_cast at hseam
    omega
  · intro htears newest hnewest first hfirst
    rcases h.seam_opening hshape hnewest hfirst with ⟨hahead, hseam⟩
    rw [hseam]
    split_ifs with hcount
    · rw [le_slideCount_iff hshape.slotLength_pos hahead] at hcount
      by_contra hneg
      refine htears ⟨newest, hnewest, by exact_mod_cast hcount, ?_⟩
      push_cast at hneg
      omega
    · exact le_rfl

/-- Even where a move tears, a slot is not left behind as a whole. -/
theorem Contiguous.neg_length_lt_seam (h : window.Contiguous) (hshape : window.shape.Bounded) :
    ∀ newest ∈ window.slots.getLast?, ∀ first ∈ (window.opening timestamp).head?,
      -(window.shape.slotLength.toNat : Int) < seam newest first := by
  intro newest hnewest first hfirst
  have hpos := hshape.slotLength_pos
  rcases h.seam_opening hshape hnewest hfirst with ⟨hahead, hseam⟩
  rw [hseam]
  split_ifs with hcount
  · rw [le_slideCount_iff hpos hahead] at hcount
    omega
  · omega

/-- On the slot grid a move to a late timestamp does not tear: the way ahead is a whole number
of slots. -/
theorem Phased.not_tears (h : window.Phased) (hshape : window.shape.Bounded)
    (hlate : window.shape.Late timestamp) : ¬window.Tears timestamp := by
  rintro ⟨newest, hnewest, hlong, hshort⟩
  have hpos := hshape.slotLength_pos
  have hahead := way_pos hshape hlong
  have hle := hlate.slotStart.le_of_near hahead (by exact_mod_cast hshort.le)
  have hgrid := h newest (List.mem_of_getLast? hnewest)
  have hreach : newest.startTime.toNat + slideCount window.shape (window.way timestamp newest) *
      window.shape.slotLength.toNat = (window.slotStart timestamp).toNat :=
    slideCount_mul_eq hpos hlate.onGrid_slotStart hgrid hle rfl hahead
  have hdirect : window.way timestamp newest =
      ((window.slotStart timestamp).toNat : Int) - newest.startTime.toNat :=
    displacement_of_le hle hahead
  have hcount := (le_slideCount_iff hpos hahead _).mpr (by exact_mod_cast hlong)
  have hcover := Nat.mul_le_mul_right window.shape.slotLength.toNat hcount
  have hshort' : window.way timestamp newest <
      (window.shape.slotCount.toNat * window.shape.slotLength.toNat : Nat) := by
    exact_mod_cast hshort
  omega

end Moves

/-! ## Instants -/

section Instants

variable {slots : List Slot} {length : UInt64}

/-- Of two slots less than a length apart, the later one begins after the earlier one ends
exactly if they share no instant. -/
theorem seam_nonneg_iff_disjoint {earlier later : Slot}
    (hearlier : earlier.endTime = earlier.startTime + length)
    (hlater : later.endTime = later.startTime + length) (hpos : 0 < length.toNat)
    (hlength : length.toNat ≤ 2 ^ 62) (hnear : -(length.toNat : Int) < seam earlier later) :
    0 ≤ seam earlier later ↔
      ∀ instant, ¬(earlier.contains instant = true ∧ later.contains instant = true) := by
  have hsize : UInt64.size = 18446744073709551616 := rfl
  rw [seam, hearlier, displacement, halfTurn_eq, hsize] at hnear ⊢
  have hhalf : length.toNat ≤ 2 ^ 63 := hlength.trans (by decide)
  simp only [contains_iff_offset_lt hearlier hhalf, contains_iff_offset_lt hlater hhalf]
  constructor
  · intro hseam instant hboth
    rw [offset, offset] at hboth
    have hfirst := (instant - earlier.startTime).toNat_lt
    have hsecond := (instant - later.startTime).toNat_lt
    have hsplit : later.startTime - (earlier.startTime + length) =
        (instant - earlier.startTime) - ((instant - later.startTime) + length) := by grind
    rw [hsplit, UInt64.toNat_sub (instant - earlier.startTime),
      UInt64.toNat_add (instant - later.startTime)] at hseam
    split_ifs at hseam <;> omega
  · intro hdisjoint
    by_contra hneg
    -- Otherwise the later slot begins within the earlier one.
    refine hdisjoint later.startTime ⟨?_, by simpa using hpos⟩
    have hgap := (later.startTime - (earlier.startTime + length)).toNat_lt
    have hsplit : later.startTime - earlier.startTime =
        (later.startTime - (earlier.startTime + length)) + length := by grind
    rw [offset, hsplit, UInt64.toNat_add]
    split_ifs at * <;> omega

/-- Slots of one length, each of which begins less than a length before the one in front of
it ends, or later. -/
structure Laid (length : UInt64) (slots : List Slot) : Prop where
  endTime_eq : ∀ slot ∈ slots, slot.endTime = slot.startTime + length
  near : Seams (-(length.toNat : Int) < ·) slots

/-- Slots laid out do not overlap exactly if consecutive ones share no instant. -/
theorem Laid.apart_iff_disjoint (h : Laid length slots) (hpos : 0 < length.toNat)
    (hlength : length.toNat ≤ 2 ^ 62) : Apart slots ↔ Disjoint slots := by
  have hnear := h.near
  rw [Seams, List.isChain_iff_getElem] at hnear
  rw [Apart, Seams, Disjoint, List.isChain_iff_getElem, List.isChain_iff_getElem]
  refine forall₂_congr fun index hindex => ?_
  exact seam_nonneg_iff_disjoint (h.endTime_eq _ (List.getElem_mem _))
    (h.endTime_eq _ (List.getElem_mem _)) hpos hlength (hnear index hindex)

theorem Laid.congr {others : List Slot} (h : Laid length slots)
    (hspans : spans others = spans slots) : Laid length others := by
  refine ⟨?_, h.near.congr hspans⟩
  intro slot hmem
  have hspan : (slot.startTime, slot.endTime) ∈ spans slots :=
    hspans ▸ List.mem_map_of_mem hmem
  rcases List.mem_map.mp hspan with ⟨other, hother, hsame⟩
  obtain ⟨hstart, hend⟩ := Prod.mk.inj hsame
  rw [← hstart, ← hend, h.endTime_eq other hother]

end Instants

/-! ## Any calls -/

section Runs

variable {chronicle : Chronicle} {timestamp : UInt64}

/-- A move opens slots without gaps. -/
theorem tiled_opening (window : Window) (timestamp : UInt64) :
    ∃ edge, Tiled window.shape.slotLength edge (window.opening timestamp) := by
  rcases opening_cases window timestamp with
    ⟨-, hopening⟩ |
      ⟨newest, ahead, -, -, ⟨-, hopening⟩ | ⟨-, -, hopening⟩ | ⟨-, -, hopening⟩⟩
  all_goals rw [hopening]
  · exact ⟨_, tiled_freshSlots _ _⟩
  · exact ⟨0, trivial⟩
  · exact ⟨_, tiled_freshSlots _ _⟩
  · exact ⟨_, tiled_freshRun _ _ _⟩

/-- A move adds the seam that it leaves. -/
theorem Accounted.seams_moved (h : Accounted chronicle) {described : Int → Prop}
    (hzero : described 0) :
    Seams described (chronicle.moved timestamp).slots ↔
      Seams described chronicle.slots ∧
        ∀ newest ∈ chronicle.window.slots.getLast?,
          ∀ first ∈ (chronicle.window.opening timestamp).head?,
            described (seam newest first) := by
  rcases tiled_opening chronicle.window timestamp with ⟨edge, htiled⟩
  rw [Chronicle.slots_moved, Seams, List.isChain_append, h.getLast?_slots]
  exact ⟨fun ⟨hbefore, _, hseam⟩ => ⟨hbefore, hseam⟩,
    fun ⟨hbefore, hseam⟩ => ⟨hbefore, htiled.seams hzero, hseam⟩⟩

/-- Slots stay apart in a move that does not tear, and in no other. -/
theorem Accounted.apart_moved (h : Accounted chronicle) :
    Apart (chronicle.moved timestamp).slots ↔
      Apart chronicle.slots ∧ ¬chronicle.window.Tears timestamp := by
  rw [Apart, h.seams_moved le_rfl, h.contiguous.seam_nonneg_iff h.bounded]
  rfl

/-- No call moves the window in a way that tears. -/
def NeverTears (window : Window) : List Call → Prop
  | [] => True
  | c :: rest =>
    (∀ timestamp ∈ c.timestamp?, ¬window.Tears timestamp) ∧ (window.call c).NeverTears rest

/-- What a call does to the times of the slots is the move that it makes, if any. -/
theorem spans_step (chronicle : Chronicle) {c : Call} (hc : c ≠ .reset) :
    (c.timestamp? = none ∧ chronicle.step c = chronicle) ∨
      ∃ timestamp, c.timestamp? = some timestamp ∧
        spans (chronicle.step c).slots = spans (chronicle.moved timestamp).slots := by
  cases c with
  | advance timestamp => exact .inr ⟨timestamp, rfl, rfl⟩
  | update m =>
    rcases Nat.lt_or_ge m.duration.toNat halfTurn with hshort | hlong
    · refine .inr ⟨m.endTime, if_pos hshort, ?_⟩
      rw [Chronicle.step_update_of_lt _ hshort, Chronicle.slots, Chronicle.slots, spans_append,
        spans_append, spans_distribute]
      rfl
    · exact .inl ⟨if_neg (Nat.not_lt.mpr hlong), Chronicle.step_update_of_ge _ hlong⟩
  | reset => exact absurd rfl hc

theorem Accounted.apart_step (h : Accounted chronicle) {c : Call} (hc : c ≠ .reset) :
    Apart (chronicle.step c).slots ↔
      Apart chronicle.slots ∧
        ∀ timestamp ∈ c.timestamp?, ¬chronicle.window.Tears timestamp := by
  rcases spans_step chronicle hc with ⟨hnone, hstep⟩ | ⟨timestamp, hsome, hspans⟩
  · simp [hnone, hstep]
  · rw [Apart, seams_congr hspans, ← Apart, h.apart_moved, hsome]
    simp

/-- Slots stay apart exactly if no call tears. -/
theorem Accounted.apart_run (h : Accounted chronicle) {calls : List Call}
    (hreset : .reset ∉ calls) :
    Apart (chronicle.run calls).slots ↔
      Apart chronicle.slots ∧ chronicle.window.NeverTears calls := by
  induction calls generalizing chronicle with
  | nil => simp [Chronicle.run, NeverTears]
  | cons c rest ih =>
    rw [List.mem_cons, not_or] at hreset
    have hrun : chronicle.run (c :: rest) = (chronicle.step c).run rest := rfl
    rw [hrun, ih (h.step c) hreset.2, h.apart_step (Ne.symm hreset.1), Chronicle.window_step,
      NeverTears, and_assoc]

/-- However a window moves, its slots stay laid out. -/
theorem Accounted.laid_moved (h : Accounted chronicle)
    (hlaid : Laid chronicle.window.shape.slotLength chronicle.slots) :
    Laid chronicle.window.shape.slotLength (chronicle.moved timestamp).slots := by
  have hpos := h.bounded.slotLength_pos
  rcases tiled_opening chronicle.window timestamp with ⟨edge, htiled⟩
  refine ⟨?_, (h.seams_moved (by omega)).mpr
    ⟨hlaid.near, h.contiguous.neg_length_lt_seam h.bounded⟩⟩
  intro slot hmem
  rw [Chronicle.slots_moved, List.mem_append] at hmem
  rcases hmem with hbefore | hopened
  · exact hlaid.endTime_eq slot hbefore
  · exact htiled.endTime_of_mem hopened

theorem Accounted.laid_step (h : Accounted chronicle) {c : Call} (hc : c ≠ .reset)
    (hlaid : Laid chronicle.window.shape.slotLength chronicle.slots) :
    Laid chronicle.window.shape.slotLength (chronicle.step c).slots := by
  rcases spans_step chronicle hc with ⟨-, hstep⟩ | ⟨timestamp, -, hspans⟩
  · rwa [hstep]
  · exact (h.laid_moved hlaid).congr hspans

theorem Accounted.laid_run (h : Accounted chronicle) {calls : List Call}
    (hreset : .reset ∉ calls)
    (hlaid : Laid chronicle.window.shape.slotLength chronicle.slots) :
    Laid chronicle.window.shape.slotLength (chronicle.run calls).slots := by
  induction calls generalizing chronicle with
  | nil => exact hlaid
  | cons c rest ih =>
    rw [List.mem_cons, not_or] at hreset
    have hshape : (chronicle.step c).window.shape = chronicle.window.shape := by
      rw [Chronicle.window_step, shape_call]
    have hnext := ih (h.step c) hreset.2
    rw [hshape] at hnext
    exact hnext (h.laid_step (Ne.symm hreset.1) hlaid)

/-- Late timestamps never make a move tear. -/
theorem Phased.neverTears {window : Window} (h : window.Phased)
    (hcontiguous : window.Contiguous) (hshape : window.shape.Bounded) {calls : List Call}
    (hlate : ∀ c ∈ calls, ∀ timestamp ∈ c.timestamp?, window.shape.Late timestamp) :
    window.NeverTears calls := by
  induction calls generalizing window with
  | nil => exact trivial
  | cons c rest ih =>
    have hfirst := hlate c List.mem_cons_self
    refine ⟨fun timestamp htimestamp => h.not_tears hshape (hfirst timestamp htimestamp), ?_⟩
    refine ih (h.call hcontiguous hshape.slotLength_pos hfirst) (hcontiguous.call c) ?_ ?_
    · rwa [shape_call]
    · intro later hmem
      rw [shape_call]
      exact hlate later (List.mem_cons_of_mem _ hmem)

end Runs

/-- Between two resets the slots that left and those held, one after the other, do not
overlap exactly if consecutive ones share no instant, and exactly if no call made a move that
tears.  None does as long as every timestamp leaves room for a whole window before it; how
often the timeline wraps, and how wide the gaps are, does not matter then. -/
theorem apart_iff_neverTears {shape : Shape} (hcheck : shape.check = .ok ())
    (hspan : shape.slotCount.toNat * shape.slotLength.toNat ≤ 2 ^ 62) {calls : List Call}
    (hreset : .reset ∉ calls) :
    let chronicle := ({ window := { shape := shape } } : Chronicle).run calls
    let slots := chronicle.evicted ++ chronicle.window.slots
    (Apart slots ↔ NeverTears { shape := shape } calls) ∧
      (Apart slots ↔ Disjoint slots) ∧
      ((∀ c ∈ calls, ∀ timestamp ∈ c.timestamp?, shape.Late timestamp) → Apart slots) := by
  have hshape := shape.bounded_of_check hcheck hspan
  have haccounted : Accounted { window := { shape := shape } } := accounted_idle hshape
  have happart := haccounted.apart_run hreset
  have hidle : Apart (Chronicle.slots { window := { shape := shape } }) := .nil
  have hlaid := haccounted.laid_run hreset ⟨fun slot hmem => absurd hmem List.not_mem_nil, .nil⟩
  have hlength : shape.slotLength.toNat ≤ 2 ^ 62 :=
    (Nat.le_mul_of_pos_left _ hshape.slotCount_pos).trans hspan
  have htears : Apart (({ window := { shape := shape } } : Chronicle).run calls).slots ↔
      NeverTears { shape := shape } calls := by
    rw [happart]
    exact and_iff_right hidle
  refine ⟨htears, hlaid.apart_iff_disjoint hshape.slotLength_pos hlength, ?_⟩
  intro hlate
  have hphased : Phased { shape := shape } := fun slot hmem => absurd hmem List.not_mem_nil
  exact htears.mpr (hphased.neverTears (.inl rfl) hshape hlate)

/-- Calls that fill a window, slide it, and take it round the end of the timeline. -/
def rounding : List Call :=
  [.advance 45,
    .update
      { entity := 1, cycles := 9, instructions := 5, cacheMisses := 2, endTime := 62,
        duration := 15 },
    .advance 18446744073709551605,
    .advance 34]

/-- The last call replaces the window; the grid starts again behind a gap. -/
theorem apart_rounding :
    fours.check = .ok () ∧ fours.slotCount.toNat * fours.slotLength.toNat ≤ 2 ^ 62 ∧
      .reset ∉ rounding ∧ (∀ c ∈ rounding, ∀ timestamp ∈ c.timestamp?, fours.Late timestamp) ∧
      let chronicle := ({ window := { shape := fours } } : Chronicle).run rounding
      let slots := chronicle.evicted ++ chronicle.window.slots
      Apart slots ∧ Disjoint slots ∧ NeverTears { shape := fours } rounding := by
  have hlate : ∀ c ∈ rounding, ∀ timestamp ∈ c.timestamp?, fours.Late timestamp := by
    simp [rounding, Call.timestamp?, halfTurn_eq, Shape.Late, fours]
  obtain ⟨htears, hdisjoint, happart⟩ :=
    apart_iff_neverTears (by decide : fours.check = .ok ()) (by decide)
      (by decide : .reset ∉ rounding)
  exact ⟨by decide, by decide, by decide, hlate, happart hlate, hdisjoint.mp (happart hlate),
    htears.mp (happart hlate)⟩

/-- One slot of ten nanoseconds, of which the timeline does not hold a whole number. -/
def decade : Shape where
  slotLength := 10
  slotCount := 1
  slotOffset := 0

/-- The slot in which the timeline ends reaches four nanoseconds past its end, where the next
one begins again at zero: an instant after the end lies in both. -/
theorem not_apart_decade :
    decade.check = .ok () ∧ decade.slotCount.toNat * decade.slotLength.toNat ≤ 2 ^ 62 ∧
      let chronicle := ({ window := { shape := decade } } : Chronicle).run
        [.advance 18446744073709551615, .advance 0]
      ¬Apart (chronicle.evicted ++ chronicle.window.slots) ∧
        ∃ earlier later, chronicle.evicted = [earlier] ∧ chronicle.window.slots = [later] ∧
          earlier.contains 3 = true ∧ later.contains 3 = true := by
  have hevicted : (({ window := { shape := decade } } : Chronicle).run
      [.advance 18446744073709551615, .advance 0]).evicted =
        [Slot.fresh 18446744073709551610 10] := by decide +kernel
  have hheld : (({ window := { shape := decade } } : Chronicle).run
      [.advance 18446744073709551615, .advance 0]).window.slots = [Slot.fresh 0 10] := by
    decide +kernel
  refine ⟨by decide, by decide, ?_, _, _, hevicted, hheld, by decide +kernel, by decide +kernel⟩
  rw [hevicted, hheld]
  intro happart
  exact absurd (List.isChain_pair.mp happart) (by decide +kernel)

end CacheMeter.Window
