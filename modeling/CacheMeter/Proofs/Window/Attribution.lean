import Mathlib
import CacheMeter.Proofs.Window.Landing

/-!
# Exact attribution of time

A measurement that reaches back before the window, or lies before it altogether, is handed out
only in part.  As long as measurement and window lie within half of the circle from each other,
both can be laid out on the unbounded line, and each slot is credited with exactly the time that
the measured interval has in common with it; what lies before the window is lost.

While the measurement is spread, the cursor is either still at its first instant or not past the
slot at hand, and at least as much duration is left as there is time from the cursor to the end:
what was measured before the window stays with the rest to the end, and is dropped with it.

Main results:

- Definition `Window.timeIn`: the time that a measured interval has in common with a slot.
- Structure `Window.Passage`: what holds at every slot that spreading comes to.
- Theorem `Window.Passage.attributed`: each slot gets the time in common, in one pass.
- Theorem `Window.update_attributes`: so does every slot of a window that has moved to the end
  of the measurement, and the times in common and the time lost add up to its duration.
-/

namespace CacheMeter.Window

open Timeline
open Counters (Quantity)

/-! ## Intervals on the line -/

/-- How long two intervals have in common, each given by its first instant and its end. -/
def common (first last lower upper : Int) : Nat :=
  (min last upper - max first lower).toNat

/-- How much of a measured interval lies in a slot.  Timestamps are laid out on the unbounded
line as far from `base` as the short way to them is. -/
def timeIn (base : UInt64) (m : Measurement) (slot : Slot) : Nat :=
  common (displacement m.endTime base - m.duration.toNat) (displacement m.endTime base)
    (displacement slot.startTime base) (displacement slot.endTime base)

/-- How much of a measured interval lies before `base`. -/
def timeBefore (base : UInt64) (m : Measurement) : Nat :=
  (min (displacement m.endTime base) 0 -
    (displacement m.endTime base - m.duration.toNat)).toNat

/-- A slot credited with an entity's time: the entity has an entry with that time added, and
nothing else changes; without any time to credit, nothing changes at all. -/
structure Attributed (entity : UInt32) (time : Nat) (before after : Slot) : Prop where
  sameBut : SameBut entity before after
  gains : 0 < time → Gains entity .duration time before after
  unchanged : time = 0 → after = before

theorem attributed_zero (entity : UInt32) (slot : Slot) : Attributed entity 0 slot slot where
  sameBut := ⟨rfl, rfl, fun _ _ => rfl⟩
  gains hpos := absurd hpos (Nat.lt_irrefl 0)
  unchanged _ := rfl

theorem attributed_record {entity : UInt32} {slot : Slot} {share : Counters} {time : Nat}
    (hpos : 0 < time) (hshare : share.duration.toNat = time) :
    Attributed entity time slot (slot.record entity share) where
  sameBut := sameBut_record entity slot share
  gains _ := hshare ▸ gains_record entity slot share .duration
  unchanged hzero := absurd hzero hpos.ne'

section Line

variable {length edge base : UInt64} {slots : List Slot} {first last : Int}

/-- Intervals next to each other have together in common with a third what their union has. -/
theorem common_add {lower middle upper : Int} (hlower : lower ≤ middle)
    (hupper : middle ≤ upper) :
    common first last lower middle + common first last middle upper =
      common first last lower upper := by
  unfold common
  omega

/-- Slots without gaps lie on the line one after the other. -/
theorem Tiled.le_displacement_of_mem (h : Tiled length edge slots)
    (hhigh : displacement edge base + (slots.length * length.toNat : Nat) < 2 ^ 63) {slot : Slot}
    (hmem : slot ∈ slots) : displacement edge base ≤ displacement slot.startTime base := by
  induction slots generalizing edge with
  | nil => exact absurd hmem List.not_mem_nil
  | cons slot' rest ih =>
    obtain ⟨hstart, -, hrest⟩ := h
    rw [List.length_cons, Nat.succ_mul] at hhigh
    have hedge : displacement (edge + length) base = displacement edge base + length.toNat :=
      displacement_add_step (by omega)
    rcases List.mem_cons.mp hmem with rfl | hmem
    · rw [hstart]
    · have hlater := ih hrest (by omega) hmem
      omega

/-- The newest of some slots without gaps begins one slot before their end. -/
theorem Tiled.displacement_getLast (h : Tiled length edge slots) {newest : Slot}
    (hlast : slots.getLast? = some newest) (hspan : slots.length * length.toNat < 2 ^ 63) :
    displacement newest.startTime edge =
      (slots.length * length.toNat : Nat) - (length.toNat : Int) := by
  obtain ⟨hend, hnext⟩ := h.endTime_getLast hlast
  have hback : newest.startTime = newest.endTime - length := by grind
  have hword : (UInt64.ofNat slots.length * length).toNat = slots.length * length.toNat :=
    toNat_ofNat_mul (hspan.trans (by decide))
  have hfinish : displacement newest.endTime edge = (slots.length * length.toNat : Nat) := by
    rw [hend, displacement_add_left (by rwa [hword]), hword]
  have hone : length.toNat ≤ slots.length * length.toNat :=
    Nat.le_mul_of_pos_left _ (List.length_pos_of_mem (List.mem_of_getLast? hlast))
  rw [hback, displacement_sub_step, hfinish]
  omega

/-- What slots without gaps have in common with an interval adds up. -/
theorem Tiled.sum_common (h : Tiled length edge slots)
    (hhigh : displacement edge base + (slots.length * length.toNat : Nat) < 2 ^ 63) :
    (slots.map fun slot =>
        common first last (displacement slot.startTime base)
          (displacement slot.endTime base)).sum =
      common first last (displacement edge base)
        (displacement edge base + (slots.length * length.toNat : Nat)) := by
  induction slots generalizing edge with
  | nil =>
    simp only [List.map_nil, List.sum_nil, List.length_nil, Nat.zero_mul, common]
    omega
  | cons slot rest ih =>
    obtain ⟨hstart, hend, hrest⟩ := h
    rw [List.length_cons, Nat.succ_mul] at hhigh
    have hedge : displacement (edge + length) base = displacement edge base + length.toNat :=
      displacement_add_step (by omega)
    rw [List.map_cons, List.sum_cons, ih hrest (by omega), hstart, hend, hedge,
      common_add (by omega) (by omega), List.length_cons, Nat.succ_mul, Nat.add_comm
      (rest.length * length.toNat), Nat.cast_add, Int.add_assoc]

end Line

/-! ## Passing over the slots -/

/-- What holds at each slot that spreading comes to, with everything laid out on the line
between `low` and `high`, less than half of the circle apart: the cursor is still at the first
instant or not past the slots to come, and the rest covers the time from the cursor to the
end. -/
structure Passage (length base : UInt64) (low high first : Int) (last edge cursor : UInt64)
    (rest : Counters) (slots : List Slot) : Prop where
  tiled : Tiled length edge slots
  low_le_edge : low ≤ displacement edge base
  edge_le_high : displacement edge base + (slots.length * length.toNat : Nat) ≤ high
  low_le_first : low ≤ first
  first_le : first ≤ displacement cursor base
  cursor_eq_or_le : displacement cursor base = first ∨
    displacement cursor base ≤ displacement edge base
  cursor_le_last : displacement cursor base ≤ displacement last base
  last_le_high : displacement last base ≤ high
  rest_covers : displacement last base ≤ displacement cursor base + rest.duration.toNat

namespace Passage

variable {length base last edge cursor : UInt64} {low high first : Int} {rest : Counters}
  {slot : Slot} {slots : List Slot} {entity : UInt32}

theorem displacement_end (h : Passage length base low high first last edge cursor rest
    (slot :: slots)) (hhigh : high < 2 ^ 63) :
    displacement (edge + length) base = displacement edge base + length.toNat := by
  have hedge := h.edge_le_high
  rw [List.length_cons, Nat.succ_mul] at hedge
  exact displacement_add_step (by omega)

/-- The overlap of a slot with what is left of the interval, if there is any, is as long as the
time that the slot has in common with the whole of it. -/
theorem overlap?_cases (h : Passage length base low high first last edge cursor rest
    (slot :: slots)) (hhigh : high < 2 ^ 63) (hnear : high - low < 2 ^ 63) :
    (slot.overlap? cursor last = none ∧
        common first (displacement last base) (displacement edge base)
          (displacement (edge + length) base) = 0) ∨
      ∃ lower upper, slot.overlap? cursor last = some (lower, upper) ∧
        displacement upper base =
          min (displacement last base) (displacement (edge + length) base) ∧
        0 < (upper - lower).toNat ∧
        (upper - lower).toNat = common first (displacement last base) (displacement edge base)
          (displacement (edge + length) base) := by
  have hedge := h.displacement_end hhigh
  obtain ⟨⟨hstart, hend, -⟩, hlowEdge, hedgeHigh, hlowFirst, hfirst, hcursor, hle, hlast, -⟩ := h
  rw [List.length_cons, Nat.succ_mul] at hedgeHigh
  have hbegins : displacement cursor edge = displacement cursor base - displacement edge base :=
    displacement_eq_sub (by omega) (by omega)
  have hends : displacement last (edge + length) =
      displacement last base - displacement (edge + length) base :=
    displacement_eq_sub (by omega) (by omega)
  have hlower : displacement (if 0 ≤ displacement cursor edge then cursor else edge) base =
      max (displacement cursor base) (displacement edge base) := by
    split_ifs <;> omega
  have hupper : displacement
      (if 0 ≤ displacement last (edge + length) then edge + length else last) base =
        min (displacement last base) (displacement (edge + length) base) := by
    split_ifs <;> omega
  have hoverlap : slot.overlap? cursor last =
      let lower := if 0 ≤ displacement cursor edge then cursor else edge
      let upper := if 0 ≤ displacement last (edge + length) then edge + length else last
      if 0 < displacement upper lower then some (lower, upper) else none := by
    rw [Slot.overlap?, hstart, hend]
  generalize (if 0 ≤ displacement cursor edge then cursor else edge) = lower at *
  generalize (if 0 ≤ displacement last (edge + length) then edge + length else last) = upper at *
  have hbetween : displacement upper lower = displacement upper base - displacement lower base :=
    displacement_eq_sub (by omega) (by omega)
  have hcommon : common first (displacement last base) (displacement edge base)
      (displacement (edge + length) base) = (displacement upper lower).toNat := by
    rw [common]
    omega
  dsimp only at hoverlap
  by_cases hsome : 0 < displacement upper lower
  · right
    have hword : (upper - lower).toNat = (displacement upper lower).toNat :=
      toNat_sub_of_displacement (by omega)
    rw [if_pos hsome] at hoverlap
    exact ⟨lower, upper, hoverlap, hupper, by omega, by omega⟩
  · left
    rw [if_neg hsome] at hoverlap
    exact ⟨hoverlap, by omega⟩

/-- The rest is enough for the slot at hand. -/
theorem common_le (h : Passage length base low high first last edge cursor rest
    (slot :: slots)) :
    common first (displacement last base) (displacement edge base)
      (displacement (edge + length) base) ≤ rest.duration.toNat := by
  obtain ⟨-, -, -, -, hfirst, hcursor, -, -, hcovers⟩ := h
  rw [common]
  omega

/-- Spreading goes on behind a slot outside the measured interval. -/
theorem skip (h : Passage length base low high first last edge cursor rest (slot :: slots))
    (hhigh : high < 2 ^ 63) :
    Passage length base low high first last (edge + length) cursor rest slots := by
  have hedge := h.displacement_end hhigh
  obtain ⟨⟨-, -, htiled⟩, hlowEdge, hedgeHigh, hlowFirst, hfirst, hcursor, hle, hlast, hcovers⟩ := h
  rw [List.length_cons, Nat.succ_mul] at hedgeHigh
  exact ⟨htiled, by omega, by omega, hlowFirst, hfirst, by omega, hle, hlast, hcovers⟩

/-- Spreading goes on behind a slot that has got its share. -/
theorem next (h : Passage length base low high first last edge cursor rest (slot :: slots))
    (hhigh : high < 2 ^ 63) {upper duration : UInt64}
    (hupper : displacement upper base =
      min (displacement last base) (displacement (edge + length) base))
    (hpos : 0 < duration.toNat)
    (hduration : duration.toNat = common first (displacement last base)
      (displacement edge base) (displacement (edge + length) base)) :
    Passage length base low high first last (edge + length) upper
      (rest.splitOff duration).2 slots := by
  have hleft := rest.duration_splitOff duration
  rw [common] at hduration
  obtain ⟨htiled, hlowEdge, hedgeHigh, hlowFirst, hfirst, hcursor, hle, hlast, hcovers⟩ :=
    h.skip hhigh
  have hhere := h.cursor_eq_or_le
  exact ⟨htiled, hlowEdge, hedgeHigh, hlowFirst, by omega, by omega, by omega, hlast, by omega⟩

/-- Once nothing is left, no later slot has any time in common with the measured interval. -/
theorem common_eq_zero (h : Passage length base low high first last edge cursor rest slots)
    (hhigh : high < 2 ^ 63) (hrest : rest.duration = 0)
    (hcursor : displacement cursor base ≤ displacement edge base) {later : Slot}
    (hmem : later ∈ slots) :
    common first (displacement last base) (displacement later.startTime base)
      (displacement later.endTime base) = 0 := by
  have hcovers := h.rest_covers
  have hedge := h.edge_le_high
  have hstart : displacement edge base ≤ displacement later.startTime base :=
    h.tiled.le_displacement_of_mem (by omega) hmem
  rw [hrest, UInt64.toNat_zero] at hcovers
  rw [common]
  omega

/-- Spreading credits every slot with the time that it has in common with the measured
interval, by induction on the slots to come. -/
theorem attributed (h : Passage length base low high first last edge cursor rest slots)
    (hhigh : high < 2 ^ 63) (hnear : high - low < 2 ^ 63) :
    List.Forall₂ (fun before after =>
        Attributed entity (common first (displacement last base)
          (displacement before.startTime base) (displacement before.endTime base)) before after)
      slots (spread entity last cursor rest slots) := by
  induction slots generalizing edge cursor rest with
  | nil => exact .nil
  | cons slot slots ih =>
    obtain ⟨hstart, hend, -⟩ := h.tiled
    obtain ⟨hnone, hzero⟩ | ⟨lower, upper, hsome, hupper, hpos, hcommon⟩ :=
      h.overlap?_cases hhigh hnear
    · rw [spread, hnone]
      refine .cons ?_ (ih (h.skip hhigh))
      rw [hstart, hend, hzero]
      exact attributed_zero _ _
    · have hnext := h.next hhigh hupper hpos hcommon
      have hhere : Attributed entity (common first (displacement last base)
          (displacement slot.startTime base) (displacement slot.endTime base)) slot
            (slot.record entity (rest.splitOff (upper - lower)).1) := by
        rw [hstart, hend, ← hcommon]
        refine attributed_record hpos ?_
        rw [Counters.duration_share, hcommon]
        exact Nat.min_eq_right h.common_le
      rw [spread, hsome]
      dsimp only
      by_cases hleft : (rest.splitOff (upper - lower)).2.duration = 0
      · -- The later slots stay as they are, and nothing is due to them.
        rw [if_pos hleft]
        refine .cons hhere (List.forall₂_same.mpr fun later hmem => ?_)
        rw [hnext.common_eq_zero hhigh hleft (by omega) hmem]
        exact attributed_zero _ _
      · rw [if_neg hleft]
        exact .cons hhere (ih hnext)

end Passage

/-! ## Measurements -/

/-- Slots that are credited with no time stay as they are. -/
theorem eq_of_attributed {entity : UInt32} {time : Slot → Nat} {slots others : List Slot}
    (h : List.Forall₂ (fun before after => Attributed entity (time before) before after)
      slots others) (hzero : ∀ slot ∈ slots, time slot = 0) : others = slots := by
  induction h with
  | nil => rfl
  | cons hhere _ ih =>
    obtain ⟨hnone, hlater⟩ := List.forall_mem_cons.mp hzero
    rw [hhere.unchanged hnone, ih hlater]

section Moves

variable {window : Window} {m : Measurement} {oldest : Slot}

/-- A window less than half of the circle away that has moved to a timestamp reaches past it. -/
theorem Contiguous.displacement_lt_span (h : window.Contiguous)
    (hcheck : window.shape.check = .ok ()) {timestamp : UInt64}
    (hfirst : oldest ∈ (window.advance timestamp).2.slots.head?)
    (hnear : (displacement timestamp oldest.startTime).natAbs +
      window.shape.slotCount.toNat * window.shape.slotLength.toNat < 2 ^ 63) :
    displacement timestamp oldest.startTime <
      (window.shape.slotCount.toNat * window.shape.slotLength.toNat : Nat) := by
  obtain ⟨hlength, hcount, -⟩ := Shape.check_eq_ok_iff.mp hcheck
  replace hlength := UInt64.lt_iff_toNat_lt.mp hlength
  replace hcount := UInt32.lt_iff_toNat_lt.mp hcount
  obtain ⟨newest, hlast, hway⟩ := h.reached hlength hcount (by omega) timestamp
  have hwithin : offset (window.slotStart timestamp) timestamp < window.shape.slotLength.toNat :=
    Shape.offset_slotStart_lt hcheck timestamp
  obtain ⟨hheld, edge, htiled⟩ := h.advance timestamp
  rw [shape_advance] at hheld htiled
  rw [htiled.startTime_head hfirst, ← hheld] at hnear
  rw [htiled.startTime_head hfirst, ← hheld]
  -- The newest slot and the slot of the timestamp, both seen from the oldest one.
  have hnewest := htiled.displacement_getLast hlast (by omega)
  have hone : window.shape.slotLength.toNat ≤
      (window.advance timestamp).2.slots.length * window.shape.slotLength.toNat :=
    Nat.le_mul_of_pos_left _ (hheld ▸ hcount)
  have htarget : displacement (window.slotStart timestamp) edge =
      displacement timestamp edge - offset (window.slotStart timestamp) timestamp :=
    displacement_eq_sub_offset (by omega)
  have hbetween : displacement (window.slotStart timestamp) newest.startTime =
      displacement (window.slotStart timestamp) edge - displacement newest.startTime edge :=
    displacement_eq_sub (by omega) (by omega)
  omega

/-- A full window that a measurement does not reach past, and that is less than half of the
circle away from it, is credited with the time that each slot has in common with it. -/
theorem Full.attributed (h : window.Full) (hfirst : oldest ∈ window.slots.head?)
    (hpos : 0 < m.duration.toNat)
    (hnear : (displacement m.endTime oldest.startTime).natAbs + m.duration.toNat +
      window.shape.slotCount.toNat * window.shape.slotLength.toNat < 2 ^ 63) :
    List.Forall₂ (fun before after =>
        Attributed m.entity (timeIn oldest.startTime m before) before after)
      window.slots (Window.distribute window.slots m) := by
  obtain ⟨hheld, edge, htiled⟩ := h
  obtain rfl := htiled.startTime_head hfirst
  have hsome : m.duration ≠ 0 := by
    intro hzero
    rw [hzero] at hpos
    exact absurd hpos (by decide)
  have hself : displacement oldest.startTime oldest.startTime = 0 := by simp
  have hcursor : displacement m.startTime oldest.startTime =
      displacement m.endTime oldest.startTime - m.duration.toNat :=
    displacement_sub_step (by omega)
  rw [← hheld] at hnear
  have hpassage : Passage window.shape.slotLength oldest.startTime
      (min (displacement m.endTime oldest.startTime - m.duration.toNat) 0)
      (max (displacement m.endTime oldest.startTime)
        (window.slots.length * window.shape.slotLength.toNat : Nat))
      (displacement m.endTime oldest.startTime - m.duration.toNat) m.endTime oldest.startTime
      m.startTime (Counters.ofMeasurement m) window.slots :=
    ⟨htiled, by omega, by omega, by omega, by omega, by omega, by omega, by omega, by
      rw [hcursor]
      exact (Int.sub_add_cancel _ _).ge⟩
  rw [Window.distribute, if_neg hsome]
  exact hpassage.attributed (by omega) (by omega)

/-- The time that a measurement has in common with the slots, and the time before them. -/
theorem Full.sum_timeIn (h : window.Full) (hfirst : oldest ∈ window.slots.head?)
    (hspan : window.shape.slotCount.toNat * window.shape.slotLength.toNat < 2 ^ 63)
    (hend : displacement m.endTime oldest.startTime <
      (window.shape.slotCount.toNat * window.shape.slotLength.toNat : Nat)) :
    (window.slots.map (timeIn oldest.startTime m)).sum + timeBefore oldest.startTime m =
      m.duration.toNat := by
  obtain ⟨hheld, edge, htiled⟩ := h
  obtain rfl := htiled.startTime_head hfirst
  have hself : displacement oldest.startTime oldest.startTime = 0 := by simp
  rw [← hheld] at hspan hend
  unfold timeIn
  rw [htiled.sum_common (by omega), hself, timeBefore, common]
  omega

end Moves

/-- Whatever calls led to a window, and as long as a measurement and the window that has moved
to its end lie within half of the circle: each slot is credited with exactly the time that the
measured interval has in common with it, and nothing else changes.  What the slots are credited
with and what lies before the oldest of them adds up to the duration, and a measurement wholly
before the window changes nothing. -/
theorem update_attributes {shape : Shape} (hcheck : shape.check = .ok ()) (calls : List Call)
    {m : Measurement} (hpos : 0 < m.duration.toNat) (hshort : m.duration.toNat < halfTurn) :
    let window := after { shape := shape } calls
    let moved := (window.advance m.endTime).2
    ∃ oldest ∈ moved.slots.head?,
      (displacement m.endTime oldest.startTime).natAbs + m.duration.toNat +
          shape.slotCount.toNat * shape.slotLength.toNat < 2 ^ 63 →
        ∃ slots, window.update m = .ok { shape := shape, slots := slots } ∧
          List.Forall₂ (fun before after =>
              Attributed m.entity (timeIn oldest.startTime m before) before after)
            moved.slots slots ∧
          (moved.slots.map (timeIn oldest.startTime m)).sum + timeBefore oldest.startTime m =
            m.duration.toNat ∧
          (displacement m.endTime oldest.startTime ≤ 0 → slots = moved.slots) := by
  have hshape : (after { shape := shape } calls).shape = shape := shape_after _ calls
  have hcontiguous : (after { shape := shape } calls).Contiguous :=
    Contiguous.after (.inl rfl) calls
  generalize after { shape := shape } calls = window at *
  subst hshape
  have hfull := hcontiguous.advance m.endTime
  have hne : (window.advance m.endTime).2.slots ≠ [] := by
    obtain ⟨-, hcount, -⟩ := Shape.check_eq_ok_iff.mp hcheck
    rw [← List.length_pos_iff, hfull.1, shape_advance]
    exact UInt32.lt_iff_toNat_lt.mp hcount
  refine ⟨_, List.head_mem_head? hne, fun hnear => ?_⟩
  have hfirst := List.head_mem_head? hne
  generalize (window.advance m.endTime).2.slots.head hne = oldest at *
  have hend := hcontiguous.displacement_lt_span hcheck hfirst (by omega)
  rw [← shape_advance window m.endTime] at hnear hend
  have hattributed := hfull.attributed hfirst hpos hnear
  have hsum := hfull.sum_timeIn hfirst (by omega) hend
  refine ⟨_, by simp only [update_of_lt hshort, shape_advance], hattributed, hsum,
    fun hbefore => eq_of_attributed hattributed fun slot hmem => ?_⟩
  -- All of the time lies before the window, so that none is left for its slots.
  have hall : timeBefore oldest.startTime m = m.duration.toNat := by
    rw [timeBefore]
    omega
  exact List.sum_eq_zero_iff.mp (by omega) _ (List.mem_map_of_mem hmem)

/-- A window from 18446744073709551600 to 14, and thirty nanoseconds up to 8: six of them are
lost, and ten, ten and four go to the slots, the second of which reaches round zero. -/
theorem update_attributes_straddling :
    let window := after { shape := fours } [.advance 5]
    let moved := (window.advance 8).2
    let m : Measurement :=
      { entity := 3, cycles := 90, instructions := 60, cacheMisses := 30, endTime := 8,
        duration := 30 }
    fours.check = .ok () ∧ 0 < m.duration.toNat ∧ m.duration.toNat < halfTurn ∧
      moved.slots.map (timeIn 18446744073709551600 m) = [10, 10, 4] ∧
      timeBefore 18446744073709551600 m = 6 ∧
      ∃ slots, window.update m = .ok { shape := fours, slots := slots } ∧
        List.Forall₂ (fun before after =>
            Attributed m.entity (timeIn 18446744073709551600 m before) before after)
          moved.slots slots := by
  dsimp only
  have hcheck : fours.check = .ok () := by decide
  obtain ⟨oldest, hfirst, hattributes⟩ := update_attributes hcheck [.advance 5]
    (m := { entity := 3, cycles := 90, instructions := 60, cacheMisses := 30, endTime := 8,
            duration := 30 }) (by decide) (by decide)
  have hhead : (((after { shape := fours } [.advance 5]).advance 8).2.slots.head?).map
      Slot.startTime = some 18446744073709551600 := by decide +kernel
  have hstart : oldest.startTime = 18446744073709551600 := by
    rw [Option.mem_def.mp hfirst] at hhead
    exact Option.some.inj hhead
  rw [hstart] at hattributes
  obtain ⟨slots, hupdate, hattributed, -, -⟩ := hattributes (by decide +kernel)
  exact ⟨hcheck, by decide, by decide, by decide +kernel, by decide +kernel, slots, hupdate,
    hattributed⟩

end CacheMeter.Window
