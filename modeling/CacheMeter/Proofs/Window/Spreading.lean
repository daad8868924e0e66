import Mathlib
import CacheMeter.Proofs.Window.Shares
import CacheMeter.Proofs.Window.Tiling

/-!
# Spreading conserves counters

A measurement whose interval lies inside a window is handed out to the slots completely:
walking over the slots, the time not yet handed out is always the way from the cursor to
the end of the measurement, and the slot in which the measurement ends takes what is left.

Main results:

- Structure `Window.Walk`: what holds at every slot that spreading comes to.
- Theorem `Window.held_spread` and `Window.held_recordAt`: the slots get exactly what is
  spread, for one entity only.
- Theorem `Window.Full.held_distribute`: both for any measurement inside the window.
-/

namespace CacheMeter.Window

open Timeline
open Counters (Quantity)

variable {entity other : UInt32} {quantity : Quantity}

/-! ## What slots hold -/

/-- How much of a quantity some slots hold for an entity. -/
def held (entity : UInt32) (quantity : Quantity) (slots : List Slot) : Nat :=
  (slots.map fun slot => (slot.totalOf entity).amount quantity).sum

@[simp]
theorem held_nil : held entity quantity [] = 0 := rfl

@[simp]
theorem held_cons (slot : Slot) (slots : List Slot) :
    held entity quantity (slot :: slots) =
      (slot.totalOf entity).amount quantity + held entity quantity slots := by
  simp [held]

/-- What slots hold adds up. -/
@[simp]
theorem held_append (slots others : List Slot) :
    held entity quantity (slots ++ others) =
      held entity quantity slots + held entity quantity others := by
  simp [held]

/-- A share goes to the total of its entity and to no other. -/
theorem amount_record {slot : Slot} {share : Counters}
    (hfits : entity = other →
      (slot.totalOf other).amount quantity + share.amount quantity < UInt64.size) :
    ((slot.record entity share).totalOf other).amount quantity =
      (slot.totalOf other).amount quantity +
        if entity = other then share.amount quantity else 0 := by
  rw [Slot.totalOf_record]
  split_ifs with hsame
  · exact Counters.amount_add_of_lt (hfits hsame)
  · rfl

/-! ## The times of slots -/

/-- The times that slots cover, which recording leaves alone. -/
def spans (slots : List Slot) : List (UInt64 × UInt64) :=
  slots.map fun slot => (slot.startTime, slot.endTime)

/-- Whether slots lie side by side depends on their spans alone. -/
theorem Tiled.congr {length edge : UInt64} {slots slots' : List Slot}
    (h : Tiled length edge slots) (hspans : spans slots' = spans slots) :
    Tiled length edge slots' := by
  induction slots generalizing edge slots' with
  | nil =>
    have hnil : slots' = [] := by simpa [spans] using hspans
    rw [hnil]
    trivial
  | cons slot rest ih =>
    cases slots' with
    | nil => simp [spans] at hspans
    | cons slot' rest' =>
      simp only [spans, List.map_cons, List.cons.injEq, Prod.mk.injEq] at hspans
      rcases hspans with ⟨⟨hstart, hend⟩, hrest⟩
      exact ⟨hstart.trans h.1, hend.trans h.2.1, ih h.2.2 hrest⟩

/-- To spread a measurement moves no slot. -/
theorem spans_spread (last cursor : UInt64) (rest : Counters) (slots : List Slot) :
    spans (spread entity last cursor rest slots) = spans slots := by
  induction slots generalizing cursor rest with
  | nil => rfl
  | cons slot slots ih =>
    unfold spread
    cases slot.overlap? cursor last with
    | none => simpa [spans] using ih cursor rest
    | some interval =>
      dsimp only
      split_ifs
      · simp [spans]
      · simpa [spans] using ih interval.2 _

/-- To record one that takes no time moves none either. -/
theorem spans_recordAt (timestamp : UInt64) (counters : Counters) (slots : List Slot) :
    spans (recordAt entity timestamp counters slots) = spans slots := by
  induction slots with
  | nil => rfl
  | cons slot slots ih =>
    unfold recordAt
    split_ifs
    · simp [spans]
    · simpa [spans] using ih

/-- A measurement never moves a slot. -/
theorem spans_distribute (slots : List Slot) (m : Measurement) :
    spans (distribute slots m) = spans slots := by
  unfold distribute
  split_ifs
  · exact spans_recordAt _ _ _
  · exact spans_spread _ _ _ _

/-- Distributing a measurement leaves a window full. -/
theorem Full.distribute {window : Window} (h : window.Full) (m : Measurement) :
    Full { window with slots := Window.distribute window.slots m } := by
  rcases h with ⟨hlength, edge, htiled⟩
  have hspans := spans_distribute window.slots m
  refine ⟨?_, edge, htiled.congr hspans⟩
  have hcount := congrArg List.length hspans
  simp only [spans, List.length_map] at hcount
  exact hcount.trans hlength

/-! ## The walk over the slots -/

/-- At each slot the walk comes to, the cursor is not before the slot, and what is left to
hand out covers the time from the cursor to the end, which is not past the last slot.
Times are offsets from `base`. -/
structure Walk (length base last edge cursor : UInt64) (rest : Counters)
    (slots : List Slot) : Prop where
  tiled : Tiled length edge slots
  bounded : offset base edge + slots.length * length.toNat ≤ 2 ^ 62
  edge_le : offset base edge ≤ offset base cursor
  last_le : offset base last ≤ offset base edge + slots.length * length.toNat
  duration_eq : offset base cursor + rest.duration.toNat = offset base last
  duration_pos : 0 < rest.duration.toNat
  duration_le : rest.duration.toNat ≤ 2 ^ 53

namespace Walk

variable {length base last edge cursor : UInt64} {rest : Counters} {slot : Slot}
  {slots : List Slot}

/-- A slot ends one length after it begins, seen from the base. -/
theorem offset_end (h : Walk length base last edge cursor rest (slot :: slots)) :
    offset base (edge + length) = offset base edge + length.toNat := by
  have hbounded := h.bounded
  rw [List.length_cons, Nat.succ_mul] at hbounded
  exact offset_add (by simp only [UInt64.size]; omega)

/-- The overlap begins at the cursor and reaches to the end of the slot or of the
measurement, whichever comes first. -/
theorem overlap?_eq (h : Walk length base last edge cursor rest (slot :: slots)) :
    slot.overlap? cursor last =
      if offset base cursor < offset base edge + length.toNat then
        some (cursor,
          if offset base edge + length.toNat ≤ offset base last then edge + length else last)
      else none := by
  have hedge := h.offset_end
  rcases h with ⟨⟨hstart, hend, -⟩, hbounded, hle, hlast, hduration, hpos, -⟩
  rw [List.length_cons, Nat.succ_mul] at hbounded hlast
  have hfirst : displacement cursor edge = (offset base cursor : Int) - offset base edge :=
    displacement_eq_offset (by omega) (by omega)
  have hfinal : displacement last (edge + length) =
      (offset base last : Int) - offset base (edge + length) :=
    displacement_eq_offset (by omega) (by omega)
  have hbefore : displacement last cursor = (offset base last : Int) - offset base cursor :=
    displacement_eq_offset (by omega) (by omega)
  have hwithin : displacement (edge + length) cursor =
      (offset base (edge + length) : Int) - offset base cursor :=
    displacement_eq_offset (by omega) (by omega)
  rw [hedge] at hfinal hwithin
  have hreached : 0 ≤ displacement cursor edge := by omega
  unfold Slot.overlap?
  dsimp only
  rw [hstart, hend, if_pos hreached]
  split_ifs <;> first | rfl | omega

/-- The walk passes a slot that ends before the cursor. -/
theorem skip (h : Walk length base last edge cursor rest (slot :: slots))
    (hpast : offset base edge + length.toNat ≤ offset base cursor) :
    Walk length base last (edge + length) cursor rest slots := by
  have hedge := h.offset_end
  rcases h with ⟨⟨-, -, htiled⟩, hbounded, -, hlast, hduration, hpos, hexact⟩
  rw [List.length_cons, Nat.succ_mul] at hbounded hlast
  exact ⟨htiled, by omega, by omega, by omega, hduration, hpos, hexact⟩

/-- A slot that ends before the cursor gets nothing. -/
theorem spread_skip (h : Walk length base last edge cursor rest (slot :: slots))
    (hpast : offset base edge + length.toNat ≤ offset base cursor) :
    spread entity last cursor rest (slot :: slots) =
      slot :: spread entity last cursor rest slots := by
  have hoverlap := h.overlap?_eq
  rw [if_neg (Nat.not_lt.mpr hpast)] at hoverlap
  rw [spread, hoverlap]

/-- The walk goes on at the end of a slot in which the measurement does not end. -/
theorem next (h : Walk length base last edge cursor rest (slot :: slots))
    (hhere : offset base cursor < offset base edge + length.toNat)
    (hlater : offset base edge + length.toNat < offset base last) :
    Walk length base last (edge + length) (edge + length)
      (rest.splitOff (edge + length - cursor)).2 slots := by
  have hedge := h.offset_end
  have hle : offset base cursor ≤ offset base (edge + length) := by omega
  have hleft := rest.duration_splitOff (edge + length - cursor)
  rw [toNat_sub_eq_offset hle, hedge] at hleft
  rcases h with ⟨⟨-, -, htiled⟩, hbounded, -, hlast, hduration, -, hexact⟩
  rw [List.length_cons, Nat.succ_mul] at hbounded hlast
  exact ⟨htiled, by omega, le_rfl, by omega, by omega, by omega, by omega⟩

/-- A slot in which the measurement does not end gets a share of it. -/
theorem spread_next (h : Walk length base last edge cursor rest (slot :: slots))
    (hhere : offset base cursor < offset base edge + length.toNat)
    (hlater : offset base edge + length.toNat < offset base last) :
    spread entity last cursor rest (slot :: slots) =
      slot.record entity (rest.splitOff (edge + length - cursor)).1 ::
        spread entity last (edge + length) (rest.splitOff (edge + length - cursor)).2 slots := by
  have hoverlap := h.overlap?_eq
  have hleft : (rest.splitOff (edge + length - cursor)).2.duration ≠ 0 := by
    have hpos := (h.next hhere hlater).duration_pos
    intro hzero
    rw [hzero] at hpos
    simp at hpos
  rw [if_pos hhere, if_pos hlater.le] at hoverlap
  rw [spread, hoverlap]
  dsimp only
  rw [if_neg hleft]

/-- The slot in which the measurement ends gets all that is left. -/
theorem spread_last (h : Walk length base last edge cursor rest (slot :: slots))
    (hhere : offset base cursor < offset base edge + length.toNat)
    (hend : offset base last ≤ offset base edge + length.toNat) :
    spread entity last cursor rest (slot :: slots) = slot.record entity rest :: slots := by
  have hoverlap := h.overlap?_eq
  have hedge := h.offset_end
  have hduration := h.duration_eq
  rw [if_pos hhere] at hoverlap
  have hupper : offset base
      (if offset base edge + length.toNat ≤ offset base last then edge + length else last) =
        offset base last := by
    split_ifs
    · omega
    · rfl
  generalize (if offset base edge + length.toNat ≤ offset base last then edge + length
    else last) = upper at *
  have hall : rest.duration ≤ upper - cursor := by
    have hle : offset base cursor ≤ offset base upper := by omega
    rw [UInt64.le_iff_toNat_le, toNat_sub_eq_offset hle]
    omega
  have hnone : Counters.zero.duration = 0 := rfl
  rw [spread, hoverlap]
  dsimp only
  rw [Counters.splitOff_of_le hall]
  dsimp only
  rw [if_pos hnone]

end Walk

/-- Spreading hands out everything that is left, to one entity. -/
theorem held_spread {length base last edge cursor : UInt64} {rest : Counters}
    {slots : List Slot} (h : Walk length base last edge cursor rest slots)
    (hfits : entity = other →
      held other quantity slots + rest.amount quantity < UInt64.size) :
    held other quantity (spread entity last cursor rest slots) =
      held other quantity slots + if entity = other then rest.amount quantity else 0 := by
  induction slots generalizing edge cursor rest with
  | nil =>
    -- The walk cannot leave the window with time left.
    rcases h with ⟨-, -, hle, hlast, hduration, hpos, -⟩
    simp only [List.length_nil, Nat.zero_mul] at hlast
    omega
  | cons slot slots ih =>
    rw [held_cons] at hfits
    rcases Nat.lt_or_ge (offset base cursor) (offset base edge + length.toNat) with
      hhere | hpast
    · rcases Nat.lt_or_ge (offset base edge + length.toNat) (offset base last) with
        hlater | hend
      · have hsum := Counters.amount_splitOff (edge + length - cursor) h.duration_le quantity
        rw [h.spread_next hhere hlater, held_cons, held_cons, amount_record,
          ih (h.next hhere hlater)]
        · split_ifs <;> omega
        · intro hsame
          have hbound := hfits hsame
          omega
        · intro hsame
          have hbound := hfits hsame
          omega
      · rw [h.spread_last hhere hend, held_cons, held_cons, amount_record]
        · omega
        · intro hsame
          have hbound := hfits hsame
          omega
    · rw [h.spread_skip hpast, held_cons, held_cons, ih (h.skip hpast)]
      · omega
      · intro hsame
        have hbound := hfits hsame
        omega

/-! ## Instants -/

/-- A slot contains the timestamps from its start up to its end. -/
theorem contains_iff {length base edge timestamp : UInt64} {slot : Slot}
    (hstart : slot.startTime = edge) (hend : slot.endTime = edge + length)
    (hbounded : offset base edge + length.toNat ≤ 2 ^ 62)
    (hedge : offset base edge ≤ offset base timestamp)
    (htimestamp : offset base timestamp ≤ 2 ^ 62) :
    slot.contains timestamp = true ↔
      offset base timestamp < offset base edge + length.toNat := by
  have hoffset : offset base (edge + length) = offset base edge + length.toNat :=
    offset_add (by simp only [UInt64.size]; omega)
  have hfirst : displacement timestamp edge =
      (offset base timestamp : Int) - offset base edge :=
    displacement_eq_offset (by omega) (by omega)
  have hfinal : displacement timestamp (edge + length) =
      (offset base timestamp : Int) - offset base (edge + length) :=
    displacement_eq_offset (by omega) (by omega)
  rw [Slot.contains, hstart, hend, Bool.and_eq_true, decide_eq_true_eq, decide_eq_true_eq]
  omega

/-- What has no duration goes to one slot as a whole. -/
theorem held_recordAt {length base edge timestamp : UInt64} {counters : Counters}
    {slots : List Slot} (htiled : Tiled length edge slots)
    (hbounded : offset base edge + slots.length * length.toNat ≤ 2 ^ 62)
    (hedge : offset base edge ≤ offset base timestamp)
    (hlast : offset base timestamp < offset base edge + slots.length * length.toNat)
    (hfits : entity = other →
      held other quantity slots + counters.amount quantity < UInt64.size) :
    held other quantity (recordAt entity timestamp counters slots) =
      held other quantity slots + if entity = other then counters.amount quantity else 0 := by
  induction slots generalizing edge with
  | nil =>
    simp only [List.length_nil, Nat.zero_mul] at hlast
    omega
  | cons slot slots ih =>
    rcases htiled with ⟨hstart, hend, hrest⟩
    rw [List.length_cons, Nat.succ_mul] at hbounded hlast
    have hcontains : slot.contains timestamp = true ↔ _ :=
      contains_iff hstart hend (by omega) hedge (by omega)
    have hoffset : offset base (edge + length) = offset base edge + length.toNat :=
      offset_add (by simp only [UInt64.size]; omega)
    rw [held_cons] at hfits
    by_cases hhere : slot.contains timestamp = true
    · rw [recordAt, if_pos hhere, held_cons, held_cons, amount_record]
      · omega
      · intro hsame
        have hbound := hfits hsame
        omega
    · rw [recordAt, if_neg hhere, held_cons, held_cons]
      rw [hcontains] at hhere
      rw [ih hrest (by omega) (by omega) (by omega)]
      · omega
      · intro hsame
        have hbound := hfits hsame
        omega

/-! ## Measurements -/

/-- The interval of a measurement lies inside the window, as an arc that begins at most the
window's span after the oldest slot does.  An instant must not be at the very end. -/
def Covers (window : Window) (m : Measurement) : Prop :=
  ∃ oldest ∈ window.slots.head?,
    offset oldest.startTime m.startTime + m.duration.toNat ≤
        window.shape.slotCount.toNat * window.shape.slotLength.toNat ∧
      (m.duration = 0 → offset oldest.startTime m.startTime <
        window.shape.slotCount.toNat * window.shape.slotLength.toNat)

instance (window : Window) (m : Measurement) : Decidable (window.Covers m) := by
  unfold Covers
  infer_instance

/-- A measurement ends its duration after it begins, seen from the base. -/
theorem offset_endTime {base : UInt64} {m : Measurement}
    (h : offset base m.startTime + m.duration.toNat ≤ 2 ^ 62) :
    offset base m.endTime = offset base m.startTime + m.duration.toNat := by
  have hend : m.endTime = m.startTime + m.duration := by
    rw [Measurement.startTime]
    grind
  rw [hend]
  exact offset_add (by simp only [UInt64.size]; omega)

/-- Distributing a measurement inside the window adds it to what the window holds for its
entity, and to nothing else. -/
theorem Full.held_distribute {window : Window} (h : window.Full)
    (hshape : window.shape.Bounded) {m : Measurement} (hcovers : window.Covers m)
    (hexact : m.duration.toNat ≤ 2 ^ 53)
    (hfits : m.entity = other →
      held other quantity window.slots + (Counters.ofMeasurement m).amount quantity <
        UInt64.size) :
    held other quantity (Window.distribute window.slots m) =
      held other quantity window.slots +
        if m.entity = other then (Counters.ofMeasurement m).amount quantity else 0 := by
  rcases h with ⟨hlength, edge, htiled⟩
  rcases hcovers with ⟨oldest, holdest, hwithin, hinstant⟩
  have hspan := hshape.span_le
  have hedge := htiled.startTime_head holdest
  rw [hedge, ← hlength] at hwithin hinstant
  rw [← hlength] at hspan
  have hend := offset_endTime (hwithin.trans hspan)
  have hself := offset_self edge
  by_cases hzero : m.duration = 0
  · have hbefore := hinstant hzero
    have hnone : m.duration.toNat = 0 := by rw [hzero]; rfl
    have hbounded : offset edge edge +
        window.slots.length * window.shape.slotLength.toNat ≤ 2 ^ 62 := by omega
    have hfirst : offset edge edge ≤ offset edge m.endTime := by omega
    have hlast : offset edge m.endTime <
        offset edge edge + window.slots.length * window.shape.slotLength.toNat := by omega
    rw [Window.distribute, if_pos hzero]
    exact held_recordAt htiled hbounded hfirst hlast hfits
  · have hsome : m.duration.toNat ≠ 0 := by simpa [← UInt64.toNat_inj] using hzero
    have hduration : (Counters.ofMeasurement m).duration = m.duration := rfl
    have hwalk : Walk window.shape.slotLength edge m.endTime edge m.startTime
        (Counters.ofMeasurement m) window.slots :=
      { tiled := htiled
        bounded := by omega
        edge_le := by omega
        last_le := by omega
        duration_eq := by rw [hduration, hend]
        duration_pos := by
          rw [hduration]
          omega
        duration_le := by rwa [hduration] }
    rw [Window.distribute, if_neg hzero]
    exact held_spread hwalk hfits

end CacheMeter.Window
