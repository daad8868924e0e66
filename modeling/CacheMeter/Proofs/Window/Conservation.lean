import Mathlib
import CacheMeter.Proofs.Window.Spreading

/-!
# Conservation in the window

Whatever measurements a window takes in, one after the other, is found in the slots that
left it or in those it still holds, provided that every measurement lies inside the window
when its turn comes and that no total outgrows a word.

Main results:

- Definition `Window.ingest`: the window moves to a measurement's end, hands out the slots
  that leave, and takes the measurement in.
- Theorem `Window.held_ingest`: one measurement adds itself to what is held or has left.
- Theorem `Window.held_ingestAll`: so do any number of them.
-/

namespace CacheMeter.Window

open Counters (Quantity)

variable {entity : UInt32} {quantity : Quantity}

/-! ## Slots that leave -/

/-- A fresh slot holds nothing. -/
theorem amount_fresh (edge length : UInt64) :
    ((Slot.fresh edge length).totalOf entity).amount quantity = 0 :=
  Counters.amount_zero quantity

/-- Nor does a fresh window. -/
theorem held_freshSlots (shape : Shape) (newestStart : UInt64) :
    held entity quantity (shape.freshSlots newestStart) = 0 := by
  unfold Shape.freshSlots held
  rw [List.map_map, List.sum_eq_zero_iff]
  intro amount hmem
  rcases List.mem_map.mp hmem with ⟨back, -, rfl⟩
  exact amount_fresh _ _

/-- Sliding only moves slots from those held to those that leave. -/
theorem held_slide (length : UInt64) (count : Nat) (slots : List Slot) :
    held entity quantity (slide length count slots).1 +
        held entity quantity (slide length count slots).2 =
      held entity quantity slots := by
  induction count generalizing slots with
  | zero => simp [slide]
  | succ count ih =>
    cases slots with
    | nil => rfl
    | cons oldest rest =>
      have hrest := ih (rest ++
        [Slot.fresh ((oldest :: rest).getLast (List.cons_ne_nil oldest rest)).endTime length])
      rw [held_append, held_cons, amount_fresh, held_nil] at hrest
      simp only [slide, held_cons]
      omega

/-- A move loses nothing. -/
theorem held_advance (window : Window) (timestamp : UInt64) :
    held entity quantity (window.advance timestamp).1 +
        held entity quantity (window.advance timestamp).2.slots =
      held entity quantity window.slots := by
  rcases advance_cases window timestamp with
    ⟨hempty, hmove⟩ | ⟨newest, ahead, -, -, ⟨-, hmove⟩ | ⟨-, -, hmove⟩ | ⟨-, -, hmove⟩⟩ <;>
    rw [hmove]
  · rw [held_freshSlots, hempty, held_nil]
  · rw [held_nil, Nat.zero_add]
  · rw [held_freshSlots, Nat.add_zero]
  · exact held_slide _ _ _

/-! ## One measurement -/

/-- Move the window to a measurement's end and take the measurement in.  The first
component lists the slots that leave in the move. -/
def ingest (window : Window) (m : Measurement) : List Slot × Window :=
  let moved := (window.advance m.endTime).2
  ((window.advance m.endTime).1,
    match moved.update m with
    | .ok updated => updated
    | .error _ => moved)

/-- A measurement that is short enough is spread over the window moved to its end. -/
theorem update_of_lt {window : Window} {m : Measurement}
    (h : m.duration.toNat < Timeline.halfTurn) :
    window.update m =
      .ok { (window.advance m.endTime).2 with
        slots := distribute (window.advance m.endTime).2.slots m } := by
  rw [update, checkMeasurement, if_pos h]
  rfl

/-- The move that taking in a measurement repeats changes nothing. -/
theorem Contiguous.ingest_eq {window : Window} (h : window.Contiguous)
    (hshape : window.shape.Bounded) {m : Measurement}
    (hshort : m.duration.toNat < Timeline.halfTurn) :
    window.ingest m =
      ((window.advance m.endTime).1,
        { (window.advance m.endTime).2 with
          slots := distribute (window.advance m.endTime).2.slots m }) := by
  unfold ingest
  dsimp only
  rw [update_of_lt hshort, h.advance_advance hshape]

/-- A window stays contiguous when a measurement is taken in. -/
theorem Contiguous.ingest {window : Window} (h : window.Contiguous)
    (hshape : window.shape.Bounded) {m : Measurement}
    (hshort : m.duration.toNat < Timeline.halfTurn) : (window.ingest m).2.Contiguous := by
  rw [h.ingest_eq hshape hshort]
  exact .inr ((h.advance m.endTime).distribute m)

/-- It keeps its shape. -/
@[simp]
theorem shape_ingest (window : Window) (m : Measurement) :
    (window.ingest m).2.shape = window.shape := by
  unfold Window.ingest update
  cases checkMeasurement m with
  | error refusal => exact shape_advance window m.endTime
  | ok => exact (shape_advance _ m.endTime).trans (shape_advance window m.endTime)

/-- Short enough that doubles represent its duration exactly, and inside the window once
that has moved to its end. -/
def Admits (window : Window) (m : Measurement) : Prop :=
  m.duration.toNat ≤ 2 ^ 53 ∧ (window.advance m.endTime).2.Covers m

instance (window : Window) (m : Measurement) : Decidable (window.Admits m) :=
  inferInstanceAs (Decidable (_ ∧ _))

/-- A measurement adds itself to the slots that leave or are held, under its entity. -/
theorem held_ingest {window : Window} (h : window.Contiguous)
    (hshape : window.shape.Bounded) {m : Measurement} (hadmits : window.Admits m)
    (hfits : m.entity = entity →
      held entity quantity window.slots + (Counters.ofMeasurement m).amount quantity <
        UInt64.size) :
    held entity quantity (window.ingest m).1 + held entity quantity (window.ingest m).2.slots =
      held entity quantity window.slots +
        if m.entity = entity then (Counters.ofMeasurement m).amount quantity else 0 := by
  rcases hadmits with ⟨hexact, hcovers⟩
  have hshort : m.duration.toNat < Timeline.halfTurn := by
    rw [Timeline.halfTurn_eq]
    omega
  have hmove : held entity quantity (window.advance m.endTime).1 +
      held entity quantity (window.advance m.endTime).2.slots =
        held entity quantity window.slots := held_advance window m.endTime
  have hshape' : (window.advance m.endTime).2.shape.Bounded := by
    rw [shape_advance]
    exact hshape
  have hfits' : m.entity = entity →
      held entity quantity (window.advance m.endTime).2.slots +
        (Counters.ofMeasurement m).amount quantity < UInt64.size := by
    intro hsame
    have hbound := hfits hsame
    omega
  have hadded := (h.advance m.endTime).held_distribute hshape' hcovers hexact hfits'
  rw [h.ingest_eq hshape hshort]
  dsimp only
  rw [hadded]
  omega

/-! ## Many measurements -/

/-- Take measurements in, one after the other.  The first component lists the slots that
leave meanwhile. -/
def ingestAll (window : Window) : List Measurement → List Slot × Window
  | [] => ([], window)
  | m :: rest =>
    let (evicted, next) := window.ingest m
    let (later, last) := next.ingestAll rest
    (evicted ++ later, last)

/-- Measurements are taken in one list after the other. -/
theorem ingestAll_append (window : Window) (first second : List Measurement) :
    window.ingestAll (first ++ second) =
      ((window.ingestAll first).1 ++ ((window.ingestAll first).2.ingestAll second).1,
        ((window.ingestAll first).2.ingestAll second).2) := by
  induction first generalizing window with
  | nil => rfl
  | cons m rest ih => simp [ingestAll, ih]

/-- Each measurement fits the window that those before it left behind. -/
def AdmitsAll (window : Window) : List Measurement → Prop
  | [] => True
  | m :: rest => window.Admits m ∧ (window.ingest m).2.AdmitsAll rest

instance AdmitsAll.decidable (window : Window) :
    (measurements : List Measurement) → Decidable (window.AdmitsAll measurements)
  | [] => inferInstanceAs (Decidable True)
  | m :: rest =>
    have := AdmitsAll.decidable (window.ingest m).2 rest
    inferInstanceAs (Decidable (_ ∧ _))

/-- How much of a quantity measurements report for an entity. -/
def spent (entity : UInt32) (quantity : Quantity) (measurements : List Measurement) : Nat :=
  ((measurements.filter fun m => m.entity = entity).map fun m =>
    (Counters.ofMeasurement m).amount quantity).sum

/-- Without measurements nobody spends anything. -/
@[simp]
theorem spent_nil : spent entity quantity [] = 0 := rfl

/-- Each measurement adds to what its entity spent. -/
@[simp]
theorem spent_cons (m : Measurement) (rest : List Measurement) :
    spent entity quantity (m :: rest) =
      (if m.entity = entity then (Counters.ofMeasurement m).amount quantity else 0) +
        spent entity quantity rest := by
  unfold spent
  by_cases h : m.entity = entity <;> simp [h]

/-- What measurements report for an entity is in the slots that leave or are held. -/
theorem held_ingestAll {window : Window} (h : window.Contiguous)
    (hshape : window.shape.Bounded) {measurements : List Measurement}
    (hadmits : window.AdmitsAll measurements)
    (hfits : held entity quantity window.slots + spent entity quantity measurements <
      UInt64.size) :
    held entity quantity (window.ingestAll measurements).1 +
        held entity quantity (window.ingestAll measurements).2.slots =
      held entity quantity window.slots + spent entity quantity measurements := by
  induction measurements generalizing window with
  | nil => simp [ingestAll]
  | cons m rest ih =>
    rcases hadmits with ⟨hfirst, hrest⟩
    rw [spent_cons] at hfits
    have hshort : m.duration.toNat < Timeline.halfTurn := by
      rw [Timeline.halfTurn_eq]
      have hexact := hfirst.1
      omega
    have hstep : held entity quantity (window.ingest m).1 +
        held entity quantity (window.ingest m).2.slots =
          held entity quantity window.slots +
            if m.entity = entity then (Counters.ofMeasurement m).amount quantity else 0 := by
      apply held_ingest h hshape hfirst
      intro hsame
      rw [if_pos hsame] at hfits
      omega
    have hshape' : (window.ingest m).2.shape.Bounded := by
      rw [shape_ingest]
      exact hshape
    have hlater := ih (h.ingest hshape hshort) hshape' hrest (by omega)
    simp only [ingestAll, held_append, spent_cons]
    omega

end CacheMeter.Window
