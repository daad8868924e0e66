import Mathlib
import CacheMeter.Proofs.Window.Calls

/-!
# The chronicle of a window

A window is read together with the slots that left it since it was last reset and the
slots that its moves opened.  Every slot opened has left or is held, in the order in which
they were opened, and each begins after the one before it, by less than half the timeline.

An update moves the window too, and drops the slots that leave.  After a move to the end of
the measurement that hidden move has nothing left to do, even where the slots have lost the
grid and the newest one lies past the end.

Main results:

- Structure `Window.Chronicle` with `Chronicle.run`: calls and what became of the slots.
- Theorem `Window.Accounted.step`: no call loses, repeats or reorders a slot.
- Theorem `Window.Accounted.orderly`: what the next call can do.
-/

namespace CacheMeter.Window

open Timeline

/-! ## Ascending slots -/

/-- Each slot begins after the one before it, the short way round. -/
def Ascending (slots : List Slot) : Prop :=
  (slots.map Slot.startTime).IsChain fun earlier later => 0 < displacement later earlier

section Ascent

variable {length edge : UInt64} {slots others : List Slot}

/-- Whether slots ascend depends on their spans alone. -/
theorem Ascending.congr (h : Ascending slots) (hspans : spans others = spans slots) :
    Ascending others := by
  have hstarts : others.map Slot.startTime = slots.map Slot.startTime := by
    have hfirsts := congrArg (List.map Prod.fst) hspans
    rwa [spans, spans, List.map_map, List.map_map] at hfirsts
  rw [Ascending, hstarts]
  exact h

/-- Slots that ascend go on to ascend if the first of the rest does. -/
theorem Ascending.append (h : Ascending slots) (h' : Ascending others)
    (hbetween : ∀ newest ∈ slots.getLast?, ∀ first ∈ others.head?,
      0 < displacement first.startTime newest.startTime) : Ascending (slots ++ others) := by
  rw [Ascending, List.map_append]
  refine List.isChain_append.mpr ⟨h, h', ?_⟩
  intro last hlast next hnext
  rw [List.getLast?_map] at hlast
  rw [List.head?_map] at hnext
  rcases Option.mem_map.mp hlast with ⟨newest, hnewest, rfl⟩
  rcases Option.mem_map.mp hnext with ⟨first, hfirst, rfl⟩
  exact hbetween newest hnewest first hfirst

/-- A step of less than half the circle is a step forward. -/
theorem displacement_add_left {step : UInt64} (hstep : step.toNat < halfTurn) (a : UInt64) :
    displacement (a + step) a = step.toNat := by
  have hsub : a + step - a = step := by grind
  rw [displacement, hsub, if_pos hstep]

/-- Slots side by side ascend. -/
theorem Tiled.ascending (h : Tiled length edge slots) (hpos : 0 < length.toNat)
    (hlt : length.toNat < halfTurn) : Ascending slots := by
  induction slots generalizing edge with
  | nil => exact .nil
  | cons first rest ih =>
    cases rest with
    | nil => exact .singleton _
    | cons second rest =>
      have hsecond : second.startTime = first.startTime + length := by
        rw [h.2.2.1, h.1]
      refine .cons_cons ?_ (ih h.2.2)
      rw [hsecond, displacement_add_left hlt]
      exact_mod_cast hpos

end Ascent

/-! ## Shapes of at most a quarter of the circle -/

/-- A slot is shorter than half a turn. -/
theorem Shape.Bounded.slotLength_lt {shape : Shape} (h : shape.Bounded) :
    shape.slotLength.toNat < halfTurn := by
  have hle := (Nat.le_mul_of_pos_left shape.slotLength.toNat h.slotCount_pos).trans h.span_le
  rw [halfTurn_eq]
  omega

/-- A full window is not empty. -/
theorem Full.slots_ne_nil {window : Window} (h : window.Full) (hshape : window.shape.Bounded) :
    window.slots ≠ [] := by
  rw [← List.length_pos_iff_ne_nil, h.1]
  exact hshape.slotCount_pos

/-! ## What a move opens -/

section Moves

variable {window : Window}

/-- The slots that a move opens ascend. -/
theorem ascending_opening (window : Window) (hshape : window.shape.Bounded)
    (timestamp : UInt64) : Ascending (window.opening timestamp) := by
  have hpos := hshape.slotLength_pos
  have hlt := hshape.slotLength_lt
  rcases opening_cases window timestamp with
    ⟨-, hopening⟩ |
      ⟨newest, ahead, -, -, ⟨-, hopening⟩ | ⟨-, -, hopening⟩ | ⟨-, -, hopening⟩⟩
  all_goals rw [hopening]
  · exact (tiled_freshSlots _ _).ascending hpos hlt
  · exact .nil
  · exact (tiled_freshSlots _ _).ascending hpos hlt
  · exact (tiled_freshRun _ _ _).ascending hpos hlt

/-- A slot that a move opens first begins after the newest one held. -/
theorem Contiguous.opening_after (h : window.Contiguous) (hshape : window.shape.Bounded)
    (timestamp : UInt64) :
    ∀ newest ∈ window.slots.getLast?, ∀ first ∈ (window.opening timestamp).head?,
      0 < displacement first.startTime newest.startTime := by
  intro newest hnewest first hfirst
  have hmem := List.mem_of_mem_head? hfirst
  rcases opening_cases window timestamp with
    ⟨hempty, -⟩ |
      ⟨other, ahead, hlast, hway, ⟨-, hopening⟩ | ⟨-, hcount, hopening⟩ | ⟨-, -, hopening⟩⟩
  · rw [hempty] at hnewest
    simp at hnewest
  all_goals
    obtain rfl : other = newest := by simpa [hlast] using hnewest
  · rw [hopening] at hmem
    exact absurd hmem List.not_mem_nil
  · rw [hopening] at hmem
    exact displacement_freshSlots_pos hway hcount hmem
  · rcases h with hempty | ⟨-, edge, htiled⟩
    · rw [hempty] at hnewest
      simp at hnewest
    have hstart : first.startTime = other.endTime :=
      (hopening ▸ tiled_freshRun _ _ _).startTime_head hfirst
    rw [hstart, ← (htiled.endTime_getLast hlast).2,
      displacement_add_left hshape.slotLength_lt]
    exact_mod_cast hshape.slotLength_pos

/-- The newest slot never moves back. -/
theorem Contiguous.newest_advance (h : window.Contiguous) (hshape : window.shape.Bounded)
    (timestamp : UInt64) {newest : Slot} (hlast : newest ∈ window.slots.getLast?) :
    ∃ later ∈ (window.advance timestamp).2.slots.getLast?,
      0 ≤ displacement later.startTime newest.startTime := by
  have hne := (h.advance timestamp).slots_ne_nil (by rwa [shape_advance])
  rcases advance_cases window timestamp with
    ⟨hempty, -⟩ |
      ⟨other, ahead, hlast', hway, ⟨-, hmove⟩ | ⟨-, hcount, hmove⟩ | ⟨-, hcount, hmove⟩⟩
  · rw [hempty] at hlast
    simp at hlast
  all_goals
    obtain rfl : other = newest := by simpa [hlast'] using hlast
  · rw [hmove]
    exact ⟨other, hlast, by simp⟩
  · rw [hmove] at hne ⊢
    have hnewest := List.getLast?_eq_some_getLast hne
    exact ⟨_, hnewest,
      (displacement_freshSlots_pos hway hcount (List.mem_of_getLast? hnewest)).le⟩
  · rcases h with hempty | ⟨-, edge, htiled⟩
    · rw [hempty] at hlast
      simp at hlast
    rcases htiled.getLast_slide hlast' (slideCount window.shape ahead) with
      ⟨moved, hmoved, hstart⟩
    -- A slide is shorter than a window, so it cannot be taken for a move back.
    have hspan : slideCount window.shape ahead * window.shape.slotLength.toNat ≤ 2 ^ 62 :=
      (Nat.mul_le_mul_right _ hcount.le).trans hshape.span_le
    have hword := toNat_ofNat_mul (hspan.trans_lt (by decide))
    have hstep : (UInt64.ofNat (slideCount window.shape ahead) *
        window.shape.slotLength).toNat < halfTurn := by
      rw [hword, halfTurn_eq]
      omega
    rw [hmove]
    refine ⟨moved, hmoved, ?_⟩
    rw [hstart, displacement_add_left hstep]
    exact Int.natCast_nonneg _

end Moves

/-! ## Chronicles -/

/-- A window, the slots that left it since the last reset, and the slots that its moves
opened since then; both lists in the order of the calls. -/
structure Chronicle where
  window : Window
  evicted : List Slot := []
  opened : List Slot := []

namespace Chronicle

/-- The chronicle after a move of the window. -/
def moved (chronicle : Chronicle) (timestamp : UInt64) : Chronicle where
  window := (chronicle.window.advance timestamp).2
  evicted := chronicle.evicted ++ (chronicle.window.advance timestamp).1
  opened := chronicle.opened ++ chronicle.window.opening timestamp

/-- The chronicle after a call.  The move that an update makes drops its slots, which have
left the window all the same; a reset begins a new chronicle. -/
def step (chronicle : Chronicle) : Call → Chronicle
  | .advance timestamp => chronicle.moved timestamp
  | .update m =>
    match chronicle.window.update m with
    | .ok updated => { chronicle.moved m.endTime with window := updated }
    | .error _ => chronicle
  | .reset => { window := chronicle.window.reset.2 }

/-- The chronicle after calls, one after the other. -/
def run (chronicle : Chronicle) (calls : List Call) : Chronicle :=
  calls.foldl step chronicle

/-- Every slot since the last reset, those that left before those still held. -/
def slots (chronicle : Chronicle) : List Slot :=
  chronicle.evicted ++ chronicle.window.slots

variable (chronicle : Chronicle)

/-- A measurement that is short enough moves the window. -/
theorem step_update_of_lt {m : Measurement} (h : m.duration.toNat < halfTurn) :
    chronicle.step (.update m) =
      { chronicle.moved m.endTime with
        window :=
          { (chronicle.window.advance m.endTime).2 with
            slots := distribute (chronicle.window.advance m.endTime).2.slots m } } := by
  simp only [step, update_of_lt h]

/-- One that is too long changes nothing. -/
theorem step_update_of_ge {m : Measurement} (h : halfTurn ≤ m.duration.toNat) :
    chronicle.step (.update m) = chronicle := by
  simp only [step, update_of_ge h]

/-- A chronicle follows its window. -/
theorem window_step (c : Call) : (chronicle.step c).window = chronicle.window.call c := by
  cases c with
  | advance timestamp => rfl
  | update m =>
    rcases Nat.lt_or_ge m.duration.toNat halfTurn with hshort | hlong
    · rw [chronicle.step_update_of_lt hshort, call_update_of_lt hshort]
    · rw [chronicle.step_update_of_ge hlong, call_update_of_ge hlong]
  | reset => rfl

/-- A chronicle follows its window. -/
theorem window_run (calls : List Call) :
    (chronicle.run calls).window = chronicle.window.after calls := by
  induction calls generalizing chronicle with
  | nil => rfl
  | cons c rest ih =>
    exact (ih (chronicle.step c)).trans (by rw [window_step]; rfl)

/-- A move adds the slots that it opens. -/
theorem slots_moved (timestamp : UInt64) :
    (chronicle.moved timestamp).slots =
      chronicle.slots ++ chronicle.window.opening timestamp := by
  rw [slots, moved, List.append_assoc, advance_append, ← List.append_assoc]
  rfl

end Chronicle

/-! ## No slot is lost -/

/-- Every slot opened since the last reset has left or is held, once and in order. -/
structure Accounted (chronicle : Chronicle) : Prop where
  contiguous : chronicle.window.Contiguous
  bounded : chronicle.window.shape.Bounded
  /-- Nothing leaves a window before it is filled. -/
  unfilled : chronicle.window.slots = [] → chronicle.evicted = []
  spans_eq : spans chronicle.slots = spans chronicle.opened
  ascending : Ascending chronicle.slots

section Accounts

variable {chronicle : Chronicle}

/-- An empty window is accounted for. -/
theorem accounted_idle {shape : Shape} (h : shape.Bounded) :
    Accounted { window := { shape := shape } } where
  contiguous := .inl rfl
  bounded := h
  unfilled _ := rfl
  spans_eq := rfl
  ascending := .nil

/-- Spans are taken slot by slot. -/
theorem spans_append (slots others : List Slot) :
    spans (slots ++ others) = spans slots ++ spans others :=
  List.map_append

/-- The newest slot of a chronicle is the newest one held. -/
theorem Accounted.getLast?_slots (h : Accounted chronicle) :
    chronicle.slots.getLast? = chronicle.window.slots.getLast? := by
  rw [Chronicle.slots, List.getLast?_append]
  cases hlast : chronicle.window.slots.getLast? with
  | none => rw [h.unfilled (List.getLast?_eq_none_iff.mp hlast)]; rfl
  | some newest => rfl

/-- A window that moves stays accounted for. -/
theorem Accounted.moved (h : Accounted chronicle) (timestamp : UInt64) :
    Accounted (chronicle.moved timestamp) := by
  have hfull := h.contiguous.advance timestamp
  have hbounded : (chronicle.window.advance timestamp).2.shape.Bounded := by
    rw [shape_advance]
    exact h.bounded
  refine ⟨.inr hfull, hbounded, ?_, ?_, ?_⟩
  · exact fun hempty => absurd hempty (hfull.slots_ne_nil hbounded)
  · rw [Chronicle.slots_moved, spans_append, h.spans_eq, Chronicle.moved, spans_append]
  · rw [Chronicle.slots_moved]
    refine h.ascending.append (ascending_opening _ h.bounded timestamp) ?_
    rw [h.getLast?_slots]
    exact h.contiguous.opening_after h.bounded timestamp

/-- Filling the slots held loses none of them. -/
theorem Accounted.distribute (h : Accounted chronicle) (hfull : chronicle.window.Full)
    (m : Measurement) :
    Accounted { chronicle with
      window := { chronicle.window with
        slots := Window.distribute chronicle.window.slots m } } := by
  have hfilled := hfull.distribute m
  have hspans : spans (chronicle.evicted ++ Window.distribute chronicle.window.slots m) =
      spans chronicle.slots := by
    rw [Chronicle.slots, spans_append, spans_append, spans_distribute]
  refine ⟨.inr hfilled, h.bounded, ?_, hspans.trans h.spans_eq, h.ascending.congr hspans⟩
  exact fun hempty => absurd hempty (hfilled.slots_ne_nil h.bounded)

/-- No call loses, repeats or reorders a slot. -/
theorem Accounted.step (h : Accounted chronicle) (c : Call) : Accounted (chronicle.step c) := by
  cases c with
  | advance timestamp => exact h.moved timestamp
  | update m =>
    rcases Nat.lt_or_ge m.duration.toNat halfTurn with hshort | hlong
    · rw [Chronicle.step_update_of_lt _ hshort]
      exact (h.moved m.endTime).distribute (h.contiguous.advance m.endTime) m
    · rwa [Chronicle.step_update_of_ge _ hlong]
  | reset => exact accounted_idle h.bounded

/-- So it does through any calls. -/
theorem Accounted.run (h : Accounted chronicle) (calls : List Call) :
    Accounted (chronicle.run calls) := by
  induction calls generalizing chronicle with
  | nil => exact h
  | cons c rest ih => exact ih (h.step c)

end Accounts

/-! ## What the next call can do -/

/-- What is known of the slots of a window, those gone and those held, at any moment. -/
structure Orderly (chronicle : Chronicle) : Prop where
  /-- The slots that left since the last reset and those held are the ones opened since
  then, each once and in the order in which they were opened, … -/
  spans_eq : spans (chronicle.evicted ++ chronicle.window.slots) = spans chronicle.opened
  /-- … and each begins after the one before it. -/
  ascending : Ascending (chronicle.evicted ++ chronicle.window.slots)
  /-- A move slides the window, replaces it or leaves it alone. -/
  moves : ∀ timestamp, Moves chronicle.window.shape.slotLength chronicle.window.slots
    (chronicle.window.advance timestamp).1 (chronicle.window.advance timestamp).2.slots
  /-- The newest slot never moves back. -/
  newest_le : ∀ c, c ≠ .reset → ∀ newest ∈ chronicle.window.slots.getLast?,
    ∃ later ∈ (chronicle.step c).window.slots.getLast?,
      0 ≤ displacement later.startTime newest.startTime
  /-- Moving to the same timestamp again returns nothing and changes nothing. -/
  advance_advance : ∀ timestamp, (chronicle.window.advance timestamp).2.advance timestamp =
    ([], (chronicle.window.advance timestamp).2)
  /-- An update after a move to the end of its measurement discards no slot and opens
  none. -/
  update_advance : ∀ m : Measurement,
    let moved := chronicle.step (.advance m.endTime)
    (moved.step (.update m)).evicted = moved.evicted ∧
      (moved.step (.update m)).opened = moved.opened ∧
      spans (moved.step (.update m)).window.slots = spans moved.window.slots

section Order

variable {chronicle : Chronicle}

/-- Nothing is opened by a move that changes nothing. -/
theorem opening_eq_nil {window : Window} {timestamp : UInt64}
    (h : window.advance timestamp = ([], window)) : window.opening timestamp = [] := by
  rw [opening, h]
  simp

/-- A window that stays stays the same chronicle. -/
theorem Chronicle.moved_eq_self {timestamp : UInt64}
    (h : chronicle.window.advance timestamp = ([], chronicle.window)) :
    chronicle.moved timestamp = chronicle := by
  rw [Chronicle.moved, opening_eq_nil h, h, List.append_nil, List.append_nil]

/-- An update after a move to the end of its measurement only fills the slots held. -/
theorem Accounted.update_moved (h : Accounted chronicle) {m : Measurement}
    (hshort : m.duration.toNat < halfTurn) :
    (chronicle.moved m.endTime).step (.update m) =
      { chronicle.moved m.endTime with
        window :=
          { (chronicle.window.advance m.endTime).2 with
            slots := Window.distribute (chronicle.window.advance m.endTime).2.slots m } } := by
  have hagain := h.contiguous.advance_advance h.bounded m.endTime
  have hmoved : (chronicle.moved m.endTime).window.advance m.endTime =
      ([], (chronicle.moved m.endTime).window) := hagain
  rw [Chronicle.step_update_of_lt _ hshort, Chronicle.moved_eq_self hmoved, hmoved]
  rfl

/-- Nothing but a reset takes the newest slot back. -/
theorem Accounted.newest_le (h : Accounted chronicle) {c : Call} (hc : c ≠ .reset)
    {newest : Slot} (hlast : newest ∈ chronicle.window.slots.getLast?) :
    ∃ later ∈ (chronicle.step c).window.slots.getLast?,
      0 ≤ displacement later.startTime newest.startTime := by
  cases c with
  | advance timestamp => exact h.contiguous.newest_advance h.bounded timestamp hlast
  | update m =>
    rcases Nat.lt_or_ge m.duration.toNat halfTurn with hshort | hlong
    · rw [Chronicle.step_update_of_lt _ hshort]
      rcases h.contiguous.newest_advance h.bounded m.endTime hlast with
        ⟨later, hlater, hforward⟩
      have hspans := congrArg List.getLast?
        (spans_distribute (chronicle.window.advance m.endTime).2.slots m)
      rw [spans, spans, List.getLast?_map, List.getLast?_map, hlater, Option.map_some] at hspans
      rcases Option.map_eq_some_iff.mp hspans with ⟨filled, hfilled, hsame⟩
      have hstart : filled.startTime = later.startTime := congrArg Prod.fst hsame
      exact ⟨filled, hfilled, by rwa [hstart]⟩
    · rw [Chronicle.step_update_of_ge _ hlong]
      exact ⟨newest, hlast, by simp⟩
  | reset => exact absurd rfl hc

/-- Where every slot is accounted for, the next call keeps order too. -/
theorem Accounted.orderly (h : Accounted chronicle) : Orderly chronicle where
  spans_eq := h.spans_eq
  ascending := h.ascending
  moves := moves_advance h.contiguous h.bounded.slotLength_pos
  newest_le _ hc _ hlast := h.newest_le hc hlast
  advance_advance := h.contiguous.advance_advance h.bounded
  update_advance m := by
    intro moved
    have hmoved : moved = chronicle.moved m.endTime := rfl
    rw [hmoved]
    rcases Nat.lt_or_ge m.duration.toNat halfTurn with hshort | hlong
    · rw [h.update_moved hshort]
      exact ⟨rfl, rfl, spans_distribute _ m⟩
    · rw [Chronicle.step_update_of_ge _ hlong]
      exact ⟨rfl, rfl, rfl⟩

end Order

end CacheMeter.Window
