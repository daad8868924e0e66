import CacheMeter.Slot

/-!
# The sliding window

The window holds a fixed number of contiguous slots, phase-aligned to the slot
grid, and slides forward as measurements arrive.  A measurement is spread over
the slots that its interval overlaps, in proportion to the overlap; slots leave
the window oldest first.

Main results:

- `Shape.check` accepts a window shape, or names the first rule it breaks.
- `advance` moves the window to a timestamp and returns the slots that leave it;
  `advance_empty` and `advance_of_not_ahead` are its resting cases.
- `update` spreads a measurement; `update_eq_error_iff` says when it refuses one.
-/

namespace CacheMeter

open Timeline

namespace Window

/-! ## Shape -/

/-- What fixes a window: the slot length, the number of slots held, and the phase
of slot boundaries modulo the slot length. -/
structure Shape where
  slotLength : UInt64
  slotCount : UInt32
  slotOffset : UInt64
deriving DecidableEq, Repr, Inhabited

/-- Why a window shape or a measurement is refused. -/
inductive Refusal
  | zeroSlotLength
  | zeroSlotCount
  | offsetOutOfRange (offset slotLength : UInt64)
  | durationOutOfRange (duration : UInt64)
deriving DecidableEq, Repr

/-- The text shown for a refusal. -/
def Refusal.message : Refusal → String
  | .zeroSlotLength => "slot length must be greater than 0"
  | .zeroSlotCount => "window size must be greater than 0"
  | .offsetOutOfRange offset slotLength =>
    "slot offset " ++ toString offset.toNat ++ " must be less than slot length "
      ++ toString slotLength.toNat
  | .durationOutOfRange duration =>
    "measurement duration " ++ toString duration.toNat
      ++ "ns exceeds the representable timeline distance"

namespace Shape

/-- Accept a shape whose slots have a length, whose window holds a slot and whose
offset is a phase within one slot; otherwise name the first rule broken. -/
def check (shape : Shape) : Except Refusal Unit :=
  if shape.slotLength = 0 then .error .zeroSlotLength
  else if shape.slotCount = 0 then .error .zeroSlotCount
  else if shape.slotLength ≤ shape.slotOffset then
    .error (.offsetOutOfRange shape.slotOffset shape.slotLength)
  else .ok ()

/-- Start of the slot that contains a timestamp. -/
def slotStart (shape : Shape) (timestamp : UInt64) : UInt64 :=
  gridStart shape.slotLength shape.slotOffset timestamp

/-- A full window of empty slots whose newest slot starts at `newestStart`, oldest
first. -/
def freshSlots (shape : Shape) (newestStart : UInt64) : List Slot :=
  (List.range shape.slotCount.toNat).reverse.map fun back =>
    Slot.fresh (newestStart - UInt64.ofNat back * shape.slotLength) shape.slotLength

end Shape

end Window

/-- A window shape with the slots held, oldest first.  No slots are held until the
first timestamp arrives. -/
structure Window where
  shape : Window.Shape
  slots : List Slot := []
deriving DecidableEq, Inhabited

namespace Window

/-- The window of a checked shape, holding nothing yet. -/
def ofShape (shape : Shape) : Except Refusal Window :=
  shape.check.map fun _ => { shape := shape }

/-- Start of the slot that contains a timestamp. -/
def slotStart (window : Window) (timestamp : UInt64) : UInt64 :=
  window.shape.slotStart timestamp

/-! ## Moving the window -/

/-- Evict the oldest slot and append an empty one after the newest, `count` times.
The first component lists the evicted slots in order. -/
def slide (length : UInt64) : Nat → List Slot → List Slot × List Slot
  | 0, held => ([], held)
  | _ + 1, [] => ([], [])
  | count + 1, oldest :: rest =>
    let newest := (oldest :: rest).getLast (List.cons_ne_nil oldest rest)
    let (evicted, held) := slide length count (rest ++ [Slot.fresh newest.endTime length])
    (oldest :: evicted, held)

/-- How many slots the window has to move for `ahead` nanoseconds, rounded up. -/
def slideCount (shape : Shape) (ahead : Int) : Nat :=
  (ahead.toNat + shape.slotLength.toNat - 1) / shape.slotLength.toNat

/-- Move the window so that it holds the slot containing `timestamp`.  The first
component lists the slots that leave, oldest first.  A window that would move by
its whole size is replaced; one already at or past the timestamp stays. -/
def advance (window : Window) (timestamp : UInt64) : List Slot × Window :=
  let target := window.slotStart timestamp
  match window.slots.getLast? with
  | none => ([], { window with slots := window.shape.freshSlots target })
  | some newest =>
    let ahead := displacement target newest.startTime
    if ahead ≤ 0 then ([], window)
    else
      let count := slideCount window.shape ahead
      if window.shape.slotCount.toNat ≤ count then
        (window.slots, { window with slots := window.shape.freshSlots target })
      else
        let (evicted, held) := slide window.shape.slotLength count window.slots
        (evicted, { window with slots := held })

theorem advance_empty {window : Window} (h : window.slots = []) (timestamp : UInt64) :
    window.advance timestamp =
      ([], { window with slots := window.shape.freshSlots (window.slotStart timestamp) }) := by
  simp [advance, h]

theorem advance_of_not_ahead {window : Window} {newest : Slot} {timestamp : UInt64}
    (hnewest : window.slots.getLast? = some newest)
    (h : displacement (window.slotStart timestamp) newest.startTime ≤ 0) :
    window.advance timestamp = ([], window) := by
  simp [advance, hnewest, h]

/-! ## Spreading measurements -/

/-- Refuse a measurement that reaches back further than half the timeline. -/
def checkMeasurement (m : Measurement) : Except Refusal Unit :=
  if m.duration.toNat < halfTurn then .ok () else .error (.durationOutOfRange m.duration)

/-- Share `rest` among the slots that overlap the time from `cursor` to `last`, in
order, until no duration is left. -/
def spread (entity : UInt32) (last : UInt64) :
    UInt64 → Counters → List Slot → List Slot
  | _, _, [] => []
  | cursor, rest, slot :: slots =>
    match slot.overlap? cursor last with
    | none => slot :: spread entity last cursor rest slots
    | some (lower, upper) =>
      let (share, left) := rest.splitOff (upper - lower)
      if left.duration = 0 then slot.record entity share :: slots
      else slot.record entity share :: spread entity last upper left slots

/-- Record all of `counters` in the first slot that contains `timestamp`. -/
def recordAt (entity : UInt32) (timestamp : UInt64) (counters : Counters) :
    List Slot → List Slot
  | [] => []
  | slot :: slots =>
    if slot.contains timestamp then slot.record entity counters :: slots
    else slot :: recordAt entity timestamp counters slots

/-- Distribute a measurement over the slots held.  One without duration goes wholly
to the slot that contains its end. -/
def distribute (slots : List Slot) (m : Measurement) : List Slot :=
  if m.duration = 0 then recordAt m.entity m.endTime (Counters.ofMeasurement m) slots
  else spread m.entity m.endTime m.startTime (Counters.ofMeasurement m) slots

/-- Move the window to a measurement's end and distribute the measurement over the
slots then held.  Slots that leave in the move are dropped. -/
def update (window : Window) (m : Measurement) : Except Refusal Window :=
  (checkMeasurement m).map fun _ =>
    let moved := (window.advance m.endTime).2
    { moved with slots := distribute moved.slots m }

/-- Exactly the measurements longer than half the timeline are refused. -/
theorem update_eq_error_iff {window : Window} {m : Measurement} {refusal : Refusal} :
    window.update m = .error refusal ↔
      halfTurn ≤ m.duration.toNat ∧ refusal = .durationOutOfRange m.duration := by
  unfold update checkMeasurement
  split
  next h =>
    simp only [Except.map, reduceCtorEq, false_iff, not_and]
    omega
  next h =>
    simp only [Except.map, Except.error.injEq]
    constructor
    · rintro rfl
      exact ⟨Nat.le_of_not_lt h, rfl⟩
    · rintro ⟨_, rfl⟩
      rfl

/-- Hand back every slot held and forget them. -/
def reset (window : Window) : List Slot × Window :=
  (window.slots, { window with slots := [] })

end Window

end CacheMeter
