import CacheMeter.Settings.Duration
import CacheMeter.Window

/-!
# Settings

What a collecting session is told: how the rings are laid out, how time is cut into
slots, and how often rings are polled and counts reported.

Main results:

- `Settings.check` accepts settings or names the first rule they break.
- `Aggregation.shape` is the window shape that the settings ask for;
  `shape_eq_error_iff` says when there is none.
-/

namespace CacheMeter

namespace Settings

/-- Layout of the rings.  No processors listed means all of them. -/
structure Rings where
  dataPages : UInt32 := 64
  watermarkBytes : UInt32 := 0
  cpus : List UInt32 := []
deriving DecidableEq, Repr, Inhabited

/-- How time is cut into slots. -/
structure Aggregation where
  slotLength : Duration := .ofMillis 1
  slotCount : UInt32 := 8
  slotOffset : Duration := ⟨0⟩
deriving DecidableEq, Repr, Inhabited

end Settings

/-- The settings of a session. -/
structure Settings where
  logLevel : String := "info"
  rings : Settings.Rings := {}
  aggregation : Settings.Aggregation := {}
  pollInterval : Duration := .ofMillis 1
  statsInterval : Duration := .ofParts 10 0
deriving DecidableEq, Repr, Inhabited

namespace Settings

/-- Why settings are refused. -/
inductive Refusal
  | dataPages (count : UInt32)
  | zeroSlotLength
  | zeroSlotCount
  | slotOffsetTooLarge
  | slotLengthUnfit
  | slotOffsetUnfit
  | zeroPollInterval
  | zeroStatsInterval
deriving DecidableEq, Repr

/-- The text shown for a refusal. -/
def Refusal.message : Refusal → String
  | .dataPages count =>
    "ring.data_pages must be a positive power of two, got " ++ toString count.toNat
  | .zeroSlotLength => "aggregation.slot_length must be positive"
  | .zeroSlotCount => "aggregation.window_size must be positive"
  | .slotOffsetTooLarge => "aggregation.slot_offset must be less than aggregation.slot_length"
  | .slotLengthUnfit => "aggregation.slot_length does not fit in u64 nanoseconds"
  | .slotOffsetUnfit => "aggregation.slot_offset does not fit in u64 nanoseconds"
  | .zeroPollInterval => "poll_interval must be positive"
  | .zeroStatsInterval => "stats_interval must be positive"

/-! ## The window asked for -/

/-- The window shape in words of nanoseconds. -/
def Aggregation.shape (aggregation : Aggregation) : Except Refusal Window.Shape :=
  match aggregation.slotLength.toWord?, aggregation.slotOffset.toWord? with
  | none, _ => .error .slotLengthUnfit
  | some _, none => .error .slotOffsetUnfit
  | some slotLength, some slotOffset =>
    .ok
      { slotLength := slotLength
        slotCount := aggregation.slotCount
        slotOffset := slotOffset }

theorem Aggregation.shape_eq_error_iff {aggregation : Aggregation} {refusal : Refusal} :
    aggregation.shape = .error refusal ↔
      (aggregation.slotLength.toWord? = none ∧ refusal = .slotLengthUnfit) ∨
        (aggregation.slotLength.toWord? ≠ none ∧ aggregation.slotOffset.toWord? = none ∧
          refusal = .slotOffsetUnfit) := by
  unfold Aggregation.shape
  cases aggregation.slotLength.toWord? <;> cases aggregation.slotOffset.toWord? <;>
    simp [eq_comm]

/-! ## Validation -/

/-- Accept settings, or name the first rule that they break. -/
def check (settings : Settings) : Except Refusal Unit :=
  let aggregation := settings.aggregation
  if !settings.rings.dataPages.toNat.isPowerOfTwo then
    .error (.dataPages settings.rings.dataPages)
  else if aggregation.slotLength.isZero then .error .zeroSlotLength
  else if aggregation.slotCount = 0 then .error .zeroSlotCount
  else if aggregation.slotLength.nanoseconds ≤ aggregation.slotOffset.nanoseconds then
    .error .slotOffsetTooLarge
  else
    match aggregation.shape with
    | .error refusal => .error refusal
    | .ok _ =>
      if settings.pollInterval.isZero then .error .zeroPollInterval
      else if settings.statsInterval.isZero then .error .zeroStatsInterval
      else .ok ()

end Settings

end CacheMeter
