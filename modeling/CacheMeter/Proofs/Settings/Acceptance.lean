import Mathlib
import CacheMeter.Proofs.Window.Calls
import CacheMeter.Settings

/-!
# Settings that are accepted

Settings compare durations with each other and then ask whether they fit words; a window compares
the words.  Both come to the same, since durations that fit are handed on unchanged: settings are
accepted exactly if the window that they ask for is, apart from what only they know of, the pages
of the rings and the intervals of the agent.

Main results:

- Theorem `Settings.Aggregation.shape_eq_ok_iff`: durations that fit are kept unchanged.
- Theorem `Settings.check_eq_ok_iff`: the settings that are accepted.
-/

namespace CacheMeter

/-! ## Windows asked for -/

/-- A duration fits a word if the word counts its nanoseconds. -/
theorem Duration.toWord?_eq_some {duration : Duration} {word : UInt64} :
    duration.toWord? = some word ↔ duration.nanoseconds = word.toNat := by
  have hlt := word.toNat_lt
  unfold toWord?
  split_ifs with hfits
  · rw [Option.some_inj, ← UInt64.toNat_inj, UInt64.toNat_ofNat_of_lt' hfits]
  · simp only [UInt64.size] at hfits
    simp only [false_iff]
    omega

/-- A window is made exactly of a shape that passes the check. -/
theorem Window.ofShape_eq_ok_iff {shape : Window.Shape} {window : Window} :
    Window.ofShape shape = .ok window ↔ shape.check = .ok () ∧ window = { shape := shape } := by
  unfold ofShape
  cases shape.check with
  | error refusal => simp [Except.map]
  | ok => simp [Except.map, eq_comm]

namespace Settings

/-- Durations that fit into words are handed on unchanged. -/
theorem Aggregation.shape_eq_ok_iff {aggregation : Aggregation} {shape : Window.Shape} :
    aggregation.shape = .ok shape ↔
      aggregation.slotLength.nanoseconds = shape.slotLength.toNat ∧
        aggregation.slotCount = shape.slotCount ∧
          aggregation.slotOffset.nanoseconds = shape.slotOffset.toNat := by
  unfold Aggregation.shape
  rw [← Duration.toWord?_eq_some, ← Duration.toWord?_eq_some]
  cases shape
  cases aggregation.slotLength.toWord? <;> cases aggregation.slotOffset.toWord? <;> simp

/-! ## Settings accepted -/

/-- The settings that are accepted: those with a power of two of pages, with intervals in which
time passes, and with a window that is accepted too. -/
theorem check_eq_ok_iff {settings : Settings} :
    settings.check = .ok () ↔
      settings.rings.dataPages.toNat.isPowerOfTwo ∧ 0 < settings.pollInterval.nanoseconds ∧
        0 < settings.statsInterval.nanoseconds ∧
          ∃ shape window, settings.aggregation.shape = .ok shape ∧
            Window.ofShape shape = .ok window := by
  cases hshape : settings.aggregation.shape with
  | error refusal =>
    simp only [check, hshape, reduceCtorEq, false_and, exists_false, and_false, iff_false]
    split_ifs <;> simp
  | ok shape =>
    -- What is asked of the durations is asked of the words once more.
    obtain ⟨hlength, hcount, hoffset⟩ := Aggregation.shape_eq_ok_iff.mp hshape
    have hwindow : (∃ other window, (Except.ok shape : Except Refusal _) = .ok other ∧
        Window.ofShape other = .ok window) ↔ shape.check = .ok () := by
      simp [Window.ofShape_eq_ok_iff]
    rw [hwindow, Window.Shape.check_eq_ok_iff, UInt64.lt_iff_toNat_lt, UInt64.lt_iff_toNat_lt,
      UInt32.pos_iff_ne_zero, UInt64.toNat_zero, ← hlength, ← hcount, ← hoffset, ← Nat.not_le]
    simp only [check, hshape, Duration.isZero, Nat.pos_iff_ne_zero]
    split_ifs <;> simp_all

end Settings

end CacheMeter
