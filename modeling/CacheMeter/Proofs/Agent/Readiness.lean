import Mathlib
import CacheMeter.Proofs.Agent.Early
import CacheMeter.Proofs.Ring.Allocation

/-!
# Settings that let an agent start

Settings are checked before an agent is made.  A window checks once more what it is handed when
the agent starts, and so does each ring with its memory.  None of the later checks refuses what
the first one has accepted.

Main results:

- Theorem `Agent.attach_of_allotted`: readers can be bound to memory laid out for a ring.
- Theorem `Agent.ready_of_check`: agents with accepted settings start, on any memory that was
  laid out for them.
-/

namespace CacheMeter

/-! ## Starting -/

namespace Agent

open Merge
open CacheMeter.Ring (Region View)

/-- A reader can be bound to every region that was laid out for a ring. -/
theorem attach_of_allotted {dataPages : UInt32} {memory : Memory}
    (hpages : dataPages.toNat.isPowerOfTwo)
    (hmemory : ∀ region ∈ memory, ∃ pageSize, Region.Allotted dataPages pageSize region)
    {ring : Nat} (hlt : ring < memory.size) : ∃ reader, Reader.attach memory ring = .ok reader := by
  have hregion : memory.region ring = memory[ring] := by simp [Memory.region, hlt]
  obtain ⟨pageSize, hallotted⟩ := hmemory _ (Array.getElem_mem hlt)
  rw [Reader.attach, hregion, hallotted.attach hpages]
  exact ⟨_, rfl⟩

/-- Accepted settings make a window, let both sides bind to all memory that was laid out for
them, and let every agent start that holds nothing but such memory.  Settings are refused if one
of their durations does not fit a word or if no window is made of them, and accepted exactly if
the pages are a power of two, time passes in both intervals and a window is made. -/
theorem ready_of_check (settings : Settings) :
    (settings.check = .ok () →
      ∃ shape window, settings.aggregation.shape = .ok shape ∧
        Window.ofShape shape = .ok window ∧
        (∀ pageSize region, Region.Allotted settings.rings.dataPages pageSize region →
          ∃ view, View.attach region = .ok view ∧
            view.capacity = settings.rings.dataPages.toNat * pageSize.toNat) ∧
        ∀ agent : Agent, agent.settings = settings → agent.session = none →
          (∀ region ∈ agent.memory,
            ∃ pageSize, Region.Allotted settings.rings.dataPages pageSize region) →
          ∃ readers, Network.Bound readers agent.memory ∧
            agent.start =
              .ok
                { agent with
                  handlers := []
                  session := some
                    { readers := readers
                      window := window
                      handlers := if agent.handlers.isEmpty then [.log] else agent.handlers } }) ∧
    ((UInt64.size ≤ settings.aggregation.slotLength.nanoseconds ∨
        UInt64.size ≤ settings.aggregation.slotOffset.nanoseconds ∨
        ∃ shape refusal, settings.aggregation.shape = .ok shape ∧
          Window.ofShape shape = .error refusal) →
      ∃ refusal, settings.check = .error refusal) ∧
    (settings.check = .ok () ↔
      settings.rings.dataPages.toNat.isPowerOfTwo ∧ 0 < settings.pollInterval.nanoseconds ∧
        0 < settings.statsInterval.nanoseconds ∧
          ∃ shape window, settings.aggregation.shape = .ok shape ∧
            Window.ofShape shape = .ok window) := by
  refine ⟨fun hvalid => ?_, fun hunfit => ?_, Settings.check_eq_ok_iff⟩
  · obtain ⟨hpages, -, -, shape, window, hshape, hwindow⟩ := Settings.check_eq_ok_iff.mp hvalid
    obtain ⟨-, rfl⟩ := Window.ofShape_eq_ok_iff.mp hwindow
    refine ⟨shape, _, hshape, hwindow,
      fun pageSize region hallotted => ⟨_, hallotted.attach hpages, rfl⟩, ?_⟩
    rintro agent rfl hnone hmemory
    obtain ⟨started, hstart⟩ := start_succeeds hvalid hnone fun ring hlt =>
      attach_of_allotted hpages hmemory hlt
    obtain ⟨-, other, readers, hother, -, hbound, rfl⟩ := start_eq_ok hstart
    obtain rfl := Except.ok.inj (hshape.symm.trans hother)
    exact ⟨readers, hbound, hstart⟩
  · cases hcheck : settings.check with
    | error refusal => exact ⟨refusal, rfl⟩
    | ok =>
      -- An accepted window has durations that fit.
      exfalso
      obtain ⟨-, -, -, shape, window, hshape, hwindow⟩ := Settings.check_eq_ok_iff.mp hcheck
      obtain ⟨hlength, -, hoffset⟩ := Settings.Aggregation.shape_eq_ok_iff.mp hshape
      have hlengthLt := shape.slotLength.toNat_lt
      have hoffsetLt := shape.slotOffset.toNat_lt
      simp only [UInt64.size] at hunfit
      obtain hlong | hlate | ⟨other, refusal, hother, hrefused⟩ := hunfit
      · omega
      · omega
      · obtain rfl := Except.ok.inj (hshape.symm.trans hother)
        rw [hwindow] at hrefused
        exact absurd hrefused (by simp)

/-- An agent with the settings that hold unless others are given starts over one ring with pages
of eight bytes and another with pages of 4096. -/
theorem ready_of_check_default :
    ∃ small large readers,
      Region.allocate 64 8 = .ok small ∧ Region.allocate 64 4096 = .ok large ∧
        (ofMemory {} #[small, large]).start =
          .ok
            { ofMemory {} #[small, large] with
              session := some
                { readers := readers
                  window :=
                    { shape := { slotLength := 1000000, slotCount := 8, slotOffset := 0 } }
                  handlers := [.log] } } := by
  obtain ⟨shape, window, hshape, hwindow, -, hstarts⟩ := (ready_of_check {}).1 rfl
  obtain rfl : { slotLength := 1000000, slotCount := 8, slotOffset := 0 } = shape :=
    Except.ok.inj hshape
  obtain rfl : { shape := { slotLength := 1000000, slotCount := 8, slotOffset := 0 } } = window :=
    Except.ok.inj hwindow
  obtain ⟨small, hsmall⟩ : ∃ region, Region.allocate 64 8 = .ok region := ⟨_, rfl⟩
  obtain ⟨large, hlarge⟩ : ∃ region, Region.allocate 64 4096 = .ok region := ⟨_, rfl⟩
  obtain ⟨readers, -, hstart⟩ := hstarts (ofMemory {} #[small, large]) rfl rfl (by
    intro region hmem
    have hcases : region = small ∨ region = large := by simpa [ofMemory] using hmem
    obtain rfl | rfl := hcases
    · exact ⟨8, ⟨3, rfl⟩, by decide, region, hsmall, .refl region⟩
    · exact ⟨4096, ⟨12, rfl⟩, by decide, region, hlarge, .refl region⟩)
  exact ⟨small, large, readers, hsmall, hlarge, hstart⟩

end Agent

end CacheMeter
