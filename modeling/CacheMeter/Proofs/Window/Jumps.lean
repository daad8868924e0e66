import Mathlib
import CacheMeter.Proofs.Window.Calls

/-!
# Jumps

A window with at least its own size to go is replaced, however far the way is.  That comes to
the same as going on by one slot at a time, each time opening an empty slot behind the newest
one and evicting the oldest: the slots held at first leave before all others, and what leaves
after them are slots that were opened on the way and never used, which the jump spares itself.

Main results:

- Definition `Window.roll`: going on by one slot.
- Theorem `Window.roll_iterate`: any number of such steps at once.
- Theorem `Window.advance_eq_rolled`: where the way is a whole number of slots, a move leaves
  the window that as many steps leave, and returns what they evict up to the unused slots.
-/

namespace CacheMeter.Window

open Timeline

/-! ## Runs of empty slots -/

section Runs

variable {length edge : UInt64} {slots : List Slot}

/-- Empty slots without gaps are known from where they begin. -/
theorem Tiled.eq_freshRun (h : Tiled length edge slots) (hunused : Unused slots) :
    slots = freshRun length edge slots.length := by
  induction slots generalizing edge with
  | nil => rfl
  | cons slot rest ih =>
    obtain ⟨hstart, hend, hrest⟩ := h
    obtain ⟨hempty, hunused⟩ := List.forall_mem_cons.mp hunused
    have hslot : slot = Slot.fresh edge length := by
      cases slot
      simp_all [Slot.fresh]
    rw [hslot, List.length_cons, freshRun, ← ih hrest hunused]

theorem freshSlots_eq_freshRun (shape : Shape) (newestStart : UInt64) :
    shape.freshSlots newestStart =
      freshRun shape.slotLength
        (newestStart + shape.slotLength - UInt64.ofNat shape.slotCount.toNat * shape.slotLength)
        shape.slotCount.toNat := by
  have hrun := (tiled_freshSlots shape newestStart).eq_freshRun
    (unused_freshSlots shape newestStart)
  rwa [length_freshSlots] at hrun

theorem freshRun_add (length edge : UInt64) (first second : Nat) :
    freshRun length edge (first + second) =
      freshRun length edge first ++
        freshRun length (edge + UInt64.ofNat first * length) second := by
  induction first generalizing edge with
  | zero => simp [freshRun]
  | succ first ih =>
    have hedge : edge + UInt64.ofNat (first + 1) * length =
        edge + length + UInt64.ofNat first * length := by
      rw [ofNat_succ_mul]
      grind
    rw [Nat.succ_add, freshRun, freshRun, ih, hedge, List.cons_append]

end Runs

/-! ## One slot at a time -/

/-- Open an empty slot behind the newest one held and evict the oldest.  The first component
lists the slots evicted so far, the second those held. -/
def roll (length : UInt64) (state : List Slot × List Slot) : List Slot × List Slot :=
  match state.2.getLast? with
  | none => state
  | some newest =>
    let longer := state.2 ++ [Slot.fresh newest.endTime length]
    (state.1 ++ longer.take 1, longer.drop 1)

/-- The slots evicted in any number of steps are the first ones of those held and of the empty
ones behind them. -/
theorem roll_iterate {held : List Slot} {newest : Slot} (hlast : held.getLast? = some newest)
    (length : UInt64) (count : Nat) (evicted : List Slot) :
    (roll length)^[count] (evicted, held) =
      (evicted ++ (held ++ freshRun length newest.endTime count).take count,
        (held ++ freshRun length newest.endTime count).drop count) := by
  induction count generalizing held newest evicted with
  | zero => simp [freshRun]
  | succ count ih =>
    cases held with
    | nil => simp at hlast
    | cons oldest rest =>
      have hnext : (rest ++ [Slot.fresh newest.endTime length]).getLast? =
          some (Slot.fresh newest.endTime length) := by simp
      have hend : (Slot.fresh newest.endTime length).endTime = newest.endTime + length := rfl
      have hroll : roll length (evicted, oldest :: rest) =
          (evicted ++ [oldest], rest ++ [Slot.fresh newest.endTime length]) := by
        simp [roll, hlast]
      rw [Function.iterate_succ_apply, hroll, ih hnext, hend, freshRun]
      simp

/-! ## Jumping -/

section Jumps

variable {window : Window} {timestamp : UInt64} {newest : Slot} {steps : Nat}

/-- Where rolling on leads to the target, it leaves the slots of a window that begins anew
there, once all slots held before have left. -/
theorem drop_freshRun_eq_freshSlots {shape : Shape} {edge target : UInt64}
    (htarget : target + shape.slotLength = edge + UInt64.ofNat steps * shape.slotLength)
    (hle : shape.slotCount.toNat ≤ steps) :
    (freshRun shape.slotLength edge steps).drop (steps - shape.slotCount.toNat) =
      shape.freshSlots target := by
  obtain ⟨before, rfl⟩ := Nat.exists_eq_add_of_le' hle
  have hedge : edge + UInt64.ofNat before * shape.slotLength =
      target + shape.slotLength -
        UInt64.ofNat shape.slotCount.toNat * shape.slotLength := by
    rw [htarget, UInt64.ofNat_add]
    grind
  rw [Nat.add_sub_cancel, freshRun_add, List.drop_left' (length_freshRun _ _ _),
    freshSlots_eq_freshRun, hedge]

/-- Where the way is a whole number of slots, a full window moves as if it went on by one
slot at a time. -/
theorem Full.advance_multiple (h : window.Full) (hpos : 0 < window.shape.slotLength.toNat)
    (hlast : window.slots.getLast? = some newest) (hsteps : 0 < steps)
    (hway : displacement (window.slotStart timestamp) newest.startTime =
      (steps * window.shape.slotLength.toNat : Nat)) :
    let rolled := (roll window.shape.slotLength)^[steps] ([], window.slots)
    let kept := min steps window.shape.slotCount.toNat
    window.advance timestamp = (rolled.1.take kept, { window with slots := rolled.2 }) ∧
      Unused (rolled.1.drop kept) := by
  obtain ⟨hlength, edge, htiled⟩ := h
  have hahead : 0 < steps * window.shape.slotLength.toNat := Nat.mul_pos hsteps hpos
  have hne : window.slots ≠ [] := by
    rintro hempty
    simp [hempty] at hlast
  dsimp only
  rw [roll_iterate hlast, List.nil_append]
  rcases advance_cases window timestamp with
    ⟨hempty, -⟩ |
      ⟨other, ahead, hother, hother_way, ⟨hstays, -⟩ | ⟨-, hcount, hmove⟩ |
        ⟨-, hcount, hmove⟩⟩
  · exact absurd hempty hne
  all_goals
    obtain rfl : newest = other := by simpa [hlast] using hother
    obtain rfl := hway.symm.trans hother_way
  · omega
  · -- The window is replaced: all slots held leave, and the rest was never used.
    rw [slideCount_of_multiple hpos] at hcount
    have hend : window.slotStart timestamp + window.shape.slotLength =
        newest.endTime + UInt64.ofNat steps * window.shape.slotLength := by
      rw [eq_add_of_displacement hway, ← (htiled.endTime_getLast hlast).2, UInt64.ofNat_mul,
        UInt64.ofNat_toNat]
      grind
    have hheld : (window.slots ++ freshRun window.shape.slotLength newest.endTime steps).drop
        steps = window.shape.freshSlots (window.slotStart timestamp) := by
      rw [List.drop_append, List.drop_of_length_le (hlength.trans_le hcount), hlength,
        List.nil_append, drop_freshRun_eq_freshSlots hend hcount]
    refine ⟨?_, ?_⟩
    · rw [hmove, hheld, Nat.min_eq_right hcount, List.take_take, Nat.min_eq_left hcount,
        List.take_left' hlength]
    · rw [Nat.min_eq_right hcount, List.drop_take, List.drop_left' hlength]
      intro slot hmem
      exact unused_freshRun _ _ _ slot (List.mem_of_mem_take hmem)
  · -- The window slides by as many slots.
    rw [slideCount_of_multiple hpos] at hcount hmove
    have hsplit := slide_append hlast window.shape.slotLength steps
    have hevicted := length_slide hne window.shape.slotLength steps
    refine ⟨?_, ?_⟩
    · rw [hmove, ← hsplit, Nat.min_eq_left hcount.le, List.take_take, Nat.min_self,
        List.take_left' hevicted, List.drop_left' hevicted]
    · rw [Nat.min_eq_left hcount.le, List.drop_take, Nat.sub_self, List.take_zero]
      exact fun slot hmem => absurd hmem List.not_mem_nil

/-- Whatever calls led to a window: where its newest slot has a whole number of slots to go to
a timestamp, moving there leaves the window that as many single steps leave, and returns the
slots that they evict, but at most as many as the window holds; those evicted after them are
empty. -/
theorem advance_eq_rolled {shape : Shape} (hcheck : shape.check = .ok ()) (calls : List Call)
    (hlast : newest ∈ (after { shape := shape } calls).slots.getLast?) (hsteps : 0 < steps)
    (hway : displacement (shape.slotStart timestamp) newest.startTime =
      (steps * shape.slotLength.toNat : Nat)) :
    let window := after { shape := shape } calls
    let rolled := (roll shape.slotLength)^[steps] ([], window.slots)
    let kept := min steps shape.slotCount.toNat
    (window.advance timestamp).2 = { shape := shape, slots := rolled.2 } ∧
      (window.advance timestamp).1 = rolled.1.take kept ∧ Unused (rolled.1.drop kept) := by
  have hpos : 0 < shape.slotLength.toNat :=
    UInt64.lt_iff_toNat_lt.mp (Shape.check_eq_ok_iff.mp hcheck).1
  have hshape : (after { shape := shape } calls).shape = shape := shape_after _ calls
  have hcontiguous : (after { shape := shape } calls).Contiguous :=
    Contiguous.after (.inl rfl) calls
  generalize after { shape := shape } calls = window at *
  subst hshape
  obtain hempty | hfull := hcontiguous
  · simp [hempty] at hlast
  obtain ⟨hmove, hunused⟩ := hfull.advance_multiple hpos hlast hsteps hway
  dsimp only
  rw [hmove]
  exact ⟨rfl, rfl, hunused⟩

/-- A measurement that fills a window on both sides of zero. -/
def straddling : List Call :=
  [.update
    { entity := 1, cycles := 9, instructions := 5, cacheMisses := 2, endTime := 9,
      duration := 20 }]

/-- Five steps take a window of three slots past two that it need not open. -/
theorem advance_eq_rolled_straddling :
    let window := after { shape := fours } straddling
    let rolled := (roll 10)^[5] ([], window.slots)
    fours.check = .ok () ∧
      (∃ newest ∈ window.slots.getLast?,
        displacement (fours.slotStart 57) newest.startTime = (5 * 10 : Nat)) ∧
      (window.advance 57).2 = { shape := fours, slots := rolled.2 } ∧
      (window.advance 57).1 = rolled.1.take 3 ∧ Unused (rolled.1.drop 3) := by
  have hcheck : fours.check = .ok () := by decide
  have hnewest : ∃ newest ∈ (after { shape := fours } straddling).slots.getLast?,
      displacement (fours.slotStart 57) newest.startTime = (5 * 10 : Nat) := by
    decide +kernel
  obtain ⟨newest, hlast, hway⟩ := hnewest
  exact ⟨hcheck, ⟨newest, hlast, hway⟩,
    advance_eq_rolled hcheck straddling hlast (by decide) hway⟩

end Jumps

end CacheMeter.Window
