import Mathlib
import CacheMeter.Proofs.Window.Seams

/-!
# Measurements in any order

Measurements that do not move the window may be taken in in any order.  What each slot gets from a
measurement is worked out from the measurement and the times of the slots alone, never from what
the slots hold, and recording shares in a slot is commutative although totals saturate: a total is
in the end what it was and all shares of its entity, or the largest word.

Main results:

- Definition `Window.sharesOf`: what spans of time get of a measurement.
- Theorem `Window.getElem?_foldl_distribute`: measurements credit each slot with its shares.
- Theorem `Slot.credit_comm`: shares may be credited in any order.
- Theorem `Window.update_any_order`: so may measurements that do not move the window, and every
  total is known from the shares.
-/

namespace CacheMeter

open Counters (Quantity)

/-! ## Totals in any order -/

namespace Counters

/-- Counters with the same amounts are the same. -/
theorem ext_amount {a b : Counters} (h : ∀ quantity, a.amount quantity = b.amount quantity) :
    a = b := by
  have hcycles := UInt64.toNat_inj.mp (h .cycles)
  have hinstructions := UInt64.toNat_inj.mp (h .instructions)
  have hmisses := UInt64.toNat_inj.mp (h .cacheMisses)
  have hduration := UInt64.toNat_inj.mp (h .duration)
  cases a
  cases b
  simp_all

/-- Saturating totals may be added in any order. -/
theorem add_right_comm (a b c : Counters) : a + b + c = a + c + b := by
  apply ext_amount
  intro quantity
  simp only [amount_add]
  omega

end Counters

namespace Slot

/-- Record a share, if there is one. -/
def credit (slot : Slot) (entity : UInt32) : Option Counters → Slot
  | none => slot
  | some share => slot.record entity share

section Credit

variable {slot : Slot} {entity other : UInt32} {share share' : Option Counters}

@[simp]
theorem startTime_credit : (slot.credit entity share).startTime = slot.startTime := by
  cases share <;> rfl

@[simp]
theorem endTime_credit : (slot.credit entity share).endTime = slot.endTime := by
  cases share <;> rfl

/-- Shares may be recorded in any order, of one entity or of two. -/
theorem record_comm (slot : Slot) (entity other : UInt32) (share share' : Counters) :
    (slot.record entity share).record other share' =
      (slot.record other share').record entity share := by
  have htotals : ((slot.record entity share).record other share').totals =
      ((slot.record other share').record entity share).totals := by
    apply Table.ext_get?
    intro key
    by_cases hsame : entity = other
    · subst hsame
      simp only [record, totalOf, Table.get?_put, if_true, Option.getD_some,
        Counters.add_right_comm]
      split_ifs <;> rfl
    · have hother : ¬other = entity := Ne.symm hsame
      simp only [record, totalOf, Table.get?_put, hsame, hother, if_false]
      split_ifs with hfirst hsecond
      · exact absurd (hsecond.trans hfirst.symm) hsame
      all_goals rfl
  exact congrArg (fun totals => { slot with totals := totals }) htotals

/-- Shares may be credited in any order. -/
theorem credit_comm : (slot.credit entity share).credit other share' =
    (slot.credit other share').credit entity share := by
  cases share with
  | none => rfl
  | some share =>
    cases share' with
    | none => rfl
    | some share' => exact record_comm slot entity other share share'

/-- A share goes to the total of its entity, which it may saturate, and to no other. -/
theorem amount_credit (slot : Slot) (entity other : UInt32) (share : Option Counters)
    (quantity : Quantity) :
    ((slot.credit entity share).totalOf other).amount quantity =
      min ((slot.totalOf other).amount quantity +
        if entity = other then (share.getD Counters.zero).amount quantity else 0)
        (UInt64.size - 1) := by
  have hword := (slot.totalOf other).amount_lt quantity
  cases share with
  | none =>
    simp only [credit, Option.getD_none, Counters.amount_zero, ite_self]
    omega
  | some share =>
    simp only [credit, totalOf_record, Option.getD_some]
    split_ifs
    · exact Counters.amount_add _ _ _
    · omega

end Credit

/-- Credit one entity's share after the other: what a slot gets of each of some measurements. -/
def creditAll (share : Measurement → Option Counters) (slot : Slot) (ms : List Measurement) :
    Slot :=
  ms.foldl (fun slot m => slot.credit m.entity (share m)) slot

section CreditAll

variable {share : Measurement → Option Counters} {slot : Slot} {ms order : List Measurement}

theorem startTime_creditAll : (slot.creditAll share ms).startTime = slot.startTime := by
  induction ms generalizing slot with
  | nil => rfl
  | cons m rest ih => exact ih.trans startTime_credit

theorem endTime_creditAll : (slot.creditAll share ms).endTime = slot.endTime := by
  induction ms generalizing slot with
  | nil => rfl
  | cons m rest ih => exact ih.trans endTime_credit

/-- What a slot holds does not depend on the order of the measurements. -/
theorem creditAll_perm (h : order.Perm ms) :
    slot.creditAll share order = slot.creditAll share ms :=
  h.foldl_eq' (fun _ _ _ _ _ => credit_comm) slot

/-- What an entity's shares are of a quantity, all together. -/
def sumOfShares (share : Measurement → Option Counters) (entity : UInt32) (quantity : Quantity)
    (ms : List Measurement) : Nat :=
  ((ms.filter fun m => m.entity = entity).map fun m =>
    ((share m).getD Counters.zero).amount quantity).sum

theorem sumOfShares_cons (share : Measurement → Option Counters) (entity : UInt32)
    (quantity : Quantity) (m : Measurement) (rest : List Measurement) :
    sumOfShares share entity quantity (m :: rest) =
      (if m.entity = entity then ((share m).getD Counters.zero).amount quantity else 0) +
        sumOfShares share entity quantity rest := by
  unfold sumOfShares
  by_cases h : m.entity = entity <;> simp [h]

/-- A total is in the end what it was and all shares of its entity, as far as that fits. -/
theorem amount_creditAll (slot : Slot) (ms : List Measurement) (entity : UInt32)
    (quantity : Quantity) :
    ((slot.creditAll share ms).totalOf entity).amount quantity =
      min ((slot.totalOf entity).amount quantity + sumOfShares share entity quantity ms)
        (UInt64.size - 1) := by
  induction ms generalizing slot with
  | nil =>
    have hword := (slot.totalOf entity).amount_lt quantity
    simp only [creditAll, List.foldl_nil, sumOfShares, List.filter_nil, List.map_nil, List.sum_nil]
    omega
  | cons m rest ih =>
    have hrest := ih (slot.credit m.entity (share m))
    rw [amount_credit] at hrest
    rw [sumOfShares_cons]
    refine hrest.trans ?_
    omega

end CreditAll

end Slot

namespace Window

open Timeline

/-! ## Shares of a measurement -/

/-- What the spans of time that overlap the time from `cursor` to `last` get of `rest`, in order,
until no duration is left. -/
def walkShares (last : UInt64) :
    UInt64 → Counters → List (UInt64 × UInt64) → List (Option Counters)
  | _, _, [] => []
  | cursor, rest, span :: later =>
    match Slot.overlap? { startTime := span.1, endTime := span.2 } cursor last with
    | none => none :: walkShares last cursor rest later
    | some (lower, upper) =>
      let (share, left) := rest.splitOff (upper - lower)
      if left.duration = 0 then some share :: later.map fun _ => none
      else some share :: walkShares last upper left later

/-- What the first span of time that contains an instant gets of `counters`: all. -/
def instantShares (timestamp : UInt64) (counters : Counters) :
    List (UInt64 × UInt64) → List (Option Counters)
  | [] => []
  | span :: later =>
    if Slot.contains { startTime := span.1, endTime := span.2 } timestamp then
      some counters :: later.map fun _ => none
    else none :: instantShares timestamp counters later

/-- What spans of time get of a measurement, if anything; nothing but the measurement and the
boundaries of the spans decides it. -/
def sharesOf (spans : List (UInt64 × UInt64)) (m : Measurement) : List (Option Counters) :=
  if m.duration = 0 then instantShares m.endTime (Counters.ofMeasurement m) spans
  else walkShares m.endTime m.startTime (Counters.ofMeasurement m) spans

section Crediting

variable {entity : UInt32}

/-- Slots with nothing to get stay as they are. -/
theorem zipWith_credit_none (entity : UInt32) (slots : List Slot) :
    List.zipWith (fun slot share => slot.credit entity share) slots
      ((spans slots).map fun _ => none) = slots := by
  induction slots with
  | nil => rfl
  | cons slot rest ih => exact congrArg (slot :: ·) ih

/-- To spread a measurement is to credit each slot with its share. -/
theorem spread_eq_zipWith (last cursor : UInt64) (rest : Counters) (slots : List Slot) :
    spread entity last cursor rest slots =
      List.zipWith (fun slot share => slot.credit entity share) slots
        (walkShares last cursor rest (spans slots)) := by
  induction slots generalizing cursor rest with
  | nil => rfl
  | cons slot later ih =>
    have hspan : slot.overlap? cursor last =
        Slot.overlap? { startTime := slot.startTime, endTime := slot.endTime } cursor last := rfl
    have hspans : spans (slot :: later) = (slot.startTime, slot.endTime) :: spans later := rfl
    rw [spread, hspans, walkShares, hspan]
    cases Slot.overlap? { startTime := slot.startTime, endTime := slot.endTime } cursor last with
    | none => exact congrArg (slot :: ·) (ih cursor rest)
    | some interval =>
      dsimp only
      split_ifs with hleft
      · exact congrArg (slot.record entity _ :: ·) (zipWith_credit_none entity later).symm
      · exact congrArg (slot.record entity _ :: ·) (ih interval.2 _)

/-- So it is to record one that takes no time. -/
theorem recordAt_eq_zipWith (timestamp : UInt64) (counters : Counters) (slots : List Slot) :
    recordAt entity timestamp counters slots =
      List.zipWith (fun slot share => slot.credit entity share) slots
        (instantShares timestamp counters (spans slots)) := by
  induction slots with
  | nil => rfl
  | cons slot later ih =>
    have hspan : slot.contains timestamp =
        Slot.contains { startTime := slot.startTime, endTime := slot.endTime } timestamp := rfl
    have hspans : spans (slot :: later) = (slot.startTime, slot.endTime) :: spans later := rfl
    rw [recordAt, hspans, instantShares, hspan]
    split_ifs with hhere
    · exact congrArg (slot.record entity counters :: ·) (zipWith_credit_none entity later).symm
    · exact congrArg (slot :: ·) ih

/-- Distributing a measurement credits each slot with its share. -/
theorem distribute_eq_zipWith (slots : List Slot) (m : Measurement) :
    distribute slots m =
      List.zipWith (fun slot share => slot.credit m.entity share) slots
        (sharesOf (spans slots) m) := by
  unfold distribute sharesOf
  split_ifs
  · exact recordAt_eq_zipWith _ _ _
  · exact spread_eq_zipWith _ _ _ _

/-- What the span with a given number gets of a measurement, if anything. -/
def shareAt (spans : List (UInt64 × UInt64)) (index : Nat) (m : Measurement) : Option Counters :=
  (sharesOf spans m)[index]?.join

/-- There is a share for every slot. -/
theorem length_sharesOf (slots : List Slot) (m : Measurement) :
    slots.length ≤ (sharesOf (spans slots) m).length := by
  have hlength := congrArg List.length (distribute_eq_zipWith slots m)
  have hspans := congrArg List.length (spans_distribute slots m)
  simp only [spans, List.length_map, List.length_zipWith] at hlength hspans
  simp only [spans]
  omega

/-- A slot is credited with the share that its bounds make. -/
theorem getElem?_distribute (slots : List Slot) (m : Measurement) (index : Nat) :
    (distribute slots m)[index]? =
      slots[index]?.map fun slot => slot.credit m.entity (shareAt (spans slots) index m) := by
  rw [distribute_eq_zipWith, List.getElem?_zipWith, shareAt]
  rcases Nat.lt_or_ge index slots.length with hlt | hge
  · have hshare := List.getElem?_eq_getElem (hlt.trans_le (length_sharesOf slots m))
    rw [hshare, List.getElem?_eq_getElem hlt]
    rfl
  · rw [List.getElem?_eq_none hge]
    rfl

/-- Distributing measurements one after the other credits each slot with its shares. -/
theorem getElem?_foldl_distribute (slots : List Slot) (ms : List Measurement) (index : Nat) :
    (ms.foldl distribute slots)[index]? =
      slots[index]?.map fun slot => slot.creditAll (shareAt (spans slots) index) ms := by
  induction ms generalizing slots with
  | nil => exact (congrFun Option.map_id _).symm
  | cons m rest ih =>
    rw [List.foldl_cons, ih, getElem?_distribute, spans_distribute, Option.map_map]
    rfl

theorem spans_foldl_distribute (slots : List Slot) (ms : List Measurement) :
    spans (ms.foldl distribute slots) = spans slots := by
  induction ms generalizing slots with
  | nil => rfl
  | cons m rest ih => exact (ih _).trans (spans_distribute slots m)

end Crediting

/-! ## Measurements that do not move the window -/

/-- The newest slot held is not behind the slot of a timestamp. -/
def Reaches (window : Window) (timestamp : UInt64) : Prop :=
  ∃ newest ∈ window.slots.getLast?, window.way timestamp newest ≤ 0

instance (window : Window) (timestamp : UInt64) : Decidable (window.Reaches timestamp) :=
  inferInstanceAs (Decidable (∃ newest ∈ window.slots.getLast?, _))

section Updates

variable {window : Window} {m : Measurement} {ms : List Measurement}

/-- How far a window reaches depends on the times of its slots only. -/
theorem Reaches.congr {timestamp : UInt64} (h : window.Reaches timestamp) {slots : List Slot}
    (hspans : spans slots = spans window.slots) :
    Reaches { window with slots := slots } timestamp := by
  obtain ⟨newest, hlast, hway⟩ := h
  have hend : (spans slots).getLast? = some (newest.startTime, newest.endTime) := by
    rw [hspans, spans, List.getLast?_map, Option.mem_def.mp hlast]
    rfl
  rw [spans, List.getLast?_map, Option.map_eq_some_iff] at hend
  obtain ⟨same, hsame, hspan⟩ := hend
  have hstart : same.startTime = newest.startTime := congrArg Prod.fst hspan
  refine ⟨same, hsame, ?_⟩
  rw [way, hstart]
  exact hway

/-- A measurement that the window reaches is spread over it as it stands. -/
theorem update_of_reaches (haccepted : m.duration.toNat < halfTurn)
    (hreaches : window.Reaches m.endTime) :
    window.update m = .ok { window with slots := distribute window.slots m } := by
  obtain ⟨newest, hlast, hway⟩ := hreaches
  rw [update_of_lt haccepted, advance_of_not_ahead hlast hway]

/-- Measurements that do not move the window are distributed one after the other. -/
theorem foldlM_update (haccepted : ∀ m ∈ ms, m.duration.toNat < halfTurn)
    (hreaches : ∀ m ∈ ms, window.Reaches m.endTime) :
    ms.foldlM update window = .ok { window with slots := ms.foldl distribute window.slots } := by
  induction ms generalizing window with
  | nil => rfl
  | cons m rest ih =>
    obtain ⟨hfirst, hrest⟩ := List.forall_mem_cons.mp haccepted
    obtain ⟨hfirst', hrest'⟩ := List.forall_mem_cons.mp hreaches
    rw [List.foldlM_cons, update_of_reaches hfirst hfirst', List.foldl_cons]
    exact ih hrest fun later hmem => (hrest' later hmem).congr (spans_distribute _ _)

/-- Accepted measurements whose slots are not ahead of the newest slot held lead to the same window
in every order.  It has the same slots, and every total is what it was and all shares of its entity
together, or the largest word if that does not fit. -/
theorem update_any_order (haccepted : ∀ m ∈ ms, m.duration.toNat < halfTurn)
    (hreaches : ∀ m ∈ ms, window.Reaches m.endTime) :
    ∃ slots, (∀ order : List Measurement, order.Perm ms →
        order.foldlM update window = .ok { window with slots := slots }) ∧
      slots.length = window.slots.length ∧
      ∀ index (before after : Slot), window.slots[index]? = some before →
        slots[index]? = some after →
          after.startTime = before.startTime ∧ after.endTime = before.endTime ∧
            ∀ entity quantity, (after.totalOf entity).amount quantity =
              min (2 ^ 64 - 1) ((before.totalOf entity).amount quantity +
                Slot.sumOfShares (shareAt (spans window.slots) index) entity quantity ms) := by
  have hlength : (ms.foldl distribute window.slots).length = window.slots.length := by
    have hspans := congrArg List.length (spans_foldl_distribute window.slots ms)
    simpa only [spans, List.length_map] using hspans
  refine ⟨ms.foldl distribute window.slots, ?_, hlength, ?_⟩
  · intro order hperm
    have hslots : order.foldl distribute window.slots = ms.foldl distribute window.slots := by
      apply List.ext_getElem?
      intro index
      simp only [getElem?_foldl_distribute, Slot.creditAll_perm hperm]
    rw [foldlM_update (fun m hmem => haccepted m (hperm.mem_iff.mp hmem))
      (fun m hmem => hreaches m (hperm.mem_iff.mp hmem)), hslots]
  · intro index before after hbefore hafter
    rw [getElem?_foldl_distribute, hbefore, Option.map_some, Option.some.injEq] at hafter
    subst hafter
    refine ⟨Slot.startTime_creditAll, Slot.endTime_creditAll, fun entity quantity => ?_⟩
    rw [Slot.amount_creditAll, Nat.min_comm]
    rfl

/-- Two measurements of one entity that do not fit a total together, and one of another entity
without duration. -/
def burst : List Measurement :=
  [{ entity := 1, cycles := 18446744073709551615, instructions := 6, cacheMisses := 1,
     endTime := 45, duration := 15 },
    { entity := 2, cycles := 5, instructions := 4, cacheMisses := 3, endTime := 36,
      duration := 0 },
    { entity := 1, cycles := 18446744073709551615, instructions := 8, cacheMisses := 2,
      endTime := 50, duration := 20 }]

/-- Forwards and backwards, the cycles of the first entity saturate in the middle slot. -/
theorem update_any_order_saturating :
    let window := Window.after { shape := fours } [.advance 45]
    (∀ m ∈ burst, m.duration.toNat < halfTurn) ∧ (∀ m ∈ burst, window.Reaches m.endTime) ∧
      ∃ slots, burst.foldlM update window = .ok { window with slots := slots } ∧
        burst.reverse.foldlM update window = .ok { window with slots := slots } ∧
        ∀ after ∈ slots[1]?, (after.totalOf 1).cycles.toNat = 2 ^ 64 - 1 ∧
          (after.totalOf 2).cycles.toNat = 5 := by
  intro window
  have haccepted : ∀ m ∈ burst, m.duration.toNat < halfTurn := by decide +kernel
  have hreaches : ∀ m ∈ burst, window.Reaches m.endTime := by decide +kernel
  obtain ⟨slots, horder, -, htotals⟩ := update_any_order haccepted hreaches
  refine ⟨haccepted, hreaches, slots, horder _ (.refl _), horder _ (List.reverse_perm _), ?_⟩
  intro after hafter
  have hmiddle : (window.slots[1]?).map (fun slot => slot.totalOf 1) = some Counters.zero ∧
      (window.slots[1]?).map (fun slot => slot.totalOf 2) = some Counters.zero := by
    decide +kernel
  obtain ⟨before, hbefore, hone⟩ := Option.map_eq_some_iff.mp hmiddle.1
  have htwo := hmiddle.2
  rw [hbefore, Option.map_some, Option.some.injEq] at htwo
  obtain ⟨-, -, htotal⟩ := htotals 1 before after hbefore hafter
  have hfirst := htotal 1 .cycles
  have hsecond := htotal 2 .cycles
  have hshares : 2 ^ 64 - 1 ≤ Slot.sumOfShares (shareAt (spans window.slots) 1) 1 .cycles burst ∧
      Slot.sumOfShares (shareAt (spans window.slots) 1) 2 .cycles burst = 5 := by
    decide +kernel
  rw [hone, Counters.amount_zero, Nat.zero_add, Nat.min_eq_left hshares.1] at hfirst
  rw [htwo, Counters.amount_zero, Nat.zero_add, hshares.2] at hsecond
  exact ⟨hfirst, hsecond⟩

end Updates

end Window

end CacheMeter
