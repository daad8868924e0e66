import Mathlib
import CacheMeter.Proofs.Merge.Batch
import CacheMeter.Proofs.Ring.Chains

/-!
# Merging queues that are alike

What a ring contributes to a merge is its chain of published records, each under the key of its
bytes.  Two merges whose queues are alike record by record come out alike, as long as the records
that correspond are keyed alike.  With a single ring the keys do not matter, since nothing is
merged.

Main results:

- Theorem `Reader.alone_of_lies`: a reader finds the chain that lies in front of it.
- Theorem `Merge.Merges.forall₂`: queues that are alike are merged alike.
-/

namespace CacheMeter

open CacheMeter.Ring CacheMeter.Merge

/-! ## Reading a chain -/

/-- A record of a ring as it comes out of a merge. -/
def Merge.merged (ring : Nat) (record : UInt32 × Bytes) : MergedRecord where
  time := keyTime record.1 record.2
  ring := ring
  recordType := record.1
  payload := record.2

namespace Ring

variable {view : View} {region : Region} {position : Nat} {record : UInt32 × Bytes}

/-- A view in front of `total` unread bytes. -/
def View.infront (view : View) (position total : Nat) : View :=
  { view with
    readPos := UInt64.ofNat position
    writePos := UInt64.ofNat (position + total) }

theorem View.used_infront {total : Nat} (htotal : total < UInt64.size) :
    (view.infront position total).used = total := by
  rw [View.used, View.infront]
  dsimp only
  rw [toNat_ofNat_sub_ofNat (Nat.le_add_right _ _) (by rwa [Nat.add_sub_cancel_left]),
    Nat.add_sub_cancel_left]

/-- A view in front of a record reads it and moves past it. -/
theorem View.LiesAt.reads (h : view.LiesAt region position record)
    (hdvd : view.capacity ∣ UInt64.size) {rest : Nat}
    (htotal : headerSize + record.2.length + rest < UInt64.size) :
    let front := view.infront position (headerSize + record.2.length + rest)
    front.recordType region = record.1 ∧ front.payload region = record.2 ∧
      front.popped region = view.infront (position + (headerSize + record.2.length)) rest := by
  intro front
  have hspan (offset count : Nat) :
      front.copyOut region offset count = view.span region (position + offset) count :=
    View.copyOut_eq_span (show front.capacity ∣ UInt64.size from hdvd)
      (show front.readPos = UInt64.ofNat position from rfl) region offset count
  have hheader : front.rawHeader region =
      Header.decode (view.span region position headerSize) := by
    rw [View.rawHeader, hspan, Nat.add_zero]
  have hannounced : front.announced region = record.2.length := by
    rw [View.announced, hheader, h.size, Nat.add_sub_cancel_left]
  refine ⟨?_, ?_, ?_⟩
  · rw [View.recordType, hheader, h.recordType]
  · rw [View.payload, hannounced, hspan, h.body]
  · have hstride : View.stride (headerSize + record.2.length) front.used =
        headerSize + record.2.length := by
      have haligned := h.aligned
      rw [View.used_infront htotal]
      unfold View.stride align8 headerSize
      omega
    rw [View.popped, hheader, h.size, hstride]
    simp only [front, View.infront, UInt64.ofNat_add, Nat.add_assoc]

end Ring

namespace Reader

variable {memory : Memory} {view : View} {position : Nat} {records : List (UInt32 × Bytes)}

/-- A reader finds the chain that lies in front of it. -/
theorem alone_of_lies (ring index : Nat) (hdvd : view.capacity ∣ UInt64.size)
    (hlies : view.Lies (memory.region index) position records)
    (hbounded : weight records < UInt64.size) :
    alone memory ring { region := index, view := view.infront position (weight records) } =
      records.map (merged ring) := by
  induction records generalizing position with
  | nil =>
    refine alone_of_isEmpty ?_ ring
    simp [View.isEmpty, View.infront, weight]
  | cons record rest ih =>
    obtain ⟨htype, hpayload, hpopped⟩ := hlies.1.reads hdvd hbounded
    have hfull : (view.infront position (weight (record :: rest))).isEmpty = false := by
      have hused : (view.infront position (weight (record :: rest))).used =
          weight (record :: rest) := View.used_infront hbounded
      rw [View.isEmpty_eq_false_iff]
      intro hsame
      rw [View.used, hsame, UInt64.sub_self, weight, headerSize] at hused
      simp at hused
      omega
    rw [alone_of_full hfull, List.map_cons]
    refine congrArg₂ _ ?_ ?_
    · rw [front, weight, htype, hpayload]
      rfl
    · rw [Reader.popped, weight, hpopped]
      refine ih hlies.2 ?_
      rw [weight] at hbounded
      omega

end Reader

/-! ## Merging -/

namespace Merge.Merges

variable {queues queues' : Nat → List MergedRecord} {records records' : List MergedRecord}
  {R : MergedRecord → MergedRecord → Prop}

/-- Where records that correspond have the same rank, the least fronts lie in the same ring. -/
theorem ring_eq_of_least (hqueues : ∀ ring, List.Forall₂ R (queues ring) (queues' ring))
    (hrank : ∀ a b, R a b → a.rank = b.rank) {record record' : MergedRecord}
    {rest rest' : List MergedRecord} (hfront : queues record.ring = record :: rest)
    (hfront' : queues' record'.ring = record' :: rest')
    (hleast : ∀ ring front, (queues ring).head? = some front → record.rank ≤ front.rank)
    (hleast' : ∀ ring front, (queues' ring).head? = some front → record'.rank ≤ front.rank) :
    record'.ring = record.ring := by
  have hhere := hqueues record.ring
  rw [hfront, List.forall₂_cons_left_iff] at hhere
  obtain ⟨front', _, hR', -, hcase'⟩ := hhere
  have hthere := hqueues record'.ring
  rw [hfront', List.forall₂_cons_right_iff] at hthere
  obtain ⟨front, _, hR, -, hcase⟩ := hthere
  have hle := hleast record'.ring front (by rw [hcase, List.head?_cons])
  have hge := hleast' record.ring front' (by rw [hcase', List.head?_cons])
  rw [hrank _ _ hR] at hle
  rw [← hrank _ _ hR'] at hge
  exact congrArg (fun rank => (ofLex rank).2) (le_antisymm hge hle)

/-- Whether all that is waiting waits in one ring. -/
def Sole (queues : Nat → List MergedRecord) : Prop :=
  ∃ only, ∀ ring, ring ≠ only → queues ring = []

/-- Where only one ring has anything waiting, that is the ring of every front. -/
theorem ring_eq_of_sole (hsole : Sole queues) {first second : Nat}
    (hfirst : queues first ≠ []) (hsecond : queues second ≠ []) : first = second := by
  obtain ⟨only, honly⟩ := hsole
  have hfirst' : first = only := by_contra fun hne => hfirst (honly first hne)
  have hsecond' : second = only := by_contra fun hne => hsecond (honly second hne)
  rw [hfirst', hsecond']

theorem Sole.update (hsole : Sole queues) {ring : Nat} {rest : List MergedRecord}
    (hfront : queues ring ≠ []) : Sole (Function.update queues ring rest) := by
  obtain ⟨only, honly⟩ := hsole
  refine ⟨only, fun other hne => ?_⟩
  have hother : other ≠ ring := by
    rintro rfl
    exact hfront (honly other hne)
  rw [Function.update_of_ne hother]
  exact honly other hne

/-- Queues that are alike are merged alike if records that correspond have the same rank, or if
there is only one queue. -/
theorem forall₂ (h : Merges queues records) (h' : Merges queues' records')
    (hqueues : ∀ ring, List.Forall₂ R (queues ring) (queues' ring))
    (hrank : (∀ a b, R a b → a.rank = b.rank) ∨ Sole queues) :
    List.Forall₂ R records records' := by
  induction h generalizing queues' records' with
  | nil hdone =>
    cases h' with
    | nil => exact .nil
    | @cons queues' record' rest' _ hfront' hleast' hrest' =>
      have hnone := hqueues record'.ring
      rw [hdone, hfront'] at hnone
      cases hnone
  | @cons queues record rest records hfront hleast hrest ih =>
    have hhere := hqueues record.ring
    rw [hfront] at hhere
    have hheld : queues record.ring ≠ [] := by
      rw [hfront]
      exact List.cons_ne_nil _ _
    cases h' with
    | nil hdone' =>
      rw [hdone'] at hhere
      cases hhere
    | @cons queues' record' rest' records' hfront' hleast' hrest' =>
      -- The record that comes out of the other merge comes from the same ring.
      have hring : record'.ring = record.ring := by
        rcases hrank with hrank | hsole
        · exact ring_eq_of_least hqueues hrank hfront hfront' hleast hleast'
        · have hthere := hqueues record'.ring
          rw [hfront', List.forall₂_cons_right_iff] at hthere
          obtain ⟨front, before, -, -, hcase⟩ := hthere
          exact ring_eq_of_sole hsole (hcase ▸ List.cons_ne_nil _ _) hheld
      rw [← hring, hfront'] at hhere
      obtain ⟨hhead, htail⟩ := List.forall₂_cons.mp hhere
      refine .cons hhead (ih hrest' ?_ (hrank.imp id fun hsole => hsole.update hheld))
      intro ring
      by_cases hsame : ring = record.ring
      · subst hsame
        rw [Function.update_self, hring, Function.update_self]
        exact htail
      · rw [Function.update_of_ne hsame, Function.update_of_ne (hring ▸ hsame)]
        exact hqueues ring

end Merge.Merges

end CacheMeter
