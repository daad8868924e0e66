import Mathlib
import CacheMeter.Merge

/-!
# Merging queues by time

What it means that a list of records is the merge of many queues: every record comes
from the front of its queue, and no other front has an earlier time, or the same time
and a lower ring number.

Main results:

- Inductive `Merges`: the queues are merged into the list.
- Theorem `Merges.filter_ring`: restricted to a ring the list is that ring's queue.
- Theorem `Merges.rank_le_front`: every record is the least of the fronts left.
- Theorem `Merges.pairwise_carrying`: if the samples with a timestamp are in order in
  every queue, they are in order in the list, whatever lies between them.
-/

namespace CacheMeter.Merge

/-! ## Keys -/

/-- The time by which a record is merged, from its type and payload: the timestamp of a
sample that is long enough for one, otherwise zero. -/
def keyTime (recordType : UInt32) (payload : Bytes) : UInt64 :=
  if recordType = sampleRecordType ∧ sampleSizeWord + 8 ≤ payload.length then
    payload.word64At sampleSizeWord
  else 0

namespace MergedRecord

/-- Whether the record is a sample long enough to carry a timestamp. -/
def carriesTime (record : MergedRecord) : Bool :=
  record.recordType = sampleRecordType ∧ sampleSizeWord + 8 ≤ record.payload.length

/-- Time and ring as a pair in lexicographic order. -/
def rank (record : MergedRecord) : Nat ×ₗ Nat :=
  toLex (record.time.toNat, record.ring)

/-- The record is keyed by its own type and payload. -/
def Keyed (record : MergedRecord) : Prop :=
  record.time = keyTime record.recordType record.payload

theorem time_le_of_rank_le {a b : MergedRecord} (h : a.rank ≤ b.rank) : a.time ≤ b.time := by
  rw [rank, rank, Prod.Lex.toLex_le_toLex] at h
  rw [UInt64.le_iff_toNat_le]
  omega

/-- A record without a timestamp is keyed zero. -/
theorem Keyed.time_eq_zero {record : MergedRecord} (h : record.Keyed)
    (hnone : record.carriesTime = false) : record.time = 0 := by
  rw [carriesTime, decide_eq_false_iff_not] at hnone
  rw [h, keyTime, if_neg hnone]

end MergedRecord

/-! ## Merges -/

/-- The list takes all records from the fronts of the queues, the least front first. -/
inductive Merges : (Nat → List MergedRecord) → List MergedRecord → Prop
  | nil {queues : Nat → List MergedRecord} (hdone : ∀ ring, queues ring = []) :
    Merges queues []
  | cons {queues : Nat → List MergedRecord} {record : MergedRecord}
    {rest records : List MergedRecord}
    (hfront : queues record.ring = record :: rest)
    (hleast : ∀ ring front, (queues ring).head? = some front → record.rank ≤ front.rank)
    (hrest : Merges (Function.update queues record.ring rest) records) :
    Merges queues (record :: records)

/-- What is left in the queues after taking a front was in them before. -/
theorem mem_of_mem_update {queues : Nat → List MergedRecord} {front record : MergedRecord}
    {rest : List MergedRecord} {ring other : Nat} (hqueue : queues ring = front :: rest)
    (hmem : record ∈ Function.update queues ring rest other) : record ∈ queues other := by
  by_cases hother : other = ring
  · subst hother
    rw [Function.update_self] at hmem
    rw [hqueue]
    exact List.mem_cons_of_mem _ hmem
  · rwa [Function.update_of_ne hother] at hmem

namespace Merges

variable {queues : Nat → List MergedRecord} {records : List MergedRecord}

/-- Restricted to a ring the list is that ring's queue. -/
theorem filter_ring (h : Merges queues records)
    (hown : ∀ ring, ∀ record ∈ queues ring, record.ring = ring) (ring : Nat) :
    records.filter (fun record => record.ring = ring) = queues ring := by
  induction h with
  | nil hdone => rw [hdone, List.filter_nil]
  | @cons queues record rest records hfront hleast hrest ih =>
    have hown' : ∀ ring, ∀ other ∈ Function.update queues record.ring rest ring,
        other.ring = ring := by
      intro ring other hmem
      exact hown ring other (mem_of_mem_update hfront hmem)
    rw [List.filter_cons, ih hown']
    by_cases hring : record.ring = ring
    · subst hring
      rw [if_pos (by simp), Function.update_self, hfront]
    · rw [if_neg (by simpa using hring), Function.update_of_ne (Ne.symm hring)]

theorem exists_of_mem (h : Merges queues records) {record : MergedRecord}
    (hmem : record ∈ records) : ∃ ring, record ∈ queues ring := by
  induction h with
  | nil => simp at hmem
  | @cons queues first rest records hfront hleast hrest ih =>
    rcases List.mem_cons.mp hmem with rfl | hmem
    · exact ⟨record.ring, by rw [hfront]; exact List.mem_cons_self⟩
    · rcases ih hmem with ⟨ring, hring⟩
      exact ⟨ring, mem_of_mem_update hfront hring⟩

/-- When a record comes out, no front of what is left of the queues is before it. -/
theorem rank_le_front (h : Merges queues records) {before after : List MergedRecord}
    {record : MergedRecord} (hsplit : records = before ++ record :: after) (ring : Nat)
    {front : MergedRecord}
    (hfront : ((queues ring).drop
      (before.filter fun record => record.ring = ring).length).head? = some front) :
    record.rank ≤ front.rank := by
  induction h generalizing before with
  | nil => simp at hsplit
  | @cons queues first rest records hqueue hleast hrest ih =>
    cases before with
    | nil =>
      rcases List.cons.inj hsplit with ⟨rfl, -⟩
      exact hleast ring front hfront
    | cons out before =>
      rcases List.cons.inj hsplit with ⟨rfl, htail⟩
      apply ih htail
      by_cases hring : ring = first.ring
      · subst hring
        rw [List.filter_cons_of_pos (by simp), List.length_cons, hqueue,
          List.drop_succ_cons] at hfront
        rw [Function.update_self]
        exact hfront
      · rw [List.filter_cons_of_neg (by simpa using Ne.symm hring)] at hfront
        rw [Function.update_of_ne hring]
        exact hfront

/-- If in every queue the samples with a timestamp are in order, so they are in the
list. -/
theorem pairwise_carrying (h : Merges queues records)
    (hkeyed : ∀ ring, ∀ record ∈ queues ring, record.Keyed)
    (hsorted : ∀ ring, ((queues ring).filter MergedRecord.carriesTime).Pairwise
      fun a b => a.time ≤ b.time) :
    (records.filter MergedRecord.carriesTime).Pairwise fun a b => a.time ≤ b.time := by
  induction h with
  | nil => simp
  | @cons queues first rest records hqueue hleast hrest ih =>
    have hlater : ((records.filter MergedRecord.carriesTime).Pairwise
        fun a b => a.time ≤ b.time) := by
      refine ih ?_ ?_
      · intro ring record hmem
        exact hkeyed ring record (mem_of_mem_update hqueue hmem)
      · intro ring
        by_cases hring : ring = first.ring
        · subst hring
          have hfirst := hsorted first.ring
          rw [hqueue] at hfirst
          rw [Function.update_self]
          exact hfirst.sublist ((List.sublist_cons_self first rest).filter _)
        · rw [Function.update_of_ne hring]
          exact hsorted ring
    rw [List.filter_cons]
    split_ifs with hcarries
    · refine List.pairwise_cons.mpr ⟨?_, hlater⟩
      intro later hmem
      rcases List.mem_filter.mp hmem with ⟨hmem, hlaterCarries⟩
      -- A later record is at the front of its queue or behind that front now.
      rcases hrest.exists_of_mem hmem with ⟨ring, hring⟩
      have hqueued : later ∈ queues ring := mem_of_mem_update hqueue hring
      cases hcase : queues ring with
      | nil =>
        rw [hcase] at hqueued
        simp at hqueued
      | cons front behind =>
        have hle : first.time ≤ front.time := by
          refine MergedRecord.time_le_of_rank_le (hleast ring front ?_)
          rw [hcase, List.head?_cons]
        have hmemfront : front ∈ queues ring := by
          rw [hcase]
          exact List.mem_cons_self
        rw [hcase] at hqueued
        rcases List.mem_cons.mp hqueued with rfl | hbehind
        · exact hle
        · cases hfrontCarries : front.carriesTime with
          | false =>
            -- A front keyed zero lets only records keyed zero pass.
            rw [(hkeyed ring front hmemfront).time_eq_zero hfrontCarries] at hle
            have hzero : first.time = 0 := UInt64.le_zero_iff.mp hle
            rw [hzero]
            exact UInt64.zero_le
          | true =>
            have hordered := hsorted ring
            rw [hcase, List.filter_cons_of_pos hfrontCarries] at hordered
            have hafter := (List.pairwise_cons.mp hordered).1 later
              (List.mem_filter.mpr ⟨hbehind, hlaterCarries⟩)
            exact UInt64.le_trans hle hafter
    · exact hlater

end Merges

end CacheMeter.Merge
