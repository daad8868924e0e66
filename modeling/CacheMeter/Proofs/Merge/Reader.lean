import Mathlib
import CacheMeter.Proofs.Merge.HeapOrder
import CacheMeter.Proofs.Merge.Interleaving
import CacheMeter.Proofs.Ring.Spans

/-!
# Reading one ring by itself

A reader that has unread bytes reads a record whatever those bytes are, and popping it
uses up some of them.  So reading a ring by itself up to the reader's snapshot comes to
an end, and gives the queue that the ring contributes to a merge.

Main results:

- Theorem `View.used_popped_lt`: popping leaves fewer unread bytes.
- Theorem `View.headTime?_of_full`: the key is a function of the record's type and payload.
- Definition `Reader.alone`: the records of one ring up to the snapshot.
-/

namespace CacheMeter

open CacheMeter.Ring CacheMeter.Merge

/-! ## Progress -/

namespace Ring.View

variable {view : View} {region : Region}

/-- As long as something is unread, a pop moves on. -/
theorem stride_pos (size : Nat) {remaining : Nat} (h : 0 < remaining) :
    0 < stride size remaining := by
  unfold stride headerSize
  omega

/-- It moves no further than to the end. -/
theorem stride_le (size remaining : Nat) : stride size remaining ≤ remaining :=
  Nat.min_le_right _ _

/-- In a ring that is not empty something is unread. -/
theorem used_pos_of_full (hfull : view.isEmpty = false) : 0 < view.used := by
  rw [isEmpty_eq_false_iff] at hfull
  rw [used, Nat.pos_iff_ne_zero]
  intro hzero
  have hdiff : view.writePos - view.readPos = 0 := UInt64.toNat_inj.mp hzero
  rw [UInt64.sub_eq_iff_eq_add, UInt64.zero_add] at hdiff
  exact hfull hdiff.symm

/-- The view behind the current record. -/
def popped (view : View) (region : Region) : View :=
  { view with
    readPos := view.readPos +
      UInt64.ofNat (stride (view.rawHeader region).size.toNat view.used) }

/-- A pop of a ring that is not empty succeeds. -/
theorem pop_eq_popped (hfull : view.isEmpty = false) :
    view.pop region = .ok (view.popped region) :=
  pop_of_full hfull

/-- How far popping moves the read cursor. -/
def moved (view : View) (region : Region) : Nat :=
  stride (view.rawHeader region).size.toNat view.used

/-- It does not pass the write cursor. -/
theorem moved_le (view : View) (region : Region) : view.moved region ≤ view.used :=
  stride_le _ _

/-- By how much it moves fits a word. -/
theorem toNat_ofNat_moved (view : View) (region : Region) :
    (UInt64.ofNat (view.moved region)).toNat = view.moved region := by
  have hle := view.moved_le region
  have hlt : view.used < UInt64.size := (view.writePos - view.readPos).toNat_lt
  exact UInt64.toNat_ofNat_of_lt' (by omega)

/-- What popping moves past is unread no longer. -/
theorem used_popped (view : View) (region : Region) :
    (view.popped region).used = view.used - view.moved region := by
  have hword := view.toNat_ofNat_moved region
  have hdiff : view.writePos - (view.readPos + UInt64.ofNat (view.moved region)) =
      view.writePos - view.readPos - UInt64.ofNat (view.moved region) := by
    rw [UInt64.sub_eq_iff_eq_add, UInt64.add_comm view.readPos, ← UInt64.add_assoc,
      UInt64.sub_add_cancel, UInt64.sub_add_cancel]
  have hle : UInt64.ofNat (view.moved region) ≤ view.writePos - view.readPos := by
    rw [UInt64.le_iff_toNat_le, hword]
    exact view.moved_le region
  rw [popped, ← moved, used, hdiff, UInt64.toNat_sub_of_le _ _ hle, hword, used]

/-- Popping leaves fewer unread bytes. -/
theorem used_popped_lt (hfull : view.isEmpty = false) (region : Region) :
    (view.popped region).used < view.used := by
  have hused := used_pos_of_full hfull
  have hpos : 0 < view.moved region := stride_pos _ hused
  rw [used_popped]
  omega

/-! ## Keys -/

/-- An empty ring has no next record to take the time of. -/
theorem headTime?_of_isEmpty (hempty : view.isEmpty = true) : view.headTime? region = none := by
  simp [headTime?, hempty]

/-- The payload at the read cursor, as far as the header announces it. -/
def payload (view : View) (region : Region) : Bytes :=
  view.copyOut region headerSize (view.announced region)

/-- What is read of the next record are its type and all that it announces. -/
theorem record?_eq_payload (hfull : view.isEmpty = false) :
    view.record? region = .ok (view.recordType region, view.payload region) :=
  record?_of_full hfull

/-- Its payload is as long as announced. -/
@[simp]
theorem length_payload (view : View) (region : Region) :
    (view.payload region).length = view.announced region :=
  length_copyOut ..

/-- The key is a function of the record's type and payload. -/
theorem headTime?_of_full (hfull : view.isEmpty = false) :
    view.headTime? region =
      some (keyTime (view.recordType region) (view.payload region)) := by
  rw [headTime?, hfull, keyTime, length_payload]
  by_cases htype : view.recordType region = sampleRecordType
  · by_cases hlong : sampleSizeWord + 8 ≤ view.announced region
    · have hcopy : view.copyPayload region 8 sampleSizeWord = _ :=
        copyPayload_of_le hfull hlong
      have hword : (view.copyOut region (headerSize + sampleSizeWord) 8).word64At 0 =
          (view.payload region).word64At sampleSizeWord := by
        rw [copyOut_slice view region hlong, payload, Bytes.word64At, Bytes.word64At,
          Bytes.field, Bytes.field, List.drop_zero, List.take_take, Nat.min_self]
      simp [htype, hlong, hcopy, hword]
    · have hshort : view.announced region < min (sampleSizeWord + 8) maxWord := by
        have hmin : min (sampleSizeWord + 8) maxWord = sampleSizeWord + 8 := by decide
        omega
      have hcopy : view.copyPayload region 8 sampleSizeWord = _ :=
        copyPayload_of_lt hfull hshort
      simp [htype, hlong, hcopy]
  · simp [htype]

/-- There is a key exactly if there is an unread record. -/
theorem headTime?_eq_none_iff : view.headTime? region = none ↔ view.isEmpty = true := by
  constructor
  · intro hnone
    by_contra hempty
    rw [headTime?_of_full (by simpa using hempty)] at hnone
    exact Option.some_ne_none _ hnone
  · exact headTime?_of_isEmpty

end Ring.View

/-! ## One ring -/

namespace Reader

variable {reader : Reader} {memory : Memory}

/-- The reader behind its current record. -/
def popped (reader : Reader) (memory : Memory) : Reader :=
  { reader with view := reader.view.popped (memory.region reader.region) }

/-- The current record of the reader, as it comes out of a merge under a ring number. -/
def front (reader : Reader) (memory : Memory) (ring : Nat) : MergedRecord :=
  let recordType := reader.view.recordType (memory.region reader.region)
  let payload := reader.view.payload (memory.region reader.region)
  { time := keyTime recordType payload
    ring := ring
    recordType := recordType
    payload := payload }

/-- The front record is put together from what is read of it. -/
theorem mk_front (reader : Reader) (memory : Memory) (ring : Nat) :
    { time := (reader.front memory ring).time
      ring := ring
      recordType := (reader.front memory ring).recordType
      payload := (reader.front memory ring).payload : MergedRecord } =
      reader.front memory ring := by
  simp only [front]

/-- It says which ring it comes from. -/
theorem ring_front (reader : Reader) (memory : Memory) (ring : Nat) :
    (reader.front memory ring).ring = ring := by
  rw [front]

/-- Fronts are ranked by time, then ring. -/
theorem rank_front (reader : Reader) (memory : Memory) (ring : Nat) :
    (reader.front memory ring).rank = Entry.rank ⟨(reader.front memory ring).time, ring⟩ := by
  rw [MergedRecord.rank, Entry.rank, ring_front]

/-- Its time is the one that its bytes say. -/
theorem keyed_front (reader : Reader) (memory : Memory) (ring : Nat) :
    (reader.front memory ring).Keyed := by
  simp only [MergedRecord.Keyed, front]

/-- A reader can pop a ring that is not empty. -/
theorem pop_of_full (hfull : reader.view.isEmpty = false) :
    reader.pop memory = .ok (reader.popped memory) := by
  rw [Reader.pop, View.pop_eq_popped hfull]
  rfl

/-- It reads the front record of a ring that is not empty. -/
theorem record?_of_full (hfull : reader.view.isEmpty = false) (ring : Nat) :
    reader.record? memory =
      .ok ((reader.front memory ring).recordType, (reader.front memory ring).payload) := by
  rw [Reader.record?, View.record?_eq_payload hfull, front]

/-- It reads the time of the front record. -/
theorem headTime?_of_full (hfull : reader.view.isEmpty = false) (ring : Nat) :
    reader.headTime? memory = some (reader.front memory ring).time := by
  rw [Reader.headTime?, View.headTime?_of_full hfull, front]

/-- A reader has a key exactly if it has an unread record. -/
theorem headTime?_eq_none_iff :
    reader.headTime? memory = none ↔ reader.view.isEmpty = true :=
  View.headTime?_eq_none_iff

/-- It refuses to pop an empty ring. -/
theorem pop_of_isEmpty (hempty : reader.view.isEmpty = true) :
    reader.pop memory = .error .empty := by
  rw [Reader.pop, View.pop_isEmpty hempty]
  rfl

/-- Popping leaves fewer unread bytes. -/
theorem used_lt_of_pop {behind : Reader} (hpop : reader.pop memory = .ok behind) :
    behind.view.used < reader.view.used := by
  cases hempty : reader.view.isEmpty with
  | true =>
    rw [pop_of_isEmpty hempty] at hpop
    simp at hpop
  | false =>
    rw [pop_of_full hempty, Except.ok.injEq] at hpop
    rw [← hpop]
    exact View.used_popped_lt hempty _

/-- The records of one ring, read and popped by itself up to the reader's snapshot. -/
def alone (memory : Memory) (ring : Nat) (reader : Reader) : List MergedRecord :=
  match _hpop : reader.pop memory with
  | .error _ => []
  | .ok behind =>
    match reader.headTime? memory, reader.record? memory with
    | some time, .ok (recordType, payload) =>
      { time := time, ring := ring, recordType := recordType, payload := payload } ::
        alone memory ring behind
    | _, _ => []
termination_by reader.view.used
decreasing_by exact used_lt_of_pop _hpop

/-- By itself a ring gives its front record, and then what is behind it. -/
theorem alone_of_full (hfull : reader.view.isEmpty = false) (ring : Nat) :
    alone memory ring reader =
      reader.front memory ring :: alone memory ring (reader.popped memory) := by
  have htime : reader.headTime? memory = _ := headTime?_of_full hfull ring
  have hrecord : reader.record? memory = _ := record?_of_full hfull ring
  rw [alone]
  split
  next hpop =>
    rw [pop_of_full hfull] at hpop
    simp at hpop
  next behind hpop =>
    rw [pop_of_full hfull, Except.ok.injEq] at hpop
    rw [htime, hrecord, ← hpop]
    dsimp only
    rw [mk_front]

/-- An empty ring gives nothing. -/
theorem alone_of_isEmpty (hempty : reader.view.isEmpty = true) (ring : Nat) :
    alone memory ring reader = [] := by
  rw [alone]
  split
  next => rfl
  next behind hpop =>
    rw [pop_of_isEmpty hempty] at hpop
    simp at hpop

/-- What holds of every front holds of every record. -/
theorem forall_mem_alone {ring : Nat} {P : MergedRecord → Prop}
    (hfront : ∀ reader : Reader, P (reader.front memory ring)) :
    ∀ record ∈ alone memory ring reader, P record := by
  induction hused : reader.view.used using Nat.strong_induction_on generalizing reader with
  | _ used ih =>
    intro record hmem
    cases hempty : reader.view.isEmpty with
    | true =>
      rw [alone_of_isEmpty hempty] at hmem
      simp at hmem
    | false =>
      rw [alone_of_full hempty] at hmem
      rcases List.mem_cons.mp hmem with rfl | hmem
      · exact hfront reader
      · refine ih _ ?_ rfl record hmem
        rw [← hused]
        exact View.used_popped_lt hempty _

/-- All records of a ring say that they come from it. -/
theorem ring_of_mem_alone {ring : Nat} :
    ∀ record ∈ alone memory ring reader, record.ring = ring :=
  forall_mem_alone fun reader => reader.ring_front memory ring

/-- All of them have the time that their bytes say. -/
theorem keyed_of_mem_alone {ring : Nat} :
    ∀ record ∈ alone memory ring reader, record.Keyed :=
  forall_mem_alone fun reader => reader.keyed_front memory ring

end Reader

end CacheMeter
