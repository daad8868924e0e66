import Mathlib
import CacheMeter.Proofs.Ring.Delivery

/-!
# Writing all or nothing

A write is refused for one of three reasons, or it appends the whole record.  Which it is depends
on the record and on the bytes that are pending: those of records whose release the producer has
not observed yet.  A refused write changes nothing; one that succeeds changes the bytes of the
record and no others, and nothing of what the consumer can still come to.

Main results:

- Theorems `View.write_eq_error_cannotFit_iff` and `View.write_eq_error_noSpace_iff`: when a write
  is refused for want of space, for ever or for now.
- Theorem `Channel.Sound.used_eq_pending`: what the producer takes for used is pending.
- Structure `Channel.Appends`: what a write that succeeds does.
- Theorem `Channel.write_all_or_nothing`: how a write turns out and what it does, after any steps
  of both sides.
-/

namespace CacheMeter.Ring

namespace View

/-! ## Refusals -/

section Refusals

variable {view : View} {region : Region} {payload : Bytes} {recordType : UInt32}

/-- A record is refused for ever exactly if it is larger than the ring, or than a header can say. -/
theorem write_eq_error_cannotFit_iff {size : Nat} :
    view.write region payload recordType = .error (.cannotFit size) ↔
      payload ≠ [] ∧ size = Record.size recordType payload ∧
        (view.capacity < Record.size recordType payload ∨
          65535 < Record.size recordType payload) := by
  have hword : UInt16.size = 65535 + 1 := rfl
  simp only [write, Bool.or_eq_true, decide_eq_true_eq, hword, Nat.succ_le_iff]
  split_ifs with hnil hfit hroom <;> simp [*, eq_comm]

/-- A record is refused for now exactly if it can fit, but not beside what is used. -/
theorem write_eq_error_noSpace_iff :
    view.write region payload recordType = .error .noSpace ↔
      payload ≠ [] ∧ Record.size recordType payload ≤ view.capacity ∧
        Record.size recordType payload ≤ 65535 ∧
        view.capacity < view.used + Record.size recordType payload := by
  have hword : UInt16.size = 65535 + 1 := rfl
  simp only [write, Bool.or_eq_true, decide_eq_true_eq, hword, Nat.succ_le_iff]
  split_ifs with hnil hfit hroom <;> simp [*] <;> omega

end Refusals

/-! ## Places -/

/-- Every place lies in the data region. -/
theorem place_mem (view : View) (hpos : 0 < view.capacity) (cursor : UInt64) (i : Nat) :
    view.dataStart ≤ view.place cursor i ∧
      view.place cursor i < view.dataStart + view.capacity :=
  ⟨Nat.le_add_right _ _, Nat.add_lt_add_left (Nat.mod_lt _ hpos) _⟩

/-- A span does not depend on how often its position has gone round the data region. -/
theorem span_of_mod_eq {view : View} {region : Region} {position position' count : Nat}
    (h : position % view.capacity = position' % view.capacity) :
    view.span region position count = view.span region position' count := by
  apply gather_congr
  intro i _
  rw [Nat.add_mod, h, ← Nat.add_mod]

end View

namespace Channel

/-! ## Pending records -/

/-- Bytes of the records whose release the producer has not observed. -/
def pending (journal : Journal) : Nat :=
  extent (journal.written.drop journal.acknowledged)

section Pending

variable {view : View} {channel : Channel}

/-- What the producer takes for used is what is pending. -/
theorem Sound.used_eq_pending (h : Sound view channel) :
    channel.producer.used = pending channel.journal := by
  have hsplit := extent_append (channel.journal.written.take channel.journal.acknowledged)
    (channel.journal.written.drop channel.journal.acknowledged)
  rw [List.take_append_drop] at hsplit
  rw [h.used_producer, position, position, List.take_length, pending]
  omega

/-! ## How a write turns out -/

/-- How a write turns out in a ring of some capacity with some bytes pending. -/
structure Classified {α : Type} (capacity pending : Nat) (recordType : UInt32) (payload : Bytes)
    (outcome : Except Refusal α) : Prop where
  emptyWrite_iff : outcome = .error .emptyWrite ↔ payload = []
  cannotFit_iff : ∀ size, outcome = .error (.cannotFit size) ↔
    payload ≠ [] ∧ size = Record.size recordType payload ∧
      (capacity < Record.size recordType payload ∨ 65535 < Record.size recordType payload)
  noSpace_iff : outcome = .error .noSpace ↔
    payload ≠ [] ∧ Record.size recordType payload ≤ capacity ∧
      Record.size recordType payload ≤ 65535 ∧
      capacity < pending + Record.size recordType payload
  ok_iff : (∃ result, outcome = .ok result) ↔
    payload ≠ [] ∧ Record.size recordType payload ≤ capacity ∧
      Record.size recordType payload ≤ 65535 ∧
      pending + Record.size recordType payload ≤ capacity

/-- What a write that succeeds returns and does in a ring bound as `view`. -/
structure Appends (view : View) (channel : Channel) (recordType : UInt32) (payload : Bytes)
    (offset : Nat) (producer : View) (region : Region) : Prop where
  /-- The write cursor moves over the record, and nothing else of the view changes. -/
  producer_eq : producer =
    { channel.producer with
      writePos := channel.producer.writePos + UInt64.ofNat (Record.size recordType payload) }
  /-- Of the region only cells change, … -/
  region_eq : region = { channel.region with cells := region.cells }
  /-- … namely those from the write cursor on that hold header, size word and payload, … -/
  elsewhere : ∀ address,
    (∀ i < headerSize + Record.wordSize recordType + payload.length,
      channel.producer.place channel.producer.writePos i ≠ address) →
    region.cells.get address = channel.region.cells.get address
  /-- … all of them in the data region. -/
  inside : ∀ i, view.dataStart ≤ channel.producer.place channel.producer.writePos i ∧
    channel.producer.place channel.producer.writePos i < view.dataStart + view.capacity
  /-- Records that may still be read keep every byte, padding included. -/
  kept : ∀ number record, channel.journal.acknowledged ≤ number →
    channel.journal.written[number]? = some record →
      view.span region (position channel.journal.written view.readPos.toNat number)
          (Record.size record.1 record.2) =
        view.span channel.region (position channel.journal.written view.readPos.toNat number)
          (Record.size record.1 record.2)
  offset_lt : offset < view.capacity
  /-- The payload is found where the write says. -/
  found : view.span region offset payload.length = payload
  /-- Nothing is published, nor is anything that was published taken back. -/
  head_eq : region.head = channel.region.head
  tail_eq : region.tail = channel.region.tail

variable {recordType : UInt32} {payload : Bytes} {offset : Nat} {producer : View}
  {region : Region}

theorem Sound.classified (h : Sound view channel) (recordType : UInt32) (payload : Bytes) :
    Classified view.capacity (pending channel.journal) recordType payload
      (channel.producer.write channel.region payload recordType) := by
  have hcapacity : channel.producer.capacity = view.capacity := by rw [h.producer]
  have hword : UInt16.size = 65535 + 1 := rfl
  rw [← hcapacity, ← h.used_eq_pending]
  refine ⟨View.write_eq_error_iff_nil, fun _ => View.write_eq_error_cannotFit_iff,
    View.write_eq_error_noSpace_iff, ?_⟩
  constructor
  · rintro ⟨⟨offset, producer, region⟩, hwrite⟩
    obtain ⟨⟨hnil, hfit, hsize, hroom⟩, -⟩ := View.write_eq_ok_iff.mp hwrite
    exact ⟨hnil, hfit, by omega, hroom⟩
  · rintro ⟨hnil, hfit, hsize, hroom⟩
    exact ⟨_, View.write_eq_ok_iff.mpr ⟨⟨hnil, hfit, by omega, hroom⟩, rfl, rfl, rfl⟩⟩

/-- The payload is found behind header and size word. -/
theorem Sound.span_payload (h : Sound view channel)
    (hfit : Record.size recordType payload ≤ view.capacity) :
    view.span
        { channel.region with
          cells := scatter (channel.producer.place channel.producer.writePos) 0
            (Record.bytes recordType payload) channel.region.cells }
        ((channel.producer.writePos.toNat + headerSize + Record.wordSize recordType) %
          view.capacity)
        payload.length = payload := by
  have hlength := Record.length_bytes recordType payload
  have hle := Record.length_bytes_le recordType payload
  let origin := position channel.journal.written view.readPos.toNat channel.journal.written.length
  have hrecord : view.span
      { channel.region with
        cells := scatter (view.place (UInt64.ofNat origin)) 0 (Record.bytes recordType payload)
          channel.region.cells }
      origin (Record.bytes recordType payload).length = Record.bytes recordType payload :=
    View.span_scatter_self h.capacity_dvd (by omega)
  have hcursor : channel.producer.writePos =
      mark view channel.journal.written channel.journal.written.length := by
    rw [h.producer]
  have hpos : (channel.producer.writePos.toNat + headerSize + Record.wordSize recordType) %
        view.capacity % view.capacity =
      (origin + (headerSize + Record.wordSize recordType)) % view.capacity := by
    rw [hcursor, Nat.mod_mod, Nat.add_assoc, mark, UInt64.toNat_ofNat', Nat.add_mod,
      Nat.mod_mod_of_dvd _ h.capacity_dvd, ← Nat.add_mod]
  rw [← h.place_producer, hlength, View.span_add, Record.bytes] at hrecord
  rw [View.span_of_mod_eq hpos]
  exact (List.append_inj' hrecord (by simp)).2

theorem Sound.appends (h : Sound view channel)
    (hwrite : channel.producer.write channel.region payload recordType =
      .ok (offset, producer, region)) :
    Appends view channel recordType payload offset producer region := by
  obtain ⟨⟨-, hfit, -, hroom⟩, rfl, rfl, rfl⟩ := View.write_eq_ok_iff.mp hwrite
  have hcapacity : channel.producer.capacity = view.capacity := by rw [h.producer]
  have hstart : channel.producer.dataStart = view.dataStart := by rw [h.producer]
  have hpos : 0 < channel.producer.capacity :=
    (Record.headerSize_le_size recordType payload).trans hfit |>.trans_lt' (by decide)
  have hcells := h.get_scatter_metadata (Record.bytes recordType payload)
  exact
    { producer_eq := rfl
      region_eq := rfl
      elsewhere := fun address hother => by
        apply get_scatter_of_ne
        rw [Record.length_bytes]
        simpa only [Nat.zero_add] using hother
      inside := fun i => by
        rw [← hstart, ← hcapacity]
        exact channel.producer.place_mem hpos _ i
      kept := fun number record hle hheld => h.span_write hroom hle hheld le_rfl
      offset_lt := by
        rw [← hcapacity]
        exact Nat.mod_lt _ hpos
      found := by
        rw [hcapacity] at hfit ⊢
        exact h.span_payload hfit
      head_eq := Region.head_of_cells hcells
      tail_eq := Region.tail_of_cells hcells }

end Pending

/-- After any steps of both sides of a ring that was idle when it was bound: a write is refused for
the first reason that there is, or it succeeds; refused, it changes nothing at all; otherwise it
appends the record, and the consumer is where it was. -/
theorem write_all_or_nothing {region : Region} {view : View}
    (hbind : View.attach region = .ok view) (hidle : region.head = region.tail)
    (actions : List Action) (recordType : UInt32) (payload : Bytes) :
    let channel := (opened region view).run actions
    let outcome := channel.producer.write channel.region payload recordType
    let next := channel.step (.write payload recordType)
    Classified view.capacity (pending channel.journal) recordType payload outcome ∧
      (∀ refusal, outcome = .error refusal → next = channel) ∧
      ∀ offset producer after, outcome = .ok (offset, producer, after) →
        Appends view channel recordType payload offset producer after ∧
          next.producer = producer ∧ next.region = after ∧ next.consumer = channel.consumer := by
  have hsound := (sound_opened hbind hidle).run actions
  generalize (opened region view).run actions = channel at *
  refine ⟨hsound.classified recordType payload, ?_, ?_⟩
  · intro refusal hrefused
    simp only [Channel.step, hrefused]
  · intro offset producer after hwrite
    refine ⟨hsound.appends hwrite, ?_⟩
    simp only [Channel.step, hwrite, and_self]

/-- In a ring that two records fill, a third one is refused while the release of the first is not
observed; then it goes round the end of the data region. -/
theorem write_all_or_nothing_wrapping :
    let view : View :=
      { dataStart := 1072
        capacity := 32
        readPos := 18446744073709551608
        writePos := 18446744073709551608 }
    let full := (opened wrapping view).run
      [.write [1, 2] 1, .write [3] 1, .finishWrite, .startRead, .pop, .finishRead]
    let freed := (opened wrapping view).run
      [.write [1, 2] 1, .write [3] 1, .finishWrite, .startRead, .pop, .finishRead, .startWrite]
    View.attach wrapping = .ok view ∧ wrapping.head = wrapping.tail ∧
      full.producer.write full.region [4, 5, 6, 7, 8] 1 = .error .noSpace ∧
      full.step (.write [4, 5, 6, 7, 8] 1) = full ∧
      ∃ producer after,
        freed.producer.write freed.region [4, 5, 6, 7, 8] 1 = .ok (0, producer, after) ∧
          Appends view freed 1 [4, 5, 6, 7, 8] 0 producer after := by
  intro view full freed
  have hbind : View.attach wrapping = .ok view := by decide +kernel
  have hidle : wrapping.head = wrapping.tail := by decide +kernel
  rcases write_all_or_nothing hbind hidle
    [.write [1, 2] 1, .write [3] 1, .finishWrite, .startRead, .pop, .finishRead] 1
    [4, 5, 6, 7, 8] with ⟨hclassified, hunchanged, -⟩
  rcases write_all_or_nothing hbind hidle
    [.write [1, 2] 1, .write [3] 1, .finishWrite, .startRead, .pop, .finishRead, .startWrite] 1
    [4, 5, 6, 7, 8] with ⟨-, -, happends⟩
  have hrefused := hclassified.noSpace_iff.mpr (by decide +kernel)
  have hwrite : freed.producer.write freed.region [4, 5, 6, 7, 8] 1 = .ok (0, _, _) :=
    View.write_eq_ok_iff.mpr ⟨by decide +kernel, by decide +kernel, rfl, rfl⟩
  exact ⟨hbind, hidle, hrefused, hunchanged _ hrefused, _, _, hwrite, (happends _ _ _ hwrite).1⟩

end Channel

end CacheMeter.Ring
