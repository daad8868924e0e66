import Mathlib
import CacheMeter.Proofs.Ring.Delivery

/-!
# Reading between the cursors

What lies between a consumer's cursors is published and not yet released; nothing else in the data
region is the consumer's to read.  A copy is held against the size that the header announces, and
the header is the producer's word.  So reads stay between the cursors exactly as far as the header
is honest about what is there.  The headers of a producer that keeps to the protocol are.

Main results:

- Theorem `View.copyPayload_eq_ok_iff`: when a copy succeeds, and with which bytes.
- Structure `View.Confined`: what is read lies between the cursors.
- Theorem `View.confined_iff_honest`: that is so exactly if the header is honest.
- Theorem `Channel.Sound.honest`: after any steps of both sides it is.
-/

namespace CacheMeter.Ring

namespace View

/-! ## Honest headers -/

/-- The header at the read cursor announces no more than what is between the cursors. -/
def Honest (view : View) (region : Region) : Prop :=
  view.isEmpty = true ∨ headerSize + view.announced region ≤ view.used

instance (view : View) (region : Region) : Decidable (view.Honest region) :=
  inferInstanceAs (Decidable (_ ∨ _))

/-- The bytes between the cursors. -/
def unread (view : View) (region : Region) : Bytes :=
  view.copyOut region 0 view.used

/-- Some bytes are those `offset` bytes after the read cursor, before the write cursor, and all
within one turn of the data region. -/
structure Inside (view : View) (region : Region) (offset : Nat) (bytes : Bytes) : Prop where
  le_used : offset + bytes.length ≤ view.used
  le_capacity : offset + bytes.length ≤ view.capacity
  eq_slice : bytes = ((view.unread region).drop offset).take bytes.length

/-- Whatever part of the current record is read, and the whole of it, lies between the cursors. -/
structure Confined (view : View) (region : Region) : Prop where
  copyPayload : ∀ count offset bytes, view.copyPayload region count offset = .ok bytes →
    bytes.length = count ∧ view.Inside region (headerSize + offset) bytes
  record : ∀ recordType payload, view.record? region = .ok (recordType, payload) →
    view.Inside region headerSize payload

variable {view : View} {region : Region}

/-- A copy succeeds exactly if there is a record and its header announces that much. -/
theorem copyPayload_eq_ok_iff {count offset : Nat} {bytes : Bytes} :
    view.copyPayload region count offset = .ok bytes ↔
      view.isEmpty = false ∧ offset + count ≤ view.announced region ∧
        bytes = view.copyOut region (headerSize + offset) count := by
  rcases Bool.eq_false_or_eq_true view.isEmpty with hempty | hfull
  · have hrefused : view.copyPayload region count offset = .error .empty := by
      rw [copyPayload, payloadSize_of_isEmpty hempty]
      rfl
    simp [hrefused, hempty]
  · rcases Nat.lt_or_ge (view.announced region) (offset + count) with hlt | hle
    · have hword := view.announced_lt region
      have hlt' : view.announced region < min (offset + count) maxWord := by
        simp only [UInt16.size, maxWord, UInt64.size] at *
        omega
      simp [copyPayload_of_lt hfull hlt', hlt]
    · simp [copyPayload_of_le hfull hle, hfull, hle, eq_comm]

/-- What is copied from within the unread bytes lies within them. -/
theorem inside_copyOut {offset count : Nat} (hcapacity : view.used ≤ view.capacity)
    (hle : offset + count ≤ view.used) :
    view.Inside region offset (view.copyOut region offset count) := by
  have hslice : view.copyOut region (0 + offset) count =
      ((view.unread region).drop offset).take count := copyOut_slice view region hle
  rw [Nat.zero_add] at hslice
  have hlength := length_copyOut view region offset count
  exact ⟨by omega, by omega, by rwa [hlength]⟩

/-- If the header is honest, all that can be read is unread. -/
theorem Honest.confined (h : view.Honest region) (hcapacity : view.used ≤ view.capacity) :
    view.Confined region where
  copyPayload count offset bytes hcopy := by
    obtain ⟨hfull, hannounced, rfl⟩ := copyPayload_eq_ok_iff.mp hcopy
    have hle := h.resolve_left (by simp [hfull])
    exact ⟨length_copyOut .., inside_copyOut hcapacity (by omega)⟩
  record recordType payload hrecord := by
    rcases Bool.eq_false_or_eq_true view.isEmpty with hempty | hfull
    · simp [record?_of_isEmpty hempty] at hrecord
    · have hle := h.resolve_left (by simp [hfull])
      rw [record?_of_full hfull] at hrecord
      obtain ⟨-, rfl⟩ : _ ∧ _ := by simpa using hrecord
      exact inside_copyOut hcapacity hle

/-- If the whole record lies between the cursors, the header is honest. -/
theorem Confined.honest (h : view.Confined region) : view.Honest region := by
  rcases Bool.eq_false_or_eq_true view.isEmpty with hempty | hfull
  · exact .inl hempty
  · have hle := (h.record _ _ (record?_of_full hfull)).le_used
    rw [length_copyOut] at hle
    exact .inr hle

end View

/-! ## Protocol -/

namespace Channel.Sound

variable {view : View} {channel : Channel}

/-- A consumer never sees more than the capacity. -/
theorem used_consumer_le (h : Sound view channel) :
    channel.consumer.used ≤ channel.consumer.capacity := by
  rcases h.ordered with ⟨hack, hrel, hpop, hvis, hpub, hroom⟩
  have hcapacity : channel.consumer.capacity = view.capacity := by rw [h.consumer]
  have hseen := position_mono channel.journal.written view.readPos.toNat (hvis.trans hpub)
  have hread := position_mono channel.journal.written view.readPos.toNat (hack.trans hrel)
  rw [h.used_consumer, hcapacity]
  omega

/-- The header at the consumer's cursor is that of a record that was published. -/
theorem honest (h : Sound view channel) : channel.consumer.Honest channel.region := by
  rcases Bool.eq_false_or_eq_true channel.consumer.isEmpty with hempty | hfull
  · exact .inl hempty
  · rcases h.unread hfull with ⟨record, -, hsize, hused⟩
    exact .inr (hsize.trans_le hused)

end Channel.Sound

namespace View

/-! ## Confinement -/

/-- Whatever the data region holds, reads stay between the cursors exactly if the header is honest;
and those of a consumer do after any steps of both sides of a ring that was idle when it was
bound. -/
theorem confined_iff_honest (view : View) (region : Region) :
    (view.used ≤ view.capacity → (view.Confined region ↔ view.Honest region)) ∧
      ∀ (memory : Region) (bound : View) (actions : List Action),
        View.attach memory = .ok bound → memory.head = memory.tail →
          ((Channel.opened memory bound).run actions).consumer = view →
          ((Channel.opened memory bound).run actions).region = region →
            view.used ≤ view.capacity ∧ view.Confined region := by
  refine ⟨fun hcapacity => ⟨Confined.honest, fun h => h.confined hcapacity⟩, ?_⟩
  rintro memory bound actions hbind hidle rfl rfl
  have hsound := (Channel.sound_opened hbind hidle).run actions
  exact ⟨hsound.used_consumer_le, hsound.honest.confined hsound.used_consumer_le⟩

/-- The only record of a ring is read from between the cursors, round the end of the data region,
until its header is made to announce the whole region. -/
theorem confined_iff_honest_wrapping :
    let view : View :=
      { dataStart := 1072
        capacity := 32
        readPos := 18446744073709551608
        writePos := 18446744073709551608 }
    let channel := (Channel.opened Channel.wrapping view).run
      [.write [1, 2, 3] 9, .finishWrite, .startRead]
    View.attach Channel.wrapping = .ok view ∧ Channel.wrapping.head = Channel.wrapping.tail ∧
      channel.consumer.used = 16 ∧ channel.consumer.Confined channel.region ∧
      ¬ channel.consumer.Confined (channel.region.store 1102 (Bytes.ofWord16 32)) := by
  intro view channel
  have hbind : View.attach Channel.wrapping = .ok view := by decide +kernel
  have hidle : Channel.wrapping.head = Channel.wrapping.tail := by decide +kernel
  rcases (confined_iff_honest channel.consumer channel.region).2 Channel.wrapping view
    [.write [1, 2, 3] 9, .finishWrite, .startRead] hbind hidle rfl rfl with
    ⟨hcapacity, hconfined⟩
  refine ⟨hbind, hidle, by decide +kernel, hconfined, ?_⟩
  rw [(confined_iff_honest _ _).1 hcapacity]
  decide +kernel

/-- One record of 24 bytes is published and another one written behind it; then the header of the
first is made to announce 40 bytes.  A copy of 32 bytes reaches into the second record. -/
theorem not_confined_overstated :
    let region := (Region.zeroed 1136 0 8 8).store Metadata.dataOffsetOffset (Bytes.ofWord64 1072)
    let view : View := { dataStart := 1072, capacity := 64, readPos := 0, writePos := 0 }
    let channel := (Channel.opened region view).run
      [.write [1, 2, 3, 4, 5, 6, 7, 8] 9, .finishWrite, .write [17, 18, 19, 20, 21, 22, 23, 24] 9,
        .startRead]
    let overstated := channel.region.store 1078 (Bytes.ofWord16 40)
    View.attach region = .ok view ∧ channel.consumer.used = 24 ∧
      channel.consumer.used ≤ channel.consumer.capacity ∧
      channel.consumer.copyPayload overstated 32 0 =
        .ok [12, 0, 0, 0, 1, 2, 3, 4, 5, 6, 7, 8, 0, 0, 0, 0,
          9, 0, 0, 0, 0, 0, 24, 0, 12, 0, 0, 0, 17, 18, 19, 20] ∧
      ¬ headerSize + 0 + 32 ≤ channel.consumer.used := by
  decide +kernel

end View

end CacheMeter.Ring
