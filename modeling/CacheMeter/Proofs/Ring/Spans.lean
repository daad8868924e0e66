import Mathlib
import CacheMeter.Proofs.Ring.Addressing

/-!
# Spans of the data region

A span is a run of bytes that starts at an unwrapped position; where it crosses the
end of the data region it goes on at the beginning.

Main results:

- Theorems `View.span_scatter_self` and `View.span_scatter_of_held`: a write fills
  its own span and leaves a span alone that lies less than a capacity before it.
- Theorem `View.copyOut_eq_span`: what a consumer copies out is a span.
- Theorem `View.write_eq_ok_iff`: when a record is written, and what that changes.
- Theorem `View.reads_of_span`: a view in front of a written record reads back what
  was written.
-/

namespace CacheMeter.Ring

namespace View

/-- The `count` bytes from an unwrapped position on. -/
def span (view : View) (region : Region) (position count : Nat) : Bytes :=
  gather region.cells (fun i => view.dataStart + (position + i) % view.capacity) count

/-- A span is as long as asked for. -/
@[simp]
theorem length_span (view : View) (region : Region) (position count : Nat) :
    (view.span region position count).length = count := by
  simp [span]

/-- A span is cut anywhere into two. -/
theorem span_add (view : View) (region : Region) (position m n : Nat) :
    view.span region position (m + n) =
      view.span region position m ++ view.span region (position + m) n := by
  apply List.ext_getElem (by simp)
  intro i h₁ h₂
  by_cases hi : i < m
  · rw [List.getElem_append_left (by simpa using hi)]
    simp [span]
  · rw [List.getElem_append_right (by simpa using hi)]
    have hsum : position + i = position + m + (i - m) := by omega
    simp [span, hsum]

/-- A span depends on its cells only. -/
theorem span_congr {view : View} {region region' : Region} {position count : Nat}
    (h : ∀ i < count,
      region.cells.get (view.dataStart + (position + i) % view.capacity) =
        region'.cells.get (view.dataStart + (position + i) % view.capacity)) :
    view.span region position count = view.span region' position count :=
  gather_congr h

/-! ## Writing into a span -/

/-- Bytes no longer than the capacity fill the span they are written to. -/
theorem span_scatter_self {view : View} {region : Region} {bytes : Bytes}
    (hdvd : view.capacity ∣ UInt64.size) {position : Nat}
    (hle : bytes.length ≤ view.capacity) :
    view.span { region with
      cells := scatter (view.place (UInt64.ofNat position)) 0 bytes region.cells }
        position bytes.length = bytes := by
  apply List.ext_getElem (by simp)
  intro i h₁ h₂
  have hdistinct : ∀ k l, k < l → l < bytes.length →
      view.place (UInt64.ofNat position) (0 + k) ≠
        view.place (UInt64.ofNat position) (0 + l) := by
    intro k l hkl hl
    simp only [place_ofNat view hdvd, Nat.zero_add]
    have hne : (position + k) % view.capacity ≠ (position + l) % view.capacity :=
      mod_ne_mod_of_lt (by omega) (by omega)
    omega
  have hread := get_scatter _ 0 region.cells hdistinct h₂
  rw [Nat.zero_add, place_ofNat view hdvd] at hread
  simpa [span] using hread

/-- A write leaves a span alone that ends before it and begins less than a capacity
before its end. -/
theorem span_scatter_of_held {view : View} {region : Region} {bytes : Bytes}
    (hdvd : view.capacity ∣ UInt64.size) {position held count : Nat}
    (hbefore : held + count ≤ position)
    (hroom : position + bytes.length ≤ held + view.capacity) :
    view.span { region with
      cells := scatter (view.place (UInt64.ofNat position)) 0 bytes region.cells }
        held count = view.span region held count := by
  apply span_congr
  intro i hi
  apply get_scatter_of_ne
  intro k hk
  rw [place_ofNat view hdvd, Nat.zero_add]
  have hne : (held + i) % view.capacity ≠ (position + k) % view.capacity :=
    mod_ne_mod_of_lt (by omega) (by omega)
  omega

/-! ## Reading a span -/

/-- So is what is copied out. -/
@[simp]
theorem length_copyOut (view : View) (region : Region) (offset count : Nat) :
    (view.copyOut region offset count).length = count := by
  simp [copyOut]

/-- A part of what is copied out is copied out by itself. -/
theorem copyOut_slice (view : View) (region : Region) {start total count offset : Nat}
    (hle : offset + count ≤ total) :
    view.copyOut region (start + offset) count =
      ((view.copyOut region start total).drop offset).take count := by
  refine List.ext_getElem ?_ ?_
  · rw [List.length_take, List.length_drop, length_copyOut, length_copyOut]
    omega
  · intro i h₁ h₂
    simp [copyOut, Nat.add_assoc]

/-- What is copied out at a wrapped position is a span. -/
theorem copyOut_eq_span {view : View} (hdvd : view.capacity ∣ UInt64.size) {position : Nat}
    (hread : view.readPos = UInt64.ofNat position) (region : Region) (offset count : Nat) :
    view.copyOut region offset count = view.span region (position + offset) count := by
  apply gather_congr
  intro i _
  rw [hread, place_ofNat view hdvd, Nat.add_assoc]

end View

/-! ## Writing a record -/

namespace Record

/-- A record is at least as long as its header. -/
theorem headerSize_le_size (recordType : UInt32) (payload : Bytes) :
    headerSize ≤ size recordType payload := by
  unfold size align8 headerSize
  omega

/-- Its size is a multiple of eight. -/
theorem size_mod_eight (recordType : UInt32) (payload : Bytes) :
    size recordType payload % 8 = 0 := by
  unfold size align8
  omega

/-- A header has its fixed size. -/
@[simp]
theorem length_header_encode (recordType : UInt32) (payload : Bytes) :
    (header recordType payload).encode.length = headerSize := by
  simp [Header.encode, headerSize]

/-- A size word is there or not, as the type of the record wants. -/
@[simp]
theorem length_sizeWord (recordType : UInt32) (payload : Bytes) :
    (sizeWord recordType payload).length = wordSize recordType := by
  unfold sizeWord wordSize
  split <;> simp

/-- A written record as it is read back: its type, and a payload of the announced size
that holds the size word of a sample, the bytes written, and padding. -/
def ReadsBack (record : UInt32 × Bytes) (seen : Except Refusal (UInt32 × Bytes)) : Prop :=
  ∃ padding : Bytes,
    seen = .ok (record.1, sizeWord record.1 record.2 ++ record.2 ++ padding) ∧
      (sizeWord record.1 record.2 ++ record.2 ++ padding).length =
        size record.1 record.2 - headerSize

end Record

namespace View

/-- A record is written exactly if it has a payload, can fit at all and fits now. -/
theorem write_eq_ok_iff {view view' : View} {region region' : Region} {payload : Bytes}
    {recordType : UInt32} {offset : Nat} :
    view.write region payload recordType = .ok (offset, view', region') ↔
      (payload ≠ [] ∧ Record.size recordType payload ≤ view.capacity ∧
        Record.size recordType payload < UInt16.size ∧
        view.used + Record.size recordType payload ≤ view.capacity) ∧
      offset =
        (view.writePos.toNat + headerSize + Record.wordSize recordType) % view.capacity ∧
      view' =
        { view with
          writePos := view.writePos + UInt64.ofNat (Record.size recordType payload) } ∧
      region' =
        { region with
          cells := scatter (view.place view.writePos) 0 (Record.bytes recordType payload)
            region.cells } := by
  unfold write
  dsimp only
  constructor
  · intro h
    split_ifs at h with hnil hfit hroom
    simp only [Except.ok.injEq, Prod.mk.injEq] at h
    rcases h with ⟨rfl, rfl, rfl⟩
    simp only [Bool.or_eq_true, decide_eq_true_eq, not_or, Nat.not_lt, Nat.not_le]
      at hfit hroom
    exact ⟨⟨hnil, hfit.1, hfit.2, hroom⟩, rfl, rfl, rfl⟩
  · rintro ⟨⟨hnil, hfit, hsize, hroom⟩, rfl, rfl, rfl⟩
    rw [if_neg hnil, if_neg, if_neg (Nat.not_lt.mpr hroom)]
    simp only [Bool.or_eq_true, decide_eq_true_eq, not_or, Nat.not_lt, Nat.not_le]
    exact ⟨hfit, hsize⟩

/-! ## Reading any record

A view that is not empty reads something whatever the bytes at its cursor are: the
header announces at most a 16-bit size, so no read of the whole payload is refused. -/

variable {view : View} {region : Region}

/-- A ring is not empty if its cursors differ. -/
theorem isEmpty_eq_false_iff : view.isEmpty = false ↔ view.readPos ≠ view.writePos := by
  simp [isEmpty]

/-- The header at the read cursor of a ring that is not empty is read. -/
theorem header?_of_full (hfull : view.isEmpty = false) :
    view.header? region = .ok (view.rawHeader region) := by
  simp [header?, hfull]

/-- The payload size that the header announces. -/
def announced (view : View) (region : Region) : Nat :=
  (view.rawHeader region).size.toNat - headerSize

/-- The size that it announces is that of the payload. -/
theorem payloadSize_of_full (hfull : view.isEmpty = false) :
    view.payloadSize region = .ok (view.announced region) := by
  rw [payloadSize, header?_of_full hfull]
  rfl

/-- An empty ring announces nothing. -/
theorem payloadSize_of_isEmpty (hempty : view.isEmpty = true) :
    view.payloadSize region = .error .empty := by
  simp [payloadSize, header?, hempty, Except.map]

/-- A header announces fewer bytes than a word of 16 bits can count. -/
theorem announced_lt (view : View) (region : Region) : view.announced region < UInt16.size := by
  have hlt := (view.rawHeader region).size.toNat_lt
  unfold announced
  simp only [UInt16.size]
  omega

/-- A copy that stays within the payload announced is not refused. -/
theorem copyPayload_of_le (hfull : view.isEmpty = false) {count offset : Nat}
    (hle : offset + count ≤ view.announced region) :
    view.copyPayload region count offset =
      .ok (view.copyOut region (headerSize + offset) count) := by
  have hlt := view.announced_lt region
  have hword : min (offset + count) maxWord = offset + count := by
    simp only [UInt16.size, maxWord, UInt64.size] at *
    omega
  rw [copyPayload, payloadSize_of_full hfull]
  change (if view.announced region < min (offset + count) maxWord then _ else _) = _
  rw [hword, if_neg (by omega)]
  rfl

/-- A copy that goes past the payload announced is refused. -/
theorem copyPayload_of_lt (hfull : view.isEmpty = false) {count offset : Nat}
    (hlt : view.announced region < min (offset + count) maxWord) :
    view.copyPayload region count offset =
      .error (.sizeExceeded (min (offset + count) maxWord) (view.announced region)) := by
  rw [copyPayload, payloadSize_of_full hfull]
  change (if view.announced region < min (offset + count) maxWord then _ else _) = _
  rw [if_pos hlt]

/-- The whole payload announced is always read. -/
theorem record?_of_full (hfull : view.isEmpty = false) :
    view.record? region =
      .ok (view.recordType region,
        view.copyOut region headerSize (view.announced region)) := by
  rw [record?, payloadSize_of_full hfull]
  change (view.copyPayload region (view.announced region) 0 >>= fun payload =>
    Except.ok (view.recordType region, payload)) = _
  rw [copyPayload_of_le hfull (by omega)]
  rfl

/-- Of an empty ring no record is read. -/
theorem record?_of_isEmpty (hempty : view.isEmpty = true) :
    view.record? region = .error .empty := by
  rw [record?, payloadSize_of_isEmpty hempty]
  rfl

/-- A pop of a ring that is not empty passes its next record. -/
theorem pop_of_full (hfull : view.isEmpty = false) :
    view.pop region =
      .ok { view with
        readPos := view.readPos +
          UInt64.ofNat (stride (view.rawHeader region).size.toNat view.used) } := by
  rw [pop, header?_of_full hfull]
  rfl

/-! ## Reading a written record -/

/-- What a view in front of a written record makes of it. -/
structure Reads (view : View) (region : Region) (record : UInt32 × Bytes) : Prop where
  recordType : view.recordType region = record.1
  payloadSize :
    view.payloadSize region = .ok (Record.size record.1 record.2 - headerSize)
  readsBack : Record.ReadsBack record (view.record? region)
  copyPayload : ∀ count offset,
    offset + count ≤ Record.size record.1 record.2 - headerSize →
      view.copyPayload region count offset =
        (view.record? region).map fun seen => (seen.2.drop offset).take count
  pop :
    view.pop region =
      .ok { view with
        readPos := view.readPos + UInt64.ofNat (Record.size record.1 record.2) }

/-- A view in front of a written record reads back what was written, and moves past
the whole of it. -/
theorem reads_of_span {view : View} {region : Region} {record : UInt32 × Bytes}
    (hdvd : view.capacity ∣ UInt64.size) {position : Nat}
    (hread : view.readPos = UInt64.ofNat position) (hfull : view.isEmpty = false)
    (hsize : Record.size record.1 record.2 < UInt16.size)
    (hused : Record.size record.1 record.2 ≤ view.used)
    (hspan : view.span region position (Record.bytes record.1 record.2).length =
      Record.bytes record.1 record.2) :
    view.Reads region record := by
  rcases record with ⟨recordType, payload⟩
  dsimp only at hsize hused hspan
  -- The record's span splits into header, body and what was left of the padding.
  have hlength := Record.length_bytes recordType payload
  have hle := Record.length_bytes_le recordType payload
  have hmin := Record.headerSize_le_size recordType payload
  have hparts : view.span region position headerSize =
        (Record.header recordType payload).encode ∧
      view.span region (position + headerSize)
          (Record.wordSize recordType + payload.length) =
        Record.sizeWord recordType payload ++ payload := by
    rw [hlength, Nat.add_assoc, span_add, Record.bytes, List.append_assoc] at hspan
    exact List.append_inj hspan (by simp)
  have hraw : view.rawHeader region = Record.header recordType payload := by
    rw [rawHeader, copyOut_eq_span hdvd hread, Nat.add_zero, hparts.1]
    simpa using Header.decode_encode (Record.header recordType payload) []
  have hannounced : (view.rawHeader region).size.toNat = Record.size recordType payload := by
    rw [hraw]
    exact UInt16.toNat_ofNat_of_lt' hsize
  have htype : view.recordType region = recordType := by
    rw [View.recordType, hraw, Record.header]
  refine ⟨htype, ?_, ?_, ?_, ?_⟩
  · rw [payloadSize_of_full hfull, announced, hannounced]
  · -- Past the body there is padding up to the announced size.
    let body := Record.wordSize recordType + payload.length
    let rest := Record.size recordType payload - headerSize - body
    have hsplit : Record.size recordType payload - headerSize = body + rest := by omega
    refine ⟨view.span region (position + headerSize + body) rest, ?_, ?_⟩
    · rw [record?_of_full hfull, htype, copyOut_eq_span hdvd hread, announced, hannounced,
        hsplit, span_add, hparts.2]
    · simp only [List.length_append, Record.length_sizeWord, length_span]
      omega
  · intro count offset hle
    dsimp only at hle
    rw [← hannounced, ← announced] at hle
    rw [copyPayload_of_le hfull hle, record?_of_full hfull, copyOut_slice view region hle]
    rfl
  · have hmod := Record.size_mod_eight recordType payload
    have hstride : stride (Record.size recordType payload) view.used =
        Record.size recordType payload := by
      unfold stride align8
      omega
    rw [pop_of_full hfull, hannounced, hstride]

end View

end CacheMeter.Ring
