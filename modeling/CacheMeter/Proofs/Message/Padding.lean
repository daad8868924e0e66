import Mathlib
import CacheMeter.Proofs.Merge.Interleaving
import CacheMeter.Proofs.Message.RoundTrip

/-!
# Padding

The size of a record counts the padding that rounds it up to a multiple of eight bytes, and so
does the size word of a sample.  The padding itself is not written, it is what the ring held
there before, and a reader cannot tell it from payload.  It matters exactly if the payload breaks
off in the middle of something that is read and the padding is long enough to complete it.

Main results:

- Definitions `Record.CutShort` and `Record.CutStamp`: the padding completes a message, or the
  timestamp by which the record is merged.
- Theorem `not_cutShort_iff`: the padding decides what a record tells exactly if it completes a
  message.
- Theorem `not_cutStamp_iff`: it decides the key exactly if it completes a timestamp.
-/

namespace CacheMeter

open Merge

/-! ## Padded records -/

namespace Ring.Record

/-- Bytes between the end of a record's payload and the next record. -/
def padding (recordType : UInt32) (payload : Bytes) : Nat :=
  size recordType payload - headerSize - wordSize recordType - payload.length

/-- What a reader takes for the payload: size word, payload and padding. -/
def padded (recordType : UInt32) (payload pad : Bytes) : Bytes :=
  sizeWord recordType payload ++ payload ++ pad

/-- The payload is the beginning of a message that padding is long enough to complete. -/
def CutShort (recordType : UInt32) (payload : Bytes) : Prop :=
  ∃ message : Message, message.recordType = recordType ∧ payload <+: message.encode ∧
    payload.length < message.encode.length ∧
    message.encode.length ≤ payload.length + padding recordType payload

/-- The payload of a sample is the beginning of a timestamp that padding is long enough to
complete. -/
def CutStamp (recordType : UInt32) (payload : Bytes) : Prop :=
  recordType = sampleRecordType ∧ payload.length < 8 ∧
    8 ≤ payload.length + padding recordType payload

/-- The timestamp is completed if all but one, two or three of its bytes are there. -/
theorem cutStamp_iff {recordType : UInt32} {payload : Bytes} :
    CutStamp recordType payload ↔
      recordType = sampleRecordType ∧ 5 ≤ payload.length ∧ payload.length < 8 := by
  refine and_congr_right fun hsample => ?_
  rw [padding, size, wordSize, if_pos hsample, align8, headerSize, sampleSizeWord]
  omega

/-- A record without padding is not cut short. -/
theorem not_cutShort_of_padding_eq_zero {recordType : UInt32} {payload : Bytes}
    (hnone : padding recordType payload = 0) : ¬ CutShort recordType payload := by
  rintro ⟨message, -, -, hlt, hle⟩
  omega

/-- No message takes less than sixteen bytes, so shorter records are not cut short. -/
theorem not_cutShort_of_lt {recordType : UInt32} {payload : Bytes}
    (hshort : payload.length + padding recordType payload < 16) :
    ¬ CutShort recordType payload := by
  rintro ⟨message, -, -, -, hle⟩
  have hmessage : 16 ≤ message.encode.length := by
    rw [Message.length_encode]
    cases message <;> simp [Message.SampleType.size, Message.lostNoticeSize]
  omega

theorem length_padded {recordType : UInt32} {payload pad : Bytes}
    (hpad : pad.length = padding recordType payload) :
    headerSize + (padded recordType payload pad).length = size recordType payload := by
  have hle := length_bytes_le recordType payload
  rw [length_bytes] at hle
  rw [padding] at hpad
  rw [padded, List.length_append, List.length_append, length_sizeWord, hpad]
  omega

end Ring.Record

open CacheMeter.Ring

/-! ## What a record tells -/

namespace Message

/-- The message that a record holds, if it holds one; why it holds none is left out. -/
def told (recordType : UInt32) (payload : Bytes) : Option Message :=
  (decodeRecord recordType payload).toOption

variable {recordType : UInt32} {payload pad pad' : Bytes} {message : Message}

theorem told_eq_some_iff :
    told recordType payload = some message ↔ decodeRecord recordType payload = .ok message := by
  unfold told
  cases decodeRecord recordType payload <;> simp [Except.toOption]

/-- A padded record tells the message that payload and padding begin with. -/
theorem told_padded_iff :
    told recordType (Record.padded recordType payload pad) = some message ↔
      message.recordType = recordType ∧ message.encode <+: payload ++ pad := by
  rw [told_eq_some_iff, Record.padded, List.append_assoc]
  by_cases hsample : recordType = sampleRecordType
  · subst hsample
    have hlength : (Record.sizeWord sampleRecordType payload).length = sampleSizeWord :=
      Record.length_sizeWord _ _
    rw [decodeRecord_sample_eq_ok_iff, List.drop_left' hlength, List.length_append, hlength]
    exact and_congr_right fun _ => and_iff_right (Nat.le_add_right _ _)
  · rw [Record.sizeWord, if_neg hsample, List.nil_append]
    by_cases hlost : recordType = lostRecordType
    · subst hlost
      rw [decodeRecord_lost, decodeLost_eq_ok_iff]
    · rw [decodeRecord_other hsample hlost]
      constructor
      · intro h
        cases h
      · rintro ⟨rfl, -⟩
        rcases message.recordType_cases with h | h
        · exact absurd h hsample
        · exact absurd h hlost

/-- What a record tells that is not cut short is in the payload. -/
theorem encode_prefix_of_told (hwhole : ¬ Record.CutShort recordType payload)
    (hpad : pad.length = Record.padding recordType payload)
    (htold : told recordType (Record.padded recordType payload pad) = some message) :
    message.encode <+: payload := by
  obtain ⟨htype, hprefix⟩ := told_padded_iff.mp htold
  rcases Nat.lt_or_ge payload.length message.encode.length with hlt | hge
  · have hle := hprefix.length_le
    rw [List.length_append, hpad] at hle
    refine absurd ⟨message, htype, ?_, hlt, hle⟩ hwhole
    exact List.prefix_of_prefix_length_le (List.prefix_append payload pad) hprefix hlt.le
  · exact List.prefix_of_prefix_length_le hprefix (List.prefix_append payload pad) hge

/-- A record that is not cut short tells what its payload tells. -/
theorem told_padded (hwhole : ¬ Record.CutShort recordType payload)
    (hpad : pad.length = Record.padding recordType payload) :
    told recordType (Record.padded recordType payload pad) =
      told recordType (Record.padded recordType payload []) := by
  refine Option.ext fun message => ?_
  constructor
  · intro htold
    rw [told_padded_iff, List.append_nil]
    exact ⟨(told_padded_iff.mp htold).1, encode_prefix_of_told hwhole hpad htold⟩
  · intro htold
    rw [told_padded_iff, List.append_nil] at htold
    exact told_padded_iff.mpr ⟨htold.1, htold.2.trans (List.prefix_append payload pad)⟩

/-- Padding decides what a record tells exactly if it completes a message. -/
theorem not_cutShort_iff :
    ¬ Record.CutShort recordType payload ↔
      ∀ pad pad' : Bytes, pad.length = Record.padding recordType payload →
        pad'.length = Record.padding recordType payload →
          told recordType (Record.padded recordType payload pad) =
            told recordType (Record.padded recordType payload pad') := by
  constructor
  · intro hwhole pad pad' hpad hpad'
    rw [told_padded hwhole hpad, told_padded hwhole hpad']
  · rintro hsame ⟨message, htype, ⟨tail, htail⟩, hlt, hle⟩
    rw [← htail, List.length_append] at hlt hle
    obtain ⟨byte, rest, rfl⟩ := List.exists_cons_of_length_pos (show 0 < tail.length by omega)
    -- One padding completes the message, the other one differs in its first byte.
    let pad := (byte :: rest) ++
      List.replicate (Record.padding recordType payload - (byte :: rest).length) 0
    let pad' := (byte + 1) :: List.replicate (Record.padding recordType payload - 1) 0
    have hpad : pad.length = Record.padding recordType payload := by
      simp only [pad, List.length_append, List.length_replicate]
      omega
    have hpad' : pad'.length = Record.padding recordType payload := by
      simp only [pad', List.length_cons, List.length_replicate]
      rw [List.length_cons] at hle
      omega
    have htold : told recordType (Record.padded recordType payload pad) = some message := by
      rw [told_padded_iff, ← htail, List.prefix_append_right_inj]
      exact ⟨htype, List.prefix_append _ _⟩
    rw [hsame pad pad' hpad hpad', told_padded_iff, ← htail, List.prefix_append_right_inj,
      List.cons_prefix_cons] at htold
    exact absurd htold.2.1 (by simp)

/-- A message that is written whole is not cut short. -/
theorem not_cutShort_encode (message : Message) :
    ¬ Record.CutShort message.recordType message.encode := by
  rintro ⟨other, htype, ⟨tail, htail⟩, hlt, -⟩
  have hself : told message.recordType (Record.padded message.recordType message.encode tail) =
      some message :=
    told_padded_iff.mpr ⟨rfl, List.prefix_append _ _⟩
  have hother : told message.recordType (Record.padded message.recordType message.encode tail) =
      some other := by
    rw [told_padded_iff, htail]
    exact ⟨htype, List.prefix_rfl⟩
  obtain rfl := Option.some.inj (hself.symm.trans hother)
  exact lt_irrefl _ hlt

end Message

/-! ## Keys -/

section Keys

variable {recordType : UInt32} {payload pad : Bytes}

/-- The key of a padded sample is read from what payload and padding begin with. -/
theorem keyTime_padded_sample (payload pad : Bytes) :
    keyTime sampleRecordType (Record.padded sampleRecordType payload pad) =
      if 8 ≤ (payload ++ pad).length then (payload ++ pad).word64At 0 else 0 := by
  have hlength : (Record.sizeWord sampleRecordType payload).length = sampleSizeWord :=
    Record.length_sizeWord _ _
  have hword : (Record.padded sampleRecordType payload pad).word64At sampleSizeWord =
      (payload ++ pad).word64At 0 := by
    rw [Record.padded, List.append_assoc, Bytes.word64At, Bytes.word64At, Bytes.field,
      Bytes.field, List.drop_left' hlength, List.drop_zero]
  have hlong : sampleSizeWord + 8 ≤ (Record.padded sampleRecordType payload pad).length ↔
      8 ≤ (payload ++ pad).length := by
    rw [Record.padded, List.append_assoc, List.length_append, hlength]
    omega
  simp only [keyTime, true_and, hword, hlong]

theorem keyTime_of_ne (hsample : recordType ≠ sampleRecordType) (payload : Bytes) :
    keyTime recordType payload = 0 :=
  if_neg fun h => hsample h.1

/-- A record whose timestamp is not cut is keyed by its payload. -/
theorem keyTime_padded (hwhole : ¬ Record.CutStamp recordType payload)
    (hpad : pad.length = Record.padding recordType payload) :
    keyTime recordType (Record.padded recordType payload pad) =
      keyTime recordType (Record.padded recordType payload []) := by
  by_cases hsample : recordType = sampleRecordType
  · subst hsample
    rw [keyTime_padded_sample, keyTime_padded_sample, List.append_nil, List.length_append, hpad]
    rcases Nat.lt_or_ge payload.length 8 with hshort | hlong
    · have hstill : ¬ 8 ≤ payload.length + Record.padding sampleRecordType payload :=
        fun hle => hwhole ⟨rfl, hshort, hle⟩
      rw [if_neg hstill, if_neg (Nat.not_le.mpr hshort)]
    · rw [if_pos (Nat.le_add_right_of_le hlong), if_pos hlong, Bytes.word64At, Bytes.word64At,
        Bytes.field, Bytes.field, List.drop_zero, List.drop_zero,
        List.take_append_of_le_length hlong]
  · rw [keyTime_of_ne hsample, keyTime_of_ne hsample]

/-- A short sample whose timestamp is not cut is keyed zero. -/
theorem keyTime_padded_of_short (hwhole : ¬ Record.CutStamp sampleRecordType payload)
    (hpad : pad.length = Record.padding sampleRecordType payload) (hshort : payload.length < 8) :
    keyTime sampleRecordType (Record.padded sampleRecordType payload pad) = 0 := by
  rw [keyTime_padded hwhole hpad, keyTime_padded_sample, List.append_nil,
    if_neg (Nat.not_le.mpr hshort)]

/-- Padding decides the key exactly if it completes a timestamp. -/
theorem not_cutStamp_iff :
    ¬ Record.CutStamp recordType payload ↔
      ∀ pad pad' : Bytes, pad.length = Record.padding recordType payload →
        pad'.length = Record.padding recordType payload →
          keyTime recordType (Record.padded recordType payload pad) =
            keyTime recordType (Record.padded recordType payload pad') := by
  constructor
  · intro hwhole pad pad' hpad hpad'
    rw [keyTime_padded hwhole hpad, keyTime_padded hwhole hpad']
  · rintro hsame ⟨rfl, hshort, hlong⟩
    let zeroes := List.replicate (Record.padding sampleRecordType payload) (0 : UInt8)
    let ones := List.replicate (Record.padding sampleRecordType payload) (1 : UInt8)
    have hkey := hsame zeroes ones List.length_replicate List.length_replicate
    have hlength : 8 ≤ (payload ++ zeroes).length := by simpa [zeroes] using hlong
    have hlength' : 8 ≤ (payload ++ ones).length := by simpa [ones] using hlong
    rw [keyTime_padded_sample, keyTime_padded_sample, if_pos hlength, if_pos hlength'] at hkey
    -- Both begin with the bytes of the same word, which go past the payload.
    have hfirst : Bytes.ofWord64 ((payload ++ zeroes).word64At 0) <+: (payload ++ zeroes).drop 0 :=
      Bytes.ofWord64_prefix_iff.mpr ⟨by simpa using hlength, rfl⟩
    have hsecond : Bytes.ofWord64 ((payload ++ zeroes).word64At 0) <+: (payload ++ ones).drop 0 :=
      Bytes.ofWord64_prefix_iff.mpr ⟨by simpa using hlength', hkey.symm⟩
    rw [List.drop_zero, List.prefix_iff_eq_take, Bytes.length_ofWord64] at hfirst hsecond
    have htake := congrArg (fun bytes => bytes[payload.length]?) (hfirst.symm.trans hsecond)
    have hpos : 0 < Record.padding sampleRecordType payload := by omega
    simp [zeroes, ones, hshort, hpos] at htake

end Keys

end CacheMeter
