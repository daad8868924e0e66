import Mathlib
import CacheMeter.Message.Wire
import CacheMeter.Proofs.Ring.Delivery

/-!
# What is read is what was written

Reading a message and writing it are two sides of one layout: a message is read exactly
from the bytes that begin with its written form, whatever follows.  Any other bytes have
exactly one fault, the first one met in the order in which the format is read.

Main results:

- Theorems `Bytes.ofWord32_prefix_iff` and `Bytes.ofWord64_prefix_iff`: a word stands where
  it is read.
- Theorem `Message.decodeSample_eq_ok_iff`: samples are read from what begins with them.
- Inductive `Message.RecordFault`: what can be wrong with a record.
- Theorem `Message.format_round_trip`: both sides agree on every record, and on every message that
  comes out of a ring.
-/

namespace CacheMeter

namespace Bytes

/-! ## Words in place -/

variable {data bytes : Bytes} {offset width n : Nat}

/-- Bytes make a number below the next power of 256. -/
theorem ofLittleEndian_lt (bytes : Bytes) : ofLittleEndian bytes < 256 ^ bytes.length := by
  induction bytes with
  | nil => simp [ofLittleEndian]
  | cons byte rest ih =>
    have hbyte := byte.toNat_lt
    rw [ofLittleEndian, List.length_cons, Nat.pow_succ]
    omega

/-- A field that lies within the bytes has its full width. -/
theorem length_field (h : offset + width ≤ data.length) :
    (data.field offset width).length = width := by
  rw [field, List.length_take, List.length_drop]
  omega

/-- Bytes stand at an offset exactly if they fill the field there. -/
theorem prefix_drop_iff (hpos : 0 < bytes.length) :
    bytes <+: data.drop offset ↔
      offset + bytes.length ≤ data.length ∧ data.field offset bytes.length = bytes := by
  rw [List.prefix_iff_eq_take, field]
  constructor
  · intro h
    have hlength := congrArg List.length h
    rw [List.length_take, List.length_drop] at hlength
    exact ⟨by omega, h.symm⟩
  · rintro ⟨-, h⟩
    exact h.symm

/-- Two pieces stand at an offset exactly if the second one follows the first. -/
theorem append_prefix_drop_iff {first second : Bytes} :
    first ++ second <+: data.drop offset ↔
      first <+: data.drop offset ∧ second <+: data.drop (offset + first.length) := by
  rw [← List.drop_drop]
  constructor
  · rintro ⟨rest, h⟩
    rw [← h, List.append_assoc, List.drop_left]
    exact ⟨List.prefix_append _ _, List.prefix_append _ _⟩
  · rintro ⟨⟨rest, h⟩, hsecond⟩
    rw [← h, List.drop_left] at hsecond
    rw [← h]
    exact (List.prefix_append_right_inj first).mpr hsecond

/-- A number stands at an offset exactly if it is what is read there. -/
theorem littleEndian_prefix_iff (hwidth : 0 < width) (hn : n < 256 ^ width) :
    littleEndian width n <+: data.drop offset ↔
      offset + width ≤ data.length ∧ ofLittleEndian (data.field offset width) = n := by
  have hback : ofLittleEndian (littleEndian width n) = n := by
    rw [ofLittleEndian_littleEndian]
    exact Nat.mod_eq_of_lt hn
  have hlength := length_littleEndian width n
  rw [prefix_drop_iff (by rwa [hlength]), hlength]
  refine and_congr_right fun hle => ?_
  constructor
  · intro h
    rw [h, hback]
  · rintro rfl
    have hsame := littleEndian_ofLittleEndian (data.field offset width)
    rw [length_field hle] at hsame
    exact hsame.symm

/-- Bytes go on with a word of 32 bits if there are four that make it. -/
theorem ofWord32_prefix_iff {word : UInt32} :
    ofWord32 word <+: data.drop offset ↔
      offset + 4 ≤ data.length ∧ data.word32At offset = word := by
  rw [ofWord32, littleEndian_prefix_iff (by decide) word.toNat_lt, word32At]
  refine and_congr_right fun hle => ?_
  have hlt := ofLittleEndian_lt (data.field offset 4)
  rw [length_field hle] at hlt
  have hword : (UInt32.ofNat (ofLittleEndian (data.field offset 4))).toNat =
      ofLittleEndian (data.field offset 4) := UInt32.toNat_ofNat_of_lt' hlt
  rw [← UInt32.toNat_inj, hword]

/-- They go on with one of 64 bits if there are eight. -/
theorem ofWord64_prefix_iff {word : UInt64} :
    ofWord64 word <+: data.drop offset ↔
      offset + 8 ≤ data.length ∧ data.word64At offset = word := by
  rw [ofWord64, littleEndian_prefix_iff (by decide) word.toNat_lt, word64At]
  refine and_congr_right fun hle => ?_
  have hlt := ofLittleEndian_lt (data.field offset 8)
  rw [length_field hle] at hlt
  have hword : (UInt64.ofNat (ofLittleEndian (data.field offset 8))).toNat =
      ofLittleEndian (data.field offset 8) := UInt64.toNat_ofNat_of_lt' hlt
  rw [← UInt64.toNat_inj, hword]

end Bytes

/-- A name stands at an offset exactly if it is what is read there. -/
theorem CommandName.prefix_iff {data : Bytes} {offset : Nat} {name : CommandName} :
    name.toList <+: data.drop offset ↔
      offset + 16 ≤ data.length ∧ CommandName.ofBytes (data.field offset 16) = name := by
  have hlength : name.toList.length = 16 := name.length_toList
  rw [Bytes.prefix_drop_iff (by rw [hlength]; decide), hlength]
  refine and_congr_right fun hle => ?_
  have hfield := Bytes.length_field hle
  generalize data.field offset 16 = bytes at hfield
  rw [← Vector.toList_inj]
  have hofBytes : (CommandName.ofBytes bytes).toList = bytes := by
    apply List.ext_getElem
    · rw [Vector.length_toList, hfield]
    · intro i hi hi'
      simp [CommandName.ofBytes, hi']
  rw [hofBytes]

namespace Message

open Bytes

/-! ## Samples -/

variable {data payload : Bytes} {message : Message}

/-- Bytes begin with a measurement if they are long enough, say so and read back as it. -/
theorem encodeMeasurement_prefix_iff {m : Measurement} :
    encodeMeasurement m <+: data ↔
      data.word32At 8 = SampleType.performance.code ∧
        SampleType.performance.size ≤ data.length ∧
        readBody .performance data = .measurement m := by
  rcases m with ⟨entity, cycles, instructions, cacheMisses, endTime, duration⟩
  conv_lhs => rw [← List.drop_zero (l := data), encodeMeasurement]
  simp only [append_prefix_drop_iff, ofWord32_prefix_iff, ofWord64_prefix_iff,
    List.length_append, length_ofWord32, length_ofWord64, Nat.zero_add, Nat.reduceAdd,
    SampleType.size, readBody, Message.measurement.injEq, Measurement.mk.injEq]
  constructor
  · rintro ⟨⟨⟨⟨⟨⟨⟨-, htime⟩, -, hcode⟩, -, hentity⟩, -, hcycles⟩, -, hinstructions⟩,
      -, hmisses⟩, hlength, hduration⟩
    exact ⟨hcode, hlength, hentity, hcycles, hinstructions, hmisses, htime, hduration⟩
  · rintro ⟨hcode, hlength, hentity, hcycles, hinstructions, hmisses, htime, hduration⟩
    exact ⟨⟨⟨⟨⟨⟨⟨by omega, htime⟩, by omega, hcode⟩, by omega, hentity⟩, by omega, hcycles⟩,
      by omega, hinstructions⟩, by omega, hmisses⟩, hlength, hduration⟩

/-- The same for an allocation. -/
theorem encodeRmidAlloc_prefix_iff {update : RmidAlloc} :
    encodeRmidAlloc update <+: data ↔
      data.word32At 8 = SampleType.rmidAlloc.code ∧
        SampleType.rmidAlloc.size ≤ data.length ∧
        readBody .rmidAlloc data = .rmidAlloc update := by
  rcases update with ⟨timestamp, rmid, command, processGroup⟩
  conv_lhs => rw [← List.drop_zero (l := data), encodeRmidAlloc]
  simp only [append_prefix_drop_iff, ofWord32_prefix_iff, ofWord64_prefix_iff,
    CommandName.prefix_iff, List.length_append, length_ofWord32, length_ofWord64,
    Vector.length_toList, Nat.zero_add, Nat.reduceAdd, SampleType.size, readBody,
    Message.rmidAlloc.injEq, RmidAlloc.mk.injEq]
  constructor
  · rintro ⟨⟨⟨⟨⟨-, htime⟩, -, hcode⟩, -, hrmid⟩, -, hcommand⟩, hlength, hgroup⟩
    exact ⟨hcode, hlength, htime, hrmid, hcommand, hgroup⟩
  · rintro ⟨hcode, hlength, htime, hrmid, hcommand, hgroup⟩
    exact ⟨⟨⟨⟨⟨by omega, htime⟩, by omega, hcode⟩, by omega, hrmid⟩, by omega, hcommand⟩,
      hlength, hgroup⟩

/-- The same for a release. -/
theorem encodeRmidFree_prefix_iff {update : RmidFree} :
    encodeRmidFree update <+: data ↔
      data.word32At 8 = SampleType.rmidFree.code ∧
        SampleType.rmidFree.size ≤ data.length ∧
        readBody .rmidFree data = .rmidFree update := by
  rcases update with ⟨timestamp, rmid⟩
  conv_lhs => rw [← List.drop_zero (l := data), encodeRmidFree]
  simp only [append_prefix_drop_iff, ofWord32_prefix_iff, ofWord64_prefix_iff,
    List.length_append, length_ofWord32, length_ofWord64, Nat.zero_add, Nat.reduceAdd,
    SampleType.size, readBody, Message.rmidFree.injEq, RmidFree.mk.injEq]
  constructor
  · rintro ⟨⟨⟨-, htime⟩, -, hcode⟩, hlength, hrmid⟩
    exact ⟨hcode, hlength, htime, hrmid⟩
  · rintro ⟨hcode, hlength, htime, hrmid⟩
    exact ⟨⟨⟨by omega, htime⟩, by omega, hcode⟩, hlength, hrmid⟩

/-- They begin with a lost notice if they are long enough and read back as it. -/
theorem encodeLostNotice_prefix_iff {notice : LostNotice} :
    encodeLostNotice notice <+: data ↔
      lostNoticeSize ≤ data.length ∧
        LostNotice.mk (data.word64At 0) (data.word64At 8) = notice := by
  rcases notice with ⟨id, lost⟩
  conv_lhs => rw [← List.drop_zero (l := data), encodeLostNotice]
  simp only [append_prefix_drop_iff, ofWord64_prefix_iff, length_ofWord64, Nat.zero_add,
    Nat.reduceAdd, lostNoticeSize, LostNotice.mk.injEq]
  constructor
  · rintro ⟨⟨-, hid⟩, hlength, hlost⟩
    exact ⟨hlength, hid, hlost⟩
  · rintro ⟨hlength, hid, hlost⟩
    exact ⟨⟨by omega, hid⟩, hlength, hlost⟩

/-- The header of a sample fits every sample. -/
theorem SampleType.headerSize_le (sample : SampleType) : headerSize ≤ sample.size := by
  cases sample <;> decide

/-- A code stands for the one kind of sample that has it. -/
theorem SampleType.ofCode?_eq_some_iff {code : UInt32} {sample : SampleType} :
    SampleType.ofCode? code = some sample ↔ code = sample.code := by
  constructor
  · intro h
    unfold ofCode? at h
    split_ifs at h with hperformance hrmidAlloc hrmidFree
    · obtain rfl : SampleType.performance = sample := by simpa using h
      exact hperformance
    · obtain rfl : SampleType.rmidAlloc = sample := by simpa using h
      exact hrmidAlloc
    · obtain rfl : SampleType.rmidFree = sample := by simpa using h
      exact hrmidFree
  · rintro rfl
    exact ofCode?_code sample

/-- Bytes begin with a sample exactly if its header announces it, no byte is missing, and
the body reads as it. -/
theorem encode_prefix_iff :
    message.recordType = sampleRecordType ∧ message.encode <+: data ↔
      ∃ sample : SampleType, data.word32At 8 = sample.code ∧ sample.size ≤ data.length ∧
        readBody sample data = message := by
  constructor
  · rintro ⟨htype, hencode⟩
    cases message with
    | measurement m => exact ⟨.performance, encodeMeasurement_prefix_iff.mp hencode⟩
    | rmidAlloc update => exact ⟨.rmidAlloc, encodeRmidAlloc_prefix_iff.mp hencode⟩
    | rmidFree update => exact ⟨.rmidFree, encodeRmidFree_prefix_iff.mp hencode⟩
    | lost notice => simp [recordType, lostRecordType, sampleRecordType] at htype
  · rintro ⟨sample, hcode, hlength, rfl⟩
    cases sample with
    | performance => exact ⟨rfl, encodeMeasurement_prefix_iff.mpr ⟨hcode, hlength, rfl⟩⟩
    | rmidAlloc => exact ⟨rfl, encodeRmidAlloc_prefix_iff.mpr ⟨hcode, hlength, rfl⟩⟩
    | rmidFree => exact ⟨rfl, encodeRmidFree_prefix_iff.mpr ⟨hcode, hlength, rfl⟩⟩

/-! ## Reading a sample -/

/-- Bytes that are too few are refused. -/
theorem requireLength_of_lt {need : Nat} {what : String} (h : data.length < need) :
    requireLength data need what = .error (.truncated what data.length need) :=
  if_pos h

/-- Bytes that suffice are not. -/
theorem requireLength_of_le {need : Nat} {what : String} (h : need ≤ data.length) :
    requireLength data need what = .ok () :=
  if_neg (Nat.not_lt.mpr h)

/-- Without a whole header a sample is truncated. -/
theorem decodeSample_of_lt (h : data.length < headerSize) :
    decodeSample data = .error (.truncated "message header" data.length headerSize) := by
  rw [decodeSample, requireLength_of_lt h]
  rfl

/-- With a code that no kind has it is unknown. -/
theorem decodeSample_of_unknown (h : headerSize ≤ data.length)
    (hunknown : ∀ sample : SampleType, data.word32At 8 ≠ sample.code) :
    decodeSample data = .error (.unknownType (data.word32At 8)) := by
  have hnone : SampleType.ofCode? (data.word32At 8) = none := by
    rw [Option.eq_none_iff_forall_ne_some]
    exact fun sample hsome => hunknown sample (SampleType.ofCode?_eq_some_iff.mp hsome)
  rw [decodeSample, requireLength_of_le h, hnone]
  rfl

/-- Without a whole body it is truncated. -/
theorem decodeSample_of_short {sample : SampleType} (h : headerSize ≤ data.length)
    (hcode : data.word32At 8 = sample.code) (hshort : data.length < sample.size) :
    decodeSample data = .error (.truncated sample.label data.length sample.size) := by
  rw [decodeSample, requireLength_of_le h, hcode, SampleType.ofCode?_code]
  exact congrArg (· >>= fun _ => .ok (readBody sample data)) (requireLength_of_lt hshort)

/-- With one it is read. -/
theorem decodeSample_of_whole {sample : SampleType} (hcode : data.word32At 8 = sample.code)
    (hwhole : sample.size ≤ data.length) :
    decodeSample data = .ok (readBody sample data) := by
  rw [decodeSample, requireLength_of_le (sample.headerSize_le.trans hwhole), hcode,
    SampleType.ofCode?_code]
  exact congrArg (· >>= fun _ => .ok (readBody sample data)) (requireLength_of_le hwhole)

/-- Every sequence of bytes is a whole sample or falls short in one of three ways. -/
theorem sample_cases (data : Bytes) :
    (data.length < headerSize) ∨
      (headerSize ≤ data.length ∧ ∀ sample : SampleType, data.word32At 8 ≠ sample.code) ∨
      ∃ sample : SampleType, data.word32At 8 = sample.code ∧
        ((headerSize ≤ data.length ∧ data.length < sample.size) ∨
          sample.size ≤ data.length) := by
  rcases Nat.lt_or_ge data.length headerSize with hheader | hheader
  · exact .inl hheader
  · by_cases hknown : ∃ sample : SampleType, data.word32At 8 = sample.code
    · rcases hknown with ⟨sample, hcode⟩
      refine .inr (.inr ⟨sample, hcode, ?_⟩)
      rcases Nat.lt_or_ge data.length sample.size with hshort | hwhole
      · exact .inl ⟨hheader, hshort⟩
      · exact .inr hwhole
    · exact .inr (.inl ⟨hheader, not_exists.mp hknown⟩)

/-- A sample is read exactly from the bytes that begin with it. -/
theorem decodeSample_eq_ok_iff :
    decodeSample data = .ok message ↔
      message.recordType = sampleRecordType ∧ message.encode <+: data := by
  rw [encode_prefix_iff]
  constructor
  · intro h
    rcases sample_cases data with
      hshort | ⟨hheader, hunknown⟩ | ⟨sample, hcode, ⟨hheader, hshort⟩ | hwhole⟩
    · rw [decodeSample_of_lt hshort] at h
      exact absurd h (by simp)
    · rw [decodeSample_of_unknown hheader hunknown] at h
      exact absurd h (by simp)
    · rw [decodeSample_of_short hheader hcode hshort] at h
      exact absurd h (by simp)
    · rw [decodeSample_of_whole hcode hwhole] at h
      exact ⟨sample, hcode, hwhole, Except.ok.inj h⟩
  · rintro ⟨sample, hcode, hwhole, rfl⟩
    exact decodeSample_of_whole hcode hwhole

/-! ## Faults of a sample -/

/-- The samples there are: type word, name, and bytes from the header on. -/
def announced : List (UInt32 × String × Nat) :=
  [(0, "perf measurement", 48), (1, "rmid alloc", 36), (2, "rmid free", 16)]

/-- The kinds are announced with their codes, labels and sizes. -/
theorem mem_announced_iff {code : UInt32} {what : String} {need : Nat} :
    (code, what, need) ∈ announced ↔
      ∃ sample : SampleType, code = sample.code ∧ what = sample.label ∧ need = sample.size := by
  constructor
  · intro h
    simp only [announced, List.mem_cons, Prod.mk.injEq, List.not_mem_nil, or_false] at h
    rcases h with h | h | h
    · exact ⟨.performance, h⟩
    · exact ⟨.rmidAlloc, h⟩
    · exact ⟨.rmidFree, h⟩
  · rintro ⟨sample, rfl, rfl, rfl⟩
    cases sample <;> decide

/-- What is wrong with bytes that do not begin with a sample.  The type word is looked at
before the length of the body. -/
inductive SampleFault (data : Bytes) : Malformed → Prop
  | header (hshort : data.length < 12) :
    SampleFault data (.truncated "message header" data.length 12)
  | unknown {code : UInt32} (hcode : ofWord32 code <+: data.drop 8)
    (hunknown : ∀ what need, (code, what, need) ∉ announced) :
    SampleFault data (.unknownType code)
  | body {code : UInt32} {what : String} {need : Nat} (hcode : ofWord32 code <+: data.drop 8)
    (hannounced : (code, what, need) ∈ announced) (hshort : data.length < need) :
    SampleFault data (.truncated what data.length need)

/-- A sample is refused exactly for its fault. -/
theorem decodeSample_eq_error_iff {cause : Malformed} :
    decodeSample data = .error cause ↔ SampleFault data cause := by
  have hword (hheader : headerSize ≤ data.length) :
      ofWord32 (data.word32At 8) <+: data.drop 8 :=
    ofWord32_prefix_iff.mpr ⟨hheader, rfl⟩
  constructor
  · intro h
    rcases sample_cases data with
      hshort | ⟨hheader, hunknown⟩ | ⟨sample, hcode, ⟨hheader, hshort⟩ | hwhole⟩
    · rw [decodeSample_of_lt hshort] at h
      obtain rfl := Except.error.inj h
      exact .header hshort
    · rw [decodeSample_of_unknown hheader hunknown] at h
      obtain rfl := Except.error.inj h
      refine .unknown (hword hheader) fun what need hmem => ?_
      rcases mem_announced_iff.mp hmem with ⟨sample, hcode, -⟩
      exact hunknown sample hcode
    · rw [decodeSample_of_short hheader hcode hshort] at h
      obtain rfl := Except.error.inj h
      exact .body (hword hheader) (mem_announced_iff.mpr ⟨sample, hcode, rfl, rfl⟩) hshort
    · rw [decodeSample_of_whole hcode hwhole] at h
      exact absurd h (by simp)
  · intro h
    cases h with
    | header hshort => exact decodeSample_of_lt hshort
    | unknown hcode hunknown =>
      rcases ofWord32_prefix_iff.mp hcode with ⟨hheader, rfl⟩
      apply decodeSample_of_unknown hheader
      intro sample hcode
      exact hunknown _ _ (mem_announced_iff.mpr ⟨sample, hcode, rfl, rfl⟩)
    | body hcode hannounced hshort =>
      rcases ofWord32_prefix_iff.mp hcode with ⟨hheader, hword⟩
      rcases mem_announced_iff.mp hannounced with ⟨sample, rfl, rfl, rfl⟩
      exact decodeSample_of_short hheader hword hshort

/-! ## Records -/

/-- A lost notice that is too short is truncated. -/
theorem decodeLost_of_lt (h : payload.length < lostNoticeSize) :
    decodeLost payload = .error (.truncated "lost record" payload.length lostNoticeSize) := by
  rw [decodeLost, requireLength_of_lt h]
  rfl

/-- One that is not is read. -/
theorem decodeLost_of_le (h : lostNoticeSize ≤ payload.length) :
    decodeLost payload =
      .ok (.lost { id := payload.word64At 0, lost := payload.word64At 8 }) := by
  rw [decodeLost, requireLength_of_le h]
  rfl

/-- A lost-records notice is read exactly from the bytes that begin with it. -/
theorem decodeLost_eq_ok_iff :
    decodeLost payload = .ok message ↔
      message.recordType = lostRecordType ∧ message.encode <+: payload := by
  constructor
  · intro h
    rcases Nat.lt_or_ge payload.length lostNoticeSize with hshort | hwhole
    · rw [decodeLost_of_lt hshort] at h
      exact absurd h (by simp)
    · rw [decodeLost_of_le hwhole] at h
      obtain rfl := Except.ok.inj h
      exact ⟨rfl, encodeLostNotice_prefix_iff.mpr ⟨hwhole, rfl⟩⟩
  · rintro ⟨htype, hencode⟩
    cases message with
    | lost notice =>
      rcases encodeLostNotice_prefix_iff.mp hencode with ⟨hwhole, rfl⟩
      exact decodeLost_of_le hwhole
    | measurement | rmidAlloc | rmidFree =>
      simp [recordType, lostRecordType, sampleRecordType] at htype

/-- What is wrong with a record that holds no message. -/
inductive RecordFault (recordType : UInt32) (payload : Bytes) : Malformed → Prop
  | unsupported (hsample : recordType ≠ sampleRecordType) (hlost : recordType ≠ lostRecordType) :
    RecordFault recordType payload (.unsupportedRecord recordType)
  | sizeWord (htype : recordType = sampleRecordType) (hshort : payload.length < 4) :
    RecordFault recordType payload (.truncated "sample size prefix" payload.length 4)
  | sample {cause : Malformed} (htype : recordType = sampleRecordType)
    (hsizeWord : 4 ≤ payload.length) (hfault : SampleFault (payload.drop 4) cause) :
    RecordFault recordType payload cause
  | lost (htype : recordType = lostRecordType) (hshort : payload.length < 16) :
    RecordFault recordType payload (.truncated "lost record" payload.length 16)

/-- A sample record without its size word is truncated. -/
theorem decodeRecord_of_lt (h : payload.length < sampleSizeWord) :
    decodeRecord sampleRecordType payload =
      .error (.truncated "sample size prefix" payload.length sampleSizeWord) := by
  rw [decodeRecord, if_pos rfl, requireLength_of_lt h]
  rfl

/-- With it, what follows is the sample. -/
theorem decodeRecord_of_le (h : sampleSizeWord ≤ payload.length) :
    decodeRecord sampleRecordType payload = decodeSample (payload.drop sampleSizeWord) := by
  rw [decodeRecord, if_pos rfl, requireLength_of_le h]
  rfl

/-- A lost record is a lost notice. -/
theorem decodeRecord_lost (payload : Bytes) :
    decodeRecord lostRecordType payload = decodeLost payload := by
  rw [decodeRecord, if_neg (by decide), if_pos rfl]

/-- Records of other types are not supported. -/
theorem decodeRecord_other {recordType : UInt32} (hsample : recordType ≠ sampleRecordType)
    (hlost : recordType ≠ lostRecordType) :
    decodeRecord recordType payload = .error (.unsupportedRecord recordType) := by
  rw [decodeRecord, if_neg hsample, if_neg hlost]

/-- A sample is read exactly from the records whose payload begins with it after the size
word. -/
theorem decodeRecord_sample_eq_ok_iff :
    decodeRecord sampleRecordType payload = .ok message ↔
      message.recordType = sampleRecordType ∧ sampleSizeWord ≤ payload.length ∧
        message.encode <+: payload.drop sampleSizeWord := by
  rcases Nat.lt_or_ge payload.length sampleSizeWord with hshort | hle
  · rw [decodeRecord_of_lt hshort]
    constructor
    · exact fun h => absurd h (by simp)
    · exact fun ⟨_, hle, _⟩ => absurd hle (Nat.not_le.mpr hshort)
  · rw [decodeRecord_of_le hle, decodeSample_eq_ok_iff]
    exact and_congr_right fun _ => (and_iff_right hle).symm

/-- A record is refused exactly for its fault. -/
theorem decodeRecord_eq_error_iff {recordType : UInt32} {cause : Malformed} :
    decodeRecord recordType payload = .error cause ↔
      RecordFault recordType payload cause := by
  constructor
  · intro h
    by_cases hsample : recordType = sampleRecordType
    · rw [hsample] at h
      rcases Nat.lt_or_ge payload.length sampleSizeWord with hshort | hle
      · rw [decodeRecord_of_lt hshort] at h
        obtain rfl := Except.error.inj h
        exact .sizeWord hsample hshort
      · rw [decodeRecord_of_le hle] at h
        exact .sample hsample hle (decodeSample_eq_error_iff.mp h)
    · by_cases hlost : recordType = lostRecordType
      · rw [hlost, decodeRecord_lost] at h
        rcases Nat.lt_or_ge payload.length lostNoticeSize with hshort | hwhole
        · rw [decodeLost_of_lt hshort] at h
          obtain rfl := Except.error.inj h
          exact .lost hlost hshort
        · rw [decodeLost_of_le hwhole] at h
          exact absurd h (by simp)
      · rw [decodeRecord_other hsample hlost] at h
        obtain rfl := Except.error.inj h
        exact .unsupported hsample hlost
  · intro h
    cases h with
    | unsupported hsample hlost => exact decodeRecord_other hsample hlost
    | sizeWord htype hshort =>
      rw [htype]
      exact decodeRecord_of_lt hshort
    | sample htype hsizeWord hfault =>
      rw [htype, decodeRecord_of_le hsizeWord]
      exact decodeSample_eq_error_iff.mpr hfault
    | lost htype hshort =>
      rw [htype, decodeRecord_lost]
      exact decodeLost_of_lt hshort

/-! ## Both sides -/

/-- Whatever is not read has exactly one fault. -/
theorem existsUnique_fault {Fault : Malformed → Prop} {result : Except Malformed Message}
    (hfault : ∀ cause, result = .error cause ↔ Fault cause)
    (hnone : ∀ message, result ≠ .ok message) : ∃! cause, Fault cause := by
  cases hresult : result with
  | ok message => exact absurd hresult (hnone message)
  | error cause =>
    refine ⟨cause, (hfault cause).mp hresult, ?_⟩
    intro other hother
    exact Except.error.inj (((hfault other).mpr hother).symm.trans hresult)

/-- How bytes are read as a sample. -/
structure ReadsSample (data : Bytes) : Prop where
  ok_iff : ∀ message, decodeSample data = .ok message ↔
    message.recordType = sampleRecordType ∧ message.encode <+: data
  error_iff : ∀ cause, decodeSample data = .error cause ↔ SampleFault data cause
  one_fault : (∀ message : Message, message.recordType = sampleRecordType →
    ¬ message.encode <+: data) → ∃! cause, SampleFault data cause

/-- How a payload is read, depending on the type of its record. -/
structure ReadsRecord (payload : Bytes) : Prop where
  sample_iff : ∀ message, decodeRecord sampleRecordType payload = .ok message ↔
    message.recordType = sampleRecordType ∧ sampleSizeWord ≤ payload.length ∧
      message.encode <+: payload.drop sampleSizeWord
  lost_iff : ∀ message, decodeRecord lostRecordType payload = .ok message ↔
    message.recordType = lostRecordType ∧ message.encode <+: payload
  error_iff : ∀ recordType cause, decodeRecord recordType payload = .error cause ↔
    RecordFault recordType payload cause
  one_fault : ∀ recordType, (∀ message, decodeRecord recordType payload ≠ .ok message) →
    ∃! cause, RecordFault recordType payload cause

/-- Samples are read if they are whole, and else refused for one fault. -/
theorem readsSample (data : Bytes) : ReadsSample data where
  ok_iff _ := decodeSample_eq_ok_iff
  error_iff _ := decodeSample_eq_error_iff
  one_fault hnone := by
    apply existsUnique_fault fun _ => decodeSample_eq_error_iff
    intro message hok
    rcases decodeSample_eq_ok_iff.mp hok with ⟨htype, hencode⟩
    exact hnone message htype hencode

/-- So are records. -/
theorem readsRecord (payload : Bytes) : ReadsRecord payload where
  sample_iff _ := decodeRecord_sample_eq_ok_iff
  lost_iff _ := by
    rw [decodeRecord_lost]
    exact decodeLost_eq_ok_iff
  error_iff _ _ := decodeRecord_eq_error_iff
  one_fault _ hnone := existsUnique_fault (fun _ => decodeRecord_eq_error_iff) hnone

/-! ## Through a ring -/

/-- Messages come in samples or in lost records. -/
theorem recordType_cases (message : Message) :
    message.recordType = sampleRecordType ∨ message.recordType = lostRecordType := by
  cases message with
  | lost notice => exact .inr rfl
  | measurement | rmidAlloc | rmidFree => exact .inl rfl

/-- A message is read from its record, whatever fills the padding. -/
theorem decodeRecord_readsBack (message : Message)
    {seen : Except Ring.Refusal (UInt32 × Bytes)}
    (h : Ring.Record.ReadsBack (message.recordType, message.encode) seen) :
    ∃ payload, seen = .ok (message.recordType, payload) ∧
      decodeRecord message.recordType payload = .ok message := by
  rcases h with ⟨padding, rfl, -⟩
  refine ⟨_, rfl, ?_⟩
  dsimp only
  rcases message.recordType_cases with htype | htype
  · rw [htype]
    have hlength : (Ring.Record.sizeWord sampleRecordType message.encode).length =
        sampleSizeWord := by
      rw [Ring.Record.sizeWord, if_pos rfl, length_littleEndian]
    apply decodeRecord_sample_eq_ok_iff.mpr
    refine ⟨htype, ?_, ?_⟩
    · rw [List.length_append, List.length_append]
      omega
    · rw [List.append_assoc, List.drop_left' hlength]
      exact List.prefix_append _ _
  · rw [htype, decodeRecord_lost, decodeLost_eq_ok_iff, Ring.Record.sizeWord,
      if_neg (by decide), List.nil_append]
    exact ⟨htype, List.prefix_append _ _⟩

/-- Every message written comes out of a ring as itself: as far as records were popped, and
altogether once what is left is published, looked for and popped. -/
structure Returns (channel : Ring.Channel) : Prop where
  popped : ∀ (number : Nat) (message : Message),
    channel.journal.written[number]? = some (message.recordType, message.encode) →
      number < channel.journal.popped.length →
        ∃ payload, channel.journal.popped[number]? = some (.ok (message.recordType, payload)) ∧
          decodeRecord message.recordType payload = .ok message
  salvaged : ∀ (number : Nat) (message : Message),
    channel.journal.written[number]? = some (message.recordType, message.encode) →
      ∃ payload, (channel.run channel.salvage).journal.popped[number]? =
          some (.ok (message.recordType, payload)) ∧
        decodeRecord message.recordType payload = .ok message

/-- Records that are read back hold the messages written. -/
theorem decodeRecord_of_forall₂ {written : List (UInt32 × Bytes)}
    {seen : List (Except Ring.Refusal (UInt32 × Bytes))} {number : Nat} {message : Message}
    (h : List.Forall₂ Ring.Record.ReadsBack written seen)
    (hwritten : written[number]? = some (message.recordType, message.encode)) :
    ∃ payload, seen[number]? = some (.ok (message.recordType, payload)) ∧
      decodeRecord message.recordType payload = .ok message := by
  rcases List.getElem?_eq_some_iff.mp hwritten with ⟨hlt, hget⟩
  have hlt' : number < seen.length := h.length_eq ▸ hlt
  have hread := h.get hlt hlt'
  rw [List.get_eq_getElem, List.get_eq_getElem, hget] at hread
  rcases decodeRecord_readsBack message hread with ⟨payload, hseen, hdecode⟩
  refine ⟨payload, ?_, hdecode⟩
  rw [List.getElem?_eq_getElem hlt', hseen]

/-- What is written to a sound channel is returned by it. -/
theorem returns_of_sound {view : Ring.View} {channel : Ring.Channel}
    (h : Ring.Channel.Sound view channel) : Returns channel where
  popped number message hwritten hlt := by
    apply decodeRecord_of_forall₂ h.popped
    rw [List.getElem?_take_of_lt hlt, hwritten]
  salvaged number message hwritten := decodeRecord_of_forall₂ h.recovers hwritten

/-- Reading undoes writing and nothing else does: bytes are read as a message exactly if
they begin with it, all others have one fault, and what a ring delivers is read as the
message that was written. -/
theorem format_round_trip :
    (∀ data, ReadsSample data) ∧ (∀ payload, ReadsRecord payload) ∧
      ∀ region view, Ring.View.attach region = .ok view → region.head = region.tail →
        ∀ actions, Returns ((Ring.Channel.opened region view).run actions) := by
  refine ⟨readsSample, readsRecord, ?_⟩
  intro region view hbind hidle actions
  exact returns_of_sound ((Ring.Channel.sound_opened hbind hidle).run actions)

/-- An identifier is released. -/
def release : RmidFree where
  timestamp := 18446744073709551615
  rmid := 7

/-- What is bound to a region whose cursors are about to wrap. -/
def wrapped : Ring.View where
  dataStart := 1072
  capacity := 32
  readPos := 18446744073709551608
  writePos := 18446744073709551608

/-- The record of a message is written over one whose bytes are all ones. -/
def overwriting : List Ring.Action :=
  [.write (List.replicate 24 255) 1, .finishWrite, .startRead, .pop, .finishRead, .startWrite,
    .write (encodeRmidFree release) sampleRecordType, .finishWrite, .startRead, .pop]

/-- The padding keeps stale bytes, and the message comes back all the same. -/
theorem format_round_trip_overwriting :
    ∃ view, Ring.View.attach Ring.Channel.wrapping = .ok view ∧
      Ring.Channel.wrapping.head = Ring.Channel.wrapping.tail ∧
      ∃ payload, payload = [20, 0, 0, 0] ++ encodeRmidFree release ++ [255, 255, 255, 255] ∧
        ((Ring.Channel.opened Ring.Channel.wrapping view).run overwriting).journal.popped[1]? =
          some (.ok (sampleRecordType, payload)) ∧
        decodeRecord sampleRecordType payload = .ok (.rmidFree release) := by
  have hbind : Ring.View.attach Ring.Channel.wrapping = .ok wrapped := by decide +kernel
  have hidle : Ring.Channel.wrapping.head = Ring.Channel.wrapping.tail := by decide +kernel
  rcases (format_round_trip.2.2 _ _ hbind hidle overwriting).popped 1 (.rmidFree release)
    (by decide +kernel) (by decide +kernel) with ⟨payload, hpopped, hdecode⟩
  have hseen :
      ((Ring.Channel.opened Ring.Channel.wrapping wrapped).run overwriting).journal.popped[1]? =
        some (.ok (sampleRecordType,
          [20, 0, 0, 0] ++ encodeRmidFree release ++ [255, 255, 255, 255])) := by
    decide +kernel
  have hsame := Except.ok.inj (Option.some.inj (hpopped.symm.trans hseen))
  exact ⟨_, hbind, hidle, payload, congrArg Prod.snd hsame, hpopped, hdecode⟩

end Message

end CacheMeter
