import CacheMeter.Message.Wire

/-!
# Ring records

Every record in a ring starts with an eight-byte header that gives its type and
its whole size, a multiple of eight.  A sample carries a size word in front of
its payload.

Main results:

- `Header.decode_encode`: a header is read back as written.
- `Record.bytes` is the written form of a record; `length_bytes_le` says that it
  fits the size announced.
-/

namespace CacheMeter.Ring

/-! ## Headers -/

/-- Bytes of a record header. -/
def headerSize : Nat := 8

/-- The header in front of every record; `size` includes it. -/
structure Header where
  recordType : UInt32
  misc : UInt16
  size : UInt16
deriving DecidableEq, Repr

namespace Header

/-- The bytes of a header. -/
def encode (header : Header) : Bytes :=
  Bytes.ofWord32 header.recordType ++ Bytes.ofWord16 header.misc ++ Bytes.ofWord16 header.size

/-- The header in the first eight bytes. -/
def decode (bytes : Bytes) : Header where
  recordType := bytes.word32At 0
  misc := bytes.word16At 4
  size := bytes.word16At 6

theorem decode_encode (header : Header) (rest : Bytes) :
    decode (header.encode ++ rest) = header := by
  obtain ⟨recordType, misc, size⟩ := header
  have htype := Bytes.word32At_append [] (Bytes.ofWord16 misc ++ (Bytes.ofWord16 size ++ rest))
    recordType rfl
  have hmisc := Bytes.word16At_append (Bytes.ofWord32 recordType)
    (Bytes.ofWord16 size ++ rest) misc (Bytes.length_ofWord32 recordType)
  have hlength : (Bytes.ofWord32 recordType ++ Bytes.ofWord16 misc).length = 6 := by simp
  have hsize := Bytes.word16At_append (Bytes.ofWord32 recordType ++ Bytes.ofWord16 misc)
    rest size hlength
  simp only [List.nil_append, List.append_assoc, List.length_nil] at htype hmisc hsize
  simp only [decode, encode, List.append_assoc, htype, hmisc, hsize]

end Header

/-! ## Written form -/

/-- A size rounded up to a multiple of eight. -/
def align8 (n : Nat) : Nat :=
  (n + 7) / 8 * 8

namespace Record

/-- Bytes between header and payload: the size word of a sample. -/
def wordSize (recordType : UInt32) : Nat :=
  if recordType = sampleRecordType then sampleSizeWord else 0

/-- Bytes that a record takes up in the ring, padding included. -/
def size (recordType : UInt32) (payload : Bytes) : Nat :=
  align8 (headerSize + wordSize recordType + payload.length)

/-- The header of a record. -/
def header (recordType : UInt32) (payload : Bytes) : Header where
  recordType := recordType
  misc := 0
  size := UInt16.ofNat (size recordType payload)

/-- The size word in front of a sample's payload; it counts the padding too.  Other
records have none. -/
def sizeWord (recordType : UInt32) (payload : Bytes) : Bytes :=
  if recordType = sampleRecordType then
    Bytes.littleEndian sampleSizeWord (size recordType payload - headerSize - sampleSizeWord)
  else []

/-- The bytes written for a record.  Padding up to its size is not written. -/
def bytes (recordType : UInt32) (payload : Bytes) : Bytes :=
  (header recordType payload).encode ++ sizeWord recordType payload ++ payload

theorem length_bytes (recordType : UInt32) (payload : Bytes) :
    (bytes recordType payload).length =
      headerSize + wordSize recordType + payload.length := by
  by_cases h : recordType = sampleRecordType <;>
    simp [bytes, Header.encode, sizeWord, wordSize, h, headerSize, Bytes.ofWord32,
      Bytes.ofWord16, sampleSizeWord] <;> omega

theorem length_bytes_le (recordType : UInt32) (payload : Bytes) :
    (bytes recordType payload).length ≤ size recordType payload := by
  rw [length_bytes, size, align8]
  omega

end Record

end CacheMeter.Ring
