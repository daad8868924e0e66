import CacheMeter.Message

/-!
# The wire format of messages

Every sample starts with a 64-bit timestamp and a 32-bit message type; the body
follows at fixed offsets.  In a ring, a sample is preceded by a 32-bit size word,
and a lost-records notice is a record type of its own without that header.

Main results:

- `Message.encode` writes a message; `length_encode` gives its size.
- `decodeSample` and `decodeRecord` read messages back, or name the first thing
  missing or unknown.
-/

namespace CacheMeter

/-! ## Record types -/

/-- The ring record type of a lost-records notice. -/
def lostRecordType : UInt32 := 2

/-- The ring record type of a sample. -/
def sampleRecordType : UInt32 := 9

/-- Bytes of the size word in front of a sample. -/
def sampleSizeWord : Nat := 4

namespace Message

/-! ## Message types -/

/-- What the type word of a sample announces. -/
inductive SampleType
  | performance
  | rmidAlloc
  | rmidFree
deriving DecidableEq, Repr

namespace SampleType

/-- The type word that announces a sample. -/
def code : SampleType → UInt32
  | .performance => 0
  | .rmidAlloc => 1
  | .rmidFree => 2

/-- What a type word announces, if it is known. -/
def ofCode? (code : UInt32) : Option SampleType :=
  if code = 0 then some .performance
  else if code = 1 then some .rmidAlloc
  else if code = 2 then some .rmidFree
  else none

@[simp]
theorem ofCode?_code (sample : SampleType) : ofCode? sample.code = some sample := by
  cases sample <;> decide

/-- Bytes of a sample of this type, header included. -/
def size : SampleType → Nat
  | .performance => 48
  | .rmidAlloc => 36
  | .rmidFree => 16

/-- What a truncated sample of this type is called. -/
def label : SampleType → String
  | .performance => "perf measurement"
  | .rmidAlloc => "rmid alloc"
  | .rmidFree => "rmid free"

end SampleType

/-- Bytes of the timestamp and type word in front of every sample. -/
def headerSize : Nat := 12

/-- Bytes of a lost-records notice. -/
def lostNoticeSize : Nat := 16

/-! ## Writing -/

/-- The bytes of a measurement, the way the producer emits it. -/
def encodeMeasurement (m : Measurement) : Bytes :=
  Bytes.ofWord64 m.endTime ++ Bytes.ofWord32 SampleType.performance.code
    ++ Bytes.ofWord32 m.entity ++ Bytes.ofWord64 m.cycles
    ++ Bytes.ofWord64 m.instructions ++ Bytes.ofWord64 m.cacheMisses
    ++ Bytes.ofWord64 m.duration

/-- The bytes of an identifier being bound. -/
def encodeRmidAlloc (update : RmidAlloc) : Bytes :=
  Bytes.ofWord64 update.timestamp ++ Bytes.ofWord32 SampleType.rmidAlloc.code
    ++ Bytes.ofWord32 update.rmid ++ update.command.toList
    ++ Bytes.ofWord32 update.processGroup

/-- The bytes of an identifier being released. -/
def encodeRmidFree (update : RmidFree) : Bytes :=
  Bytes.ofWord64 update.timestamp ++ Bytes.ofWord32 SampleType.rmidFree.code
    ++ Bytes.ofWord32 update.rmid

/-- The bytes of a lost-records notice. -/
def encodeLostNotice (notice : LostNotice) : Bytes :=
  Bytes.ofWord64 notice.id ++ Bytes.ofWord64 notice.lost

/-- The bytes of a message, without the size word of samples. -/
def encode : Message → Bytes
  | .measurement m => encodeMeasurement m
  | .rmidAlloc update => encodeRmidAlloc update
  | .rmidFree update => encodeRmidFree update
  | .lost notice => encodeLostNotice notice

/-- The ring record type under which a message travels. -/
def recordType : Message → UInt32
  | .lost _ => lostRecordType
  | _ => sampleRecordType

theorem length_encode (message : Message) :
    message.encode.length =
      match message with
      | .measurement _ => SampleType.performance.size
      | .rmidAlloc _ => SampleType.rmidAlloc.size
      | .rmidFree _ => SampleType.rmidFree.size
      | .lost _ => lostNoticeSize := by
  cases message <;>
    simp [encode, encodeMeasurement, encodeRmidAlloc, encodeRmidFree, encodeLostNotice,
      Bytes.ofWord64, Bytes.ofWord32, SampleType.size, lostNoticeSize]

/-! ## Reading -/

/-- Why a record is not a message. -/
inductive Malformed
  | unsupportedRecord (recordType : UInt32)
  | truncated (what : String) (size need : Nat)
  | unknownType (code : UInt32)
deriving DecidableEq, Repr

/-- The text shown for a record that is not a message. -/
def Malformed.message : Malformed → String
  | .unsupportedRecord recordType =>
    "unsupported ring record type " ++ toString recordType.toNat
  | .truncated what size need =>
    "reading " ++ what ++ ": " ++ toString size ++ " bytes, need " ++ toString need
  | .unknownType code => "unknown message type: " ++ toString code.toNat

/-- Refuse data shorter than `need` bytes. -/
def requireLength (data : Bytes) (need : Nat) (what : String) : Except Malformed Unit :=
  if data.length < need then .error (.truncated what data.length need) else .ok ()

/-- The message of a sample of known type, given enough bytes. -/
def readBody (sample : SampleType) (data : Bytes) : Message :=
  match sample with
  | .performance =>
    .measurement
      { entity := data.word32At 12
        cycles := data.word64At 16
        instructions := data.word64At 24
        cacheMisses := data.word64At 32
        endTime := data.word64At 0
        duration := data.word64At 40 }
  | .rmidAlloc =>
    .rmidAlloc
      { timestamp := data.word64At 0
        rmid := data.word32At 12
        command := CommandName.ofBytes (data.field 16 16)
        processGroup := data.word32At 32 }
  | .rmidFree =>
    .rmidFree
      { timestamp := data.word64At 0
        rmid := data.word32At 12 }

/-- Read a sample, its size word already removed. -/
def decodeSample (data : Bytes) : Except Malformed Message := do
  requireLength data headerSize "message header"
  match SampleType.ofCode? (data.word32At 8) with
  | none => .error (.unknownType (data.word32At 8))
  | some sample =>
    requireLength data sample.size sample.label
    return readBody sample data

/-- Read a lost-records notice. -/
def decodeLost (data : Bytes) : Except Malformed Message := do
  requireLength data lostNoticeSize "lost record"
  return .lost { id := data.word64At 0, lost := data.word64At 8 }

/-- Read the payload of a ring record of the given type. -/
def decodeRecord (recordType : UInt32) (payload : Bytes) : Except Malformed Message :=
  if recordType = sampleRecordType then do
    requireLength payload sampleSizeWord "sample size prefix"
    decodeSample (payload.drop sampleSizeWord)
  else if recordType = lostRecordType then decodeLost payload
  else .error (.unsupportedRecord recordType)

end Message

end CacheMeter
