import CacheMeter.Ring.Record
import CacheMeter.Ring.Region

/-!
# One side of a ring

A producer or a consumer sees a ring through a view: where the data region lies,
and a private copy of both cursors.  A cursor counts bytes modulo `2 ^ 64`; its
place in the data region is the count modulo the capacity.  The producer
publishes its write cursor, the consumer its read cursor, at batch boundaries.

Main results:

- `View.bind` checks the geometry of a region and takes the published cursors.
- `View.write` appends a record, all or nothing; `write_eq_error_iff_nil` is its
  first refusal.
- `View.header?`, `View.copyPayload` and `View.pop` read the record at the read
  cursor; `pop_isEmpty` says when there is none.
-/

namespace CacheMeter.Ring

/-! ## Refusals -/

/-- Why a ring operation is refused. -/
inductive Refusal
  | noMemory
  | badCapacity
  | misaligned
  | regionTooSmall (size needed : Nat)
  | noSpace
  | empty
  | cannotFit (size : Nat)
  | emptyWrite
  | sizeExceeded (requested available : Nat)
deriving DecidableEq, Repr

/-- The text shown for a refusal. -/
def Refusal.message : Refusal → String
  | .noMemory => "ring storage is empty"
  | .badCapacity => "data region must be a power of two of at least 8 bytes"
  | .misaligned => "ring storage is not 8-byte aligned"
  | .regionTooSmall size needed =>
    "storage of " ++ toString size ++ " bytes cannot hold metadata and data ending at byte "
      ++ toString needed
  | .noSpace => "no space left in ring"
  | .empty => "ring is empty"
  | .cannotFit size => "record of " ++ toString size ++ " bytes can never fit in the ring"
  | .emptyWrite => "cannot write an empty payload"
  | .sizeExceeded requested available =>
    "read of " ++ toString requested ++ " bytes exceeds record payload of "
      ++ toString available ++ " bytes"

/-- The largest word, at which sizes given as words saturate. -/
def maxWord : Nat := UInt64.size - 1

/-! ## Views -/

/-- A producer's or consumer's view of a ring. -/
structure View where
  dataStart : Nat
  capacity : Nat
  readPos : UInt64
  writePos : UInt64
deriving DecidableEq, Repr, Inhabited

namespace View

/-- The cell that lies `i` bytes after a cursor. -/
def place (view : View) (cursor : UInt64) (i : Nat) : Nat :=
  view.dataStart + (cursor.toNat + i) % view.capacity

/-- Bytes between the two cursors. -/
def used (view : View) : Nat :=
  (view.writePos - view.readPos).toNat

/-- Whether the read cursor has caught up with the write cursor. -/
def isEmpty (view : View) : Bool :=
  view.readPos = view.writePos

/-- Unread bytes, at most the largest 32-bit word. -/
def bytesRemaining (view : View) : Nat :=
  min view.used (UInt32.size - 1)

/-! ### Binding -/

/-- Where the data region starts: at the offset advertised in the metadata, or one
page into the region if none is. -/
def dataStartOf (region : Region) (pageSize : UInt64) : Nat :=
  let advertised := region.metadata.dataOffset
  if advertised = 0 then pageSize.toNat else advertised.toNat

/-- Bind to a region that holds `dataPages` data pages of the given size.  Both
cursors start from the published ones. -/
def bind (region : Region) (dataPages : UInt32) (pageSize : UInt64) : Except Refusal View :=
  let capacity := dataPages.toNat * pageSize.toNat
  let dataStart := dataStartOf region pageSize
  let dataEnd := min (dataStart + capacity) maxWord
  if region.base.isNone || region.isEmpty then .error .noMemory
  else if maxWord < capacity || capacity < 8 || !capacity.isPowerOfTwo then
    .error .badCapacity
  else if !region.isAligned then .error .misaligned
  else if region.size < Metadata.size then
    .error (.regionTooSmall region.size Metadata.size)
  else if dataStart < Metadata.size || region.size < dataEnd then
    .error (.regionTooSmall region.size dataEnd)
  else
    .ok
      { dataStart := dataStart
        capacity := capacity
        readPos := region.tail
        writePos := region.head }

/-- Bind with the geometry that the region reports. -/
def attach (region : Region) : Except Refusal View :=
  bind region region.dataPages region.pageSize

/-! ### Producing -/

/-- Observe the space that the consumer has released. -/
def startWrite (view : View) (region : Region) : View :=
  { view with readPos := region.tail }

/-- Append one record.  Returns where the payload lies in the data region, with the
view and the region after the write.  The record is invisible to readers until
the batch is finished. -/
def write (view : View) (region : Region) (payload : Bytes) (recordType : UInt32) :
    Except Refusal (Nat × View × Region) :=
  let size := Record.size recordType payload
  if payload = [] then .error .emptyWrite
  else if view.capacity < size || UInt16.size ≤ size then .error (.cannotFit size)
  else if view.capacity < view.used + size then .error .noSpace
  else
    let payloadPos := view.writePos.toNat + headerSize + Record.wordSize recordType
    let cells := scatter (view.place view.writePos) 0 (Record.bytes recordType payload)
      region.cells
    .ok (payloadPos % view.capacity,
      { view with writePos := view.writePos + UInt64.ofNat size },
      { region with cells := cells })

/-- Publish everything written since the last batch. -/
def finishWrite (view : View) (region : Region) : Region :=
  region.publishHead view.writePos

theorem write_eq_error_iff_nil {view : View} {region : Region} {payload : Bytes}
    {recordType : UInt32} :
    view.write region payload recordType = .error .emptyWrite ↔ payload = [] := by
  constructor
  · intro h
    by_cases hnil : payload = []
    · exact hnil
    · exfalso
      simp only [write, hnil, if_false] at h
      split at h
      · simp at h
      · split at h <;> simp at h
  · rintro rfl
    rfl

/-! ### Consuming -/

/-- Observe the records that the producer has published. -/
def startRead (view : View) (region : Region) : View :=
  { view with writePos := region.head }

/-- The bytes that lie from `offset` bytes after the read cursor on.  A count above the capacity
goes round the data region and reads bytes again, which no ring does: it stops there, and only
a header that announces more than there is room for asks for it. -/
def copyOut (view : View) (region : Region) (offset count : Nat) : Bytes :=
  gather region.cells (fun i => view.place view.readPos (offset + i)) count

/-- The header at the read cursor, whether or not a record is there. -/
def rawHeader (view : View) (region : Region) : Header :=
  Header.decode (view.copyOut region 0 headerSize)

/-- The header of the record at the read cursor. -/
def header? (view : View) (region : Region) : Except Refusal Header :=
  if view.isEmpty then .error .empty else .ok (view.rawHeader region)

/-- The record type at the read cursor; meaningless when the ring is empty. -/
def recordType (view : View) (region : Region) : UInt32 :=
  (view.rawHeader region).recordType

/-- Payload bytes of the record at the read cursor.  For samples this includes the
size word. -/
def payloadSize (view : View) (region : Region) : Except Refusal Nat :=
  (view.header? region).map fun header => header.size.toNat - headerSize

/-- Copy `count` bytes of the current payload from `offset` on. -/
def copyPayload (view : View) (region : Region) (count offset : Nat) :
    Except Refusal Bytes := do
  let available ← view.payloadSize region
  let requested := min (offset + count) maxWord
  if available < requested then .error (.sizeExceeded requested available)
  else return view.copyOut region (headerSize + offset) count

/-- The type and the whole payload of the record at the read cursor. -/
def record? (view : View) (region : Region) : Except Refusal (UInt32 × Bytes) := do
  let size ← view.payloadSize region
  let payload ← view.copyPayload region size 0
  return (view.recordType region, payload)

/-- How far the cursor moves over a record whose header announces `size` bytes when
`remaining` bytes are unread.  A corrupt size neither stalls the cursor nor moves
it past the producer. -/
def stride (size remaining : Nat) : Nat :=
  min (max (align8 size) headerSize) remaining

/-- Consume the record at the read cursor. -/
def pop (view : View) (region : Region) : Except Refusal View :=
  (view.header? region).map fun header =>
    { view with
      readPos := view.readPos + UInt64.ofNat (stride header.size.toNat view.used) }

/-- Release consumed space to the producer. -/
def finishRead (view : View) (region : Region) : Region :=
  region.publishTail view.readPos

theorem pop_isEmpty {view : View} {region : Region} (h : view.isEmpty = true) :
    view.pop region = .error .empty := by
  simp [pop, header?, h, Except.map]

/-! ### Sort key -/

/-- The time by which the record at the read cursor is merged: the timestamp at the
start of a sample's data, and zero for anything else, so that notices come out
ahead of waiting samples.  There is none in an empty ring. -/
def headTime? (view : View) (region : Region) : Option UInt64 :=
  if view.isEmpty then none
  else if view.recordType region ≠ sampleRecordType then some 0
  else
    match view.copyPayload region 8 sampleSizeWord with
    | .ok bytes => some (bytes.word64At 0)
    | .error _ => some 0

end View

end CacheMeter.Ring
