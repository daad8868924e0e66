import CacheMeter.Ring.Cells

/-!
# Ring memory

A region is the memory of one ring: a metadata block, in which producer and
consumer publish their cursors, followed by the data region.

Main results:

- `Region.head` and `Region.tail` are the published cursors.
- `Region.allocate` lays out a zeroed region, or names the limit it exceeds.
-/

namespace CacheMeter.Ring

/-! ## Layout of the metadata block -/

namespace Metadata

/-- Where the layout version is kept. -/
def versionOffset : Nat := 0

/-- Where the oldest compatible layout version is kept. -/
def compatVersionOffset : Nat := 4

/-- Where the producer publishes its cursor. -/
def headOffset : Nat := 1024

/-- Where the consumer publishes its cursor. -/
def tailOffset : Nat := 1032

/-- Where the start of the data region is kept. -/
def dataOffsetOffset : Nat := 1040

/-- Where the size of the data region is kept. -/
def dataSizeOffset : Nat := 1048

/-- Where the start of the auxiliary area is kept. -/
def auxOffsetOffset : Nat := 1056

/-- Where the size of the auxiliary area is kept. -/
def auxSizeOffset : Nat := 1064

/-- Bytes of the metadata block. -/
def size : Nat := 1072

end Metadata

/-- The static fields of the metadata block. -/
structure Metadata where
  version : UInt32
  compatVersion : UInt32
  dataOffset : UInt64
  dataSize : UInt64
  auxOffset : UInt64
  auxSize : UInt64
deriving DecidableEq, Repr

/-! ## Regions -/

/-- The memory of one ring, metadata block first. -/
structure Region where
  /-- The base address modulo eight; `none` when there is no memory. -/
  base : Option Nat
  /-- Bytes of the region. -/
  size : Nat
  cells : Cells
  dataPages : UInt32
  pageSize : UInt64
  /-- The event descriptor behind the region, or `-1`. -/
  descriptor : Int := -1
deriving DecidableEq, Repr

namespace Region

/-- A region without memory. -/
def absent : Region where
  base := none
  size := 0
  cells := .blank
  dataPages := 0
  pageSize := 0

instance : Inhabited Region := ⟨absent⟩

/-- Whether the region holds no byte. -/
def isEmpty (region : Region) : Bool :=
  region.size = 0

/-- Whether the base address is a multiple of eight. -/
def isAligned (region : Region) : Bool :=
  region.base.getD 0 % 8 = 0

/-- A zeroed region of exactly `size` bytes whose base lies `skew` bytes past a
multiple of eight. -/
def zeroed (size skew : Nat) (dataPages : UInt32) (pageSize : UInt64) : Region where
  base := some (skew % 8)
  size := size
  cells := .blank
  dataPages := dataPages
  pageSize := pageSize

/-- Release the memory; page count and page size stay on record. -/
def close (region : Region) : Region :=
  { region with base := none, size := 0, cells := .blank }

/-! ### Linear access -/

/-- The bytes from `offset` on. -/
def load (region : Region) (offset count : Nat) : Bytes :=
  gather region.cells (fun i => offset + i) count

/-- Write bytes from `offset` on. -/
def store (region : Region) (offset : Nat) (bytes : Bytes) : Region :=
  { region with cells := scatter (fun i => offset + i) 0 bytes region.cells }

/-- Whether `count` bytes from `offset` on lie in memory. -/
def spans (region : Region) (offset count : Nat) : Bool :=
  region.base.isSome && offset + count ≤ region.size

/-! ### Metadata -/

/-- The 64-bit word at `offset`. -/
def word64 (region : Region) (offset : Nat) : UInt64 :=
  (region.load offset 8).word64At 0

/-- The 32-bit word at `offset`. -/
def word32 (region : Region) (offset : Nat) : UInt32 :=
  (region.load offset 4).word32At 0

/-- The cursor that the producer published. -/
def head (region : Region) : UInt64 :=
  region.word64 Metadata.headOffset

/-- The cursor that the consumer published. -/
def tail (region : Region) : UInt64 :=
  region.word64 Metadata.tailOffset

/-- Publish a producer cursor. -/
def publishHead (region : Region) (cursor : UInt64) : Region :=
  region.store Metadata.headOffset (Bytes.ofWord64 cursor)

/-- Publish a consumer cursor. -/
def publishTail (region : Region) (cursor : UInt64) : Region :=
  region.store Metadata.tailOffset (Bytes.ofWord64 cursor)

/-- The static fields of the metadata block. -/
def metadata (region : Region) : Metadata where
  version := region.word32 Metadata.versionOffset
  compatVersion := region.word32 Metadata.compatVersionOffset
  dataOffset := region.word64 Metadata.dataOffsetOffset
  dataSize := region.word64 Metadata.dataSizeOffset
  auxOffset := region.word64 Metadata.auxOffsetOffset
  auxSize := region.word64 Metadata.auxSizeOffset

/-! ### Allocation -/

/-- Why a region cannot be laid out. -/
inductive LayoutFault
  | zeroPageSize
  | dataTooLarge
  | regionTooLarge
  | unrepresentable
  | pageCountNotPowerOfTwo
  | kernelUnavailable
deriving DecidableEq, Repr

/-- The text shown for a layout fault. -/
def LayoutFault.message : LayoutFault → String
  | .zeroPageSize => "invalid ring layout: page size must be positive"
  | .dataTooLarge => "invalid ring layout: data region exceeds address space"
  | .regionTooLarge => "invalid ring layout: region exceeds address space"
  | .unrepresentable => "invalid ring layout: unrepresentable allocation"
  | .pageCountNotPowerOfTwo => "invalid ring layout: data page count must be a power of two"
  | .kernelUnavailable => "kernel perf rings are not available"

/-- The page size of the system. -/
def systemPageSize : UInt64 := 4096

/-- Bytes set aside for metadata: the block rounded up to whole pages. -/
def metadataSize (pageSize : Nat) : Nat :=
  (Metadata.size + pageSize - 1) / pageSize * pageSize

/-- The alignment asked for, which bounds the largest allocation. -/
def alignment (pageSize : Nat) : Nat :=
  if pageSize.isPowerOfTwo then max 8 (min pageSize 4096) else 8

/-- Lay out a zeroed region with `dataPages` data pages.  Where the metadata takes
more than one page, its size and the size of the data region are advertised in
the metadata; otherwise both fields stay zero. -/
def allocate (dataPages : UInt32) (pageSize : UInt64) : Except LayoutFault Region :=
  let page := pageSize.toNat
  let dataSize := page * dataPages.toNat
  let total := metadataSize page + dataSize
  if page = 0 then .error .zeroPageSize
  else if UInt64.size ≤ dataSize then .error .dataTooLarge
  else if UInt64.size ≤ total then .error .regionTooLarge
  else if UInt64.size / 2 - alignment page < total then .error .unrepresentable
  else
    let region := zeroed total 0 dataPages pageSize
    if metadataSize page = page then .ok region
    else
      .ok ((region.store Metadata.dataOffsetOffset
          (Bytes.littleEndian 8 (metadataSize page))).store
        Metadata.dataSizeOffset (Bytes.littleEndian 8 dataSize))

end Region

end CacheMeter.Ring
