import CacheMeter.Bytes.Word

/-!
# Reading bytes as UTF-8 text

Bytes are read into characters and ill-formed subparts.  A subpart is maximal: it
ends before the first byte that cannot continue the sequence begun, and that byte
starts anew.

Main results:

- `pieces` lists characters and ill-formed subparts in order.
- `decode?` accepts well-formed text only; `decodeLossy` puts U+FFFD for every
  ill-formed subpart.
-/

namespace CacheMeter.Bytes

/-! ## Byte classes -/

/-- An inclusive range of byte values. -/
structure ByteRange where
  low : UInt8
  high : UInt8
deriving DecidableEq, Repr

/-- Whether a byte lies in the range. -/
def ByteRange.contains (range : ByteRange) (byte : UInt8) : Bool :=
  range.low ≤ byte && byte ≤ range.high

/-- The bytes that continue a sequence. -/
def continuation : ByteRange := ⟨0x80, 0xBF⟩

/-- The ranges in which the bytes after a lead byte must lie, or `none` where no
sequence starts with that byte.  The narrowed ranges exclude overlong forms,
surrogates and values above U+10FFFF. -/
def followers (lead : UInt8) : Option (List ByteRange) :=
  if lead < 0x80 then some []
  else if lead < 0xC2 then none
  else if lead < 0xE0 then some [continuation]
  else if lead = 0xE0 then some [⟨0xA0, 0xBF⟩, continuation]
  else if lead = 0xED then some [⟨0x80, 0x9F⟩, continuation]
  else if lead < 0xF0 then some [continuation, continuation]
  else if lead = 0xF0 then some [⟨0x90, 0xBF⟩, continuation, continuation]
  else if lead < 0xF4 then some [continuation, continuation, continuation]
  else if lead = 0xF4 then some [⟨0x80, 0x8F⟩, continuation, continuation]
  else none

/-- The bits that a lead byte contributes when `count` bytes follow it. -/
def leadBits (lead : UInt8) (count : Nat) : Nat :=
  if count = 0 then lead.toNat else lead.toNat % Nat.pow 2 (6 - count)

/-! ## Pieces -/

/-- A sequence begun: the ranges of the bytes still missing, and the bits read. -/
structure Sequence where
  missing : List ByteRange
  value : Nat
deriving Repr

/-- Read one byte where a character starts.  `none` in the output marks an
ill-formed subpart. -/
def startSequence (byte : UInt8) : List (Option Char) × Option Sequence :=
  match followers byte with
  | none => ([none], none)
  | some [] => ([some (Char.ofNat byte.toNat)], none)
  | some missing => ([], some ⟨missing, leadBits byte missing.length⟩)

/-- Read one byte, continuing the sequence begun if the byte fits. -/
def readByte (pending : Option Sequence) (byte : UInt8) :
    List (Option Char) × Option Sequence :=
  match pending with
  | none => startSequence byte
  | some ⟨[], _⟩ => startSequence byte
  | some ⟨range :: missing, value⟩ =>
    if range.contains byte then
      let value := value * 64 + byte.toNat % 64
      if missing = [] then ([some (Char.ofNat value)], none)
      else ([], some ⟨missing, value⟩)
    else
      let (output, pending) := startSequence byte
      (none :: output, pending)

/-- Characters and ill-formed subparts (`none`), given the sequence begun. -/
def piecesFrom : Option Sequence → Bytes → List (Option Char)
  | none, [] => []
  | some _, [] => [none]
  | pending, byte :: rest =>
    let (output, pending) := readByte pending byte
    output ++ piecesFrom pending rest

/-- The characters and ill-formed subparts (`none`) of a byte sequence, in order. -/
def pieces (bytes : Bytes) : List (Option Char) :=
  piecesFrom none bytes

/-! ## Text -/

/-- What stands for an ill-formed subpart. -/
def replacement : Char := '\uFFFD'

/-- The text of the bytes, each ill-formed subpart replaced by U+FFFD. -/
def decodeLossy (bytes : Bytes) : String :=
  String.ofList (bytes.pieces.map fun piece => piece.getD replacement)

/-- The text of the bytes if they are well-formed throughout. -/
def decode? (bytes : Bytes) : Option String :=
  (bytes.pieces.mapM id).map String.ofList

end CacheMeter.Bytes
