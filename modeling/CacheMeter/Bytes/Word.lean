/-!
# Little-endian words

Rings and messages store every number least significant byte first.

Main results:

- `littleEndian` and `ofLittleEndian` are inverse up to the width:
  `ofLittleEndian_littleEndian` and `littleEndian_ofLittleEndian`.
- `length_littleEndian` fixes the width of an encoded number.
- `word16At_append`, `word32At_append` and `word64At_append` read a word back from
  where it was written.
-/

namespace CacheMeter

/-- A sequence of bytes in the order in which they lie in memory. -/
abbrev Bytes := List UInt8

namespace Bytes

/-! ## Numbers of any width -/

/-- The `width` low-order bytes of `n`, least significant first. -/
def littleEndian : Nat → Nat → Bytes
  | 0, _ => []
  | width + 1, n => UInt8.ofNat (n % 256) :: littleEndian width (n / 256)

/-- The number with the given bytes, least significant first. -/
def ofLittleEndian : Bytes → Nat
  | [] => 0
  | byte :: rest => byte.toNat + 256 * ofLittleEndian rest

/-- A number is written with as many bytes as asked for. -/
@[simp]
theorem length_littleEndian (width n : Nat) : (littleEndian width n).length = width := by
  induction width generalizing n with
  | zero => rfl
  | succ width ih => simp [littleEndian, ih]

/-- Read back, it is what is left of it in so many bytes. -/
theorem ofLittleEndian_littleEndian (width n : Nat) :
    ofLittleEndian (littleEndian width n) = n % Nat.pow 256 width := by
  induction width generalizing n with
  | zero => simp [littleEndian, ofLittleEndian, Nat.mod_one]
  | succ width ih =>
    have hbyte : (UInt8.ofNat (n % 256)).toNat = n % 256 := by
      simp [UInt8.toNat_ofNat']
    have hpow : Nat.pow 256 (width + 1) = 256 * Nat.pow 256 width :=
      Nat.mul_comm (Nat.pow 256 width) 256
    rw [littleEndian, ofLittleEndian, ih, hbyte, hpow, Nat.mod_mul]

/-- Bytes that are read and written again are the same. -/
theorem littleEndian_ofLittleEndian (bytes : Bytes) :
    littleEndian bytes.length (ofLittleEndian bytes) = bytes := by
  induction bytes with
  | nil => rfl
  | cons byte rest ih =>
    have hlt := byte.toNat_lt
    have hmod : (byte.toNat + 256 * ofLittleEndian rest) % 256 = byte.toNat := by omega
    have hdiv : (byte.toNat + 256 * ofLittleEndian rest) / 256 = ofLittleEndian rest := by
      omega
    simp only [List.length_cons, ofLittleEndian, littleEndian, hmod, hdiv, ih]
    simp

/-! ## Words -/

/-- The two bytes of a 16-bit word. -/
def ofWord16 (word : UInt16) : Bytes := littleEndian 2 word.toNat

/-- The four bytes of a 32-bit word. -/
def ofWord32 (word : UInt32) : Bytes := littleEndian 4 word.toNat

/-- The eight bytes of a 64-bit word. -/
def ofWord64 (word : UInt64) : Bytes := littleEndian 8 word.toNat

/-- The `size` bytes that start at `offset`. -/
def field (bytes : Bytes) (offset size : Nat) : Bytes :=
  (bytes.drop offset).take size

/-- The 16-bit word stored at `offset`. -/
def word16At (bytes : Bytes) (offset : Nat) : UInt16 :=
  UInt16.ofNat (ofLittleEndian (bytes.field offset 2))

/-- The 32-bit word stored at `offset`. -/
def word32At (bytes : Bytes) (offset : Nat) : UInt32 :=
  UInt32.ofNat (ofLittleEndian (bytes.field offset 4))

/-- The 64-bit word stored at `offset`. -/
def word64At (bytes : Bytes) (offset : Nat) : UInt64 :=
  UInt64.ofNat (ofLittleEndian (bytes.field offset 8))

/-! ## Reading back -/

/-- A word of 16 bits has two bytes. -/
@[simp]
theorem length_ofWord16 (word : UInt16) : (ofWord16 word).length = 2 :=
  length_littleEndian 2 word.toNat

/-- A word of 32 bits has four bytes. -/
@[simp]
theorem length_ofWord32 (word : UInt32) : (ofWord32 word).length = 4 :=
  length_littleEndian 4 word.toNat

/-- A word of 64 bits has eight bytes. -/
@[simp]
theorem length_ofWord64 (word : UInt64) : (ofWord64 word).length = 8 :=
  length_littleEndian 8 word.toNat

/-- A field that fills the middle of a sequence is that middle part. -/
theorem field_append {front middle back : Bytes} {offset size : Nat}
    (hoffset : front.length = offset) (hsize : middle.length = size) :
    (front ++ (middle ++ back)).field offset size = middle := by
  subst hoffset
  subst hsize
  simp [field]

/-- A word of 16 bits reads back from where it was written. -/
theorem word16At_append (front back : Bytes) {offset : Nat} (word : UInt16)
    (hoffset : front.length = offset) :
    (front ++ (ofWord16 word ++ back)).word16At offset = word := by
  have hlt := word.toNat_lt
  rw [word16At, field_append hoffset (length_ofWord16 word), ofWord16,
    ofLittleEndian_littleEndian, Nat.mod_eq_of_lt (by omega), UInt16.ofNat_toNat]

/-- A word of 32 bits reads back from where it was written. -/
theorem word32At_append (front back : Bytes) {offset : Nat} (word : UInt32)
    (hoffset : front.length = offset) :
    (front ++ (ofWord32 word ++ back)).word32At offset = word := by
  have hlt := word.toNat_lt
  rw [word32At, field_append hoffset (length_ofWord32 word), ofWord32,
    ofLittleEndian_littleEndian, Nat.mod_eq_of_lt (by omega), UInt32.ofNat_toNat]

/-- A word of 64 bits reads back from where it was written. -/
theorem word64At_append (front back : Bytes) {offset : Nat} (word : UInt64)
    (hoffset : front.length = offset) :
    (front ++ (ofWord64 word ++ back)).word64At offset = word := by
  have hlt := word.toNat_lt
  rw [word64At, field_append hoffset (length_ofWord64 word), ofWord64,
    ofLittleEndian_littleEndian, Nat.mod_eq_of_lt (by omega), UInt64.ofNat_toNat]

end Bytes

end CacheMeter
