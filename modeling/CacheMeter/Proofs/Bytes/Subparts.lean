import Mathlib
import CacheMeter.Bytes.Utf8

/-!
# Characters and ill-formed subparts

Bytes that need not be text are read all the same.  Where a character is written, it is read.
Where none is, some bytes are read as one ill-formed subpart: as many as the written form of some
character begins with, or a single byte if there is no such character.  That leaves no choice,
and the table of followers, which says what may come after a lead byte, makes the same one.

Main results:

- Structure `Subpart`: the ill-formed subpart at the front of bytes.
- Inductive `Reads`: bytes are read from the front, character by character and subpart by subpart.
- Theorems `exists_written` and `exists_followers`: the table of followers against the written
  forms of characters.
- Theorem `reads_iff`: the reader reads characters and ill-formed subparts.
- Theorem `decodeLossy_toUTF8`: text that is written out is read back.
-/

namespace CacheMeter.Bytes

/-! ## Reading -/

/-- The written form of some character begins with the bytes. -/
def Begins (bytes : Bytes) : Prop :=
  ∃ c, bytes <+: String.utf8EncodeChar c

/-- The bytes that are one ill-formed subpart in front of the rest. -/
structure Subpart (part rest : Bytes) : Prop where
  /-- No character is written there. -/
  unreadable : ∀ c, ¬ String.utf8EncodeChar c <+: part ++ rest
  ne_nil : part ≠ []
  one_or_begins : part.length = 1 ∨ Begins part
  longest : ∀ other, other <+: part ++ rest → other.length = 1 ∨ Begins other →
    other.length ≤ part.length

/-- Bytes are read from the front.  An ill-formed subpart reads as `none`. -/
inductive Reads : Bytes → List (Option Char) → Prop
  | nil : Reads [] []
  | char {rest : Bytes} {pieces : List (Option Char)} (c : Char) (hrest : Reads rest pieces) :
    Reads (String.utf8EncodeChar c ++ rest) (some c :: pieces)
  | subpart {part rest : Bytes} {pieces : List (Option Char)} (hpart : Subpart part rest)
    (hrest : Reads rest pieces) : Reads (part ++ rest) (none :: pieces)

/-- Where no character is written, some bytes are an ill-formed subpart. -/
theorem exists_subpart {bytes : Bytes} (hne : bytes ≠ [])
    (hnone : ∀ c, ¬ String.utf8EncodeChar c <+: bytes) :
    ∃ part rest, bytes = part ++ rest ∧ Subpart part rest := by
  classical
  let P (count : Nat) : Prop := count = 1 ∨ Begins (bytes.take count)
  let most := Nat.findGreatest P bytes.length
  have hone : 1 ≤ bytes.length := List.length_pos_of_ne_nil hne
  have hmost : P most := Nat.findGreatest_spec hone (.inl rfl)
  have hpos : 1 ≤ most := Nat.le_findGreatest hone (.inl rfl)
  have hle : most ≤ bytes.length := Nat.findGreatest_le _
  have hlength : (bytes.take most).length = most := List.length_take_of_le hle
  refine ⟨bytes.take most, bytes.drop most, (List.take_append_drop _ _).symm, ?_, ?_, ?_, ?_⟩
  · rwa [List.take_append_drop]
  · rw [← List.length_pos_iff_ne_nil, hlength]
    exact hpos
  · rw [hlength]
    exact hmost
  · rw [List.take_append_drop, hlength]
    intro other hbegin hother
    refine Nat.le_findGreatest hbegin.length_le (hother.imp id fun hbegins => ?_)
    rwa [← List.prefix_iff_eq_take.mp hbegin]

/-- Every sequence of bytes can be read. -/
theorem exists_reads (bytes : Bytes) : ∃ pieces, Reads bytes pieces := by
  induction hlength : bytes.length using Nat.strong_induction_on generalizing bytes with
  | _ length ih =>
    by_cases hnil : bytes = []
    · exact ⟨[], hnil ▸ .nil⟩
    by_cases hchar : ∃ c, String.utf8EncodeChar c <+: bytes
    · obtain ⟨c, rest, rfl⟩ := hchar
      have hpos := List.length_pos_of_ne_nil (String.utf8EncodeChar_ne_nil (c := c))
      rw [List.length_append] at hlength
      obtain ⟨pieces, hpieces⟩ := ih rest.length (by omega) rest rfl
      exact ⟨_, .char c hpieces⟩
    · obtain ⟨part, rest, rfl, hpart⟩ := exists_subpart hnil (not_exists.mp hchar)
      have hpos := List.length_pos_of_ne_nil hpart.ne_nil
      rw [List.length_append] at hlength
      obtain ⟨pieces, hpieces⟩ := ih rest.length (by omega) rest rfl
      exact ⟨_, .subpart hpart hpieces⟩

/-- A character that is read is written among the bytes. -/
theorem Reads.infix_of_mem {bytes : Bytes} {pieces : List (Option Char)} (h : Reads bytes pieces)
    {c : Char} (hmem : some c ∈ pieces) : String.utf8EncodeChar c <:+: bytes := by
  induction h with
  | nil => exact absurd hmem List.not_mem_nil
  | char first hrest ih =>
    rcases List.mem_cons.mp hmem with heq | hmem
    · rw [Option.some.inj heq]
      exact (List.prefix_append _ _).isInfix
    · exact (ih hmem).trans (List.suffix_append _ _).isInfix
  | subpart hpart hrest ih =>
    rcases List.mem_cons.mp hmem with heq | hmem
    · exact absurd heq (Option.some_ne_none c)
    · exact (ih hmem).trans (List.suffix_append _ _).isInfix

/-! ## The table of followers -/

/-- The bytes lie in the ranges, one by one. -/
def Fits (ranges : List ByteRange) (bytes : Bytes) : Prop :=
  List.Forall₂ (fun range byte => range.contains byte = true) ranges bytes

/-- The value read so far, after more bytes of the sequence. -/
def assemble (value : Nat) (bytes : Bytes) : Nat :=
  bytes.foldl (fun value byte => value * 64 + byte.toNat % 64) value

/-- A range contains the bytes between its ends. -/
theorem contains_iff {range : ByteRange} {byte : UInt8} :
    range.contains byte = true ↔
      range.low.toNat ≤ byte.toNat ∧ byte.toNat ≤ range.high.toNat := by
  simp [ByteRange.contains, UInt8.le_iff_toNat_le]

/-- Bytes that fit begin with one in the first range. -/
theorem Fits.exists_cons {range : ByteRange} {ranges : List ByteRange} {bytes : Bytes}
    (h : Fits (range :: ranges) bytes) :
    ∃ byte rest, (range.low.toNat ≤ byte.toNat ∧ byte.toNat ≤ range.high.toNat) ∧
      Fits ranges rest ∧ bytes = byte :: rest := by
  obtain ⟨byte, rest, hbyte, hrest, rfl⟩ := List.forall₂_cons_left_iff.mp h
  exact ⟨byte, rest, contains_iff.mp hbyte, hrest, rfl⟩

/-- A continuation byte has its two high bits set to 1 and 0. -/
theorem Fits.exists_continuation {ranges : List ByteRange} {bytes : Bytes}
    (h : Fits (continuation :: ranges) bytes) :
    ∃ byte rest, (0x80 ≤ byte.toNat ∧ byte.toNat ≤ 0xBF) ∧ Fits ranges rest ∧
      bytes = byte :: rest :=
  h.exists_cons

theorem Fits.eq_nil {bytes : Bytes} (h : Fits [] bytes) : bytes = [] :=
  List.forall₂_nil_left_iff.mp h

/-- The table, with lead bytes as numbers. -/
theorem followers_eq (lead : UInt8) :
    followers lead =
      if lead.toNat < 0x80 then some []
      else if lead.toNat < 0xC2 then none
      else if lead.toNat < 0xE0 then some [continuation]
      else if lead.toNat = 0xE0 then some [⟨0xA0, 0xBF⟩, continuation]
      else if lead.toNat = 0xED then some [⟨0x80, 0x9F⟩, continuation]
      else if lead.toNat < 0xF0 then some [continuation, continuation]
      else if lead.toNat = 0xF0 then some [⟨0x90, 0xBF⟩, continuation, continuation]
      else if lead.toNat < 0xF4 then some [continuation, continuation, continuation]
      else if lead.toNat = 0xF4 then some [⟨0x80, 0x8F⟩, continuation, continuation]
      else none := by
  simp only [followers, UInt8.lt_iff_toNat_lt, ← UInt8.toNat_inj]
  rfl

/-- A range of bytes that can continue a sequence. -/
def Continues (range : ByteRange) : Prop :=
  0x80 ≤ range.low.toNat ∧ range.low.toNat ≤ range.high.toNat ∧ range.high.toNat ≤ 0xBF

instance (range : ByteRange) : Decidable (Continues range) :=
  inferInstanceAs (Decidable (_ ∧ _ ∧ _))

/-- What the table lets follow, by the length of the sequence.  The byte after the first one rules
out overlong forms, surrogates and values that are too large. -/
theorem followers_cases {lead : UInt8} {ranges : List ByteRange}
    (h : followers lead = some ranges) :
    (lead.toNat < 0x80 ∧ ranges = []) ∨
      ((0xC2 ≤ lead.toNat ∧ lead.toNat < 0xE0) ∧ ranges = [continuation]) ∨
      (∃ first, Continues first ∧ (0xE0 ≤ lead.toNat ∧ lead.toNat < 0xF0) ∧
        (lead.toNat = 0xE0 → 0xA0 ≤ first.low.toNat) ∧
        (lead.toNat = 0xED → first.high.toNat ≤ 0x9F) ∧ ranges = [first, continuation]) ∨
      ∃ first, Continues first ∧ (0xF0 ≤ lead.toNat ∧ lead.toNat ≤ 0xF4) ∧
        (lead.toNat = 0xF0 → 0x90 ≤ first.low.toNat) ∧
        (lead.toNat = 0xF4 → first.high.toNat ≤ 0x8F) ∧
        ranges = [first, continuation, continuation] := by
  have hrest : Continues continuation := by decide
  rw [followers_eq] at h
  split_ifs at h <;> obtain rfl := Option.some.inj h
  · exact .inl ⟨‹_›, rfl⟩
  · exact .inr (.inl ⟨by omega, rfl⟩)
  · exact .inr (.inr (.inl ⟨⟨0xA0, 0xBF⟩, by decide, by omega, fun _ => by decide,
      by omega, rfl⟩))
  · exact .inr (.inr (.inl ⟨⟨0x80, 0x9F⟩, by decide, by omega, by omega,
      fun _ => by decide, rfl⟩))
  · exact .inr (.inr (.inl ⟨continuation, hrest, by omega, by omega, by omega, rfl⟩))
  · exact .inr (.inr (.inr ⟨⟨0x90, 0xBF⟩, by decide, by omega,
      fun _ => by decide, by omega, rfl⟩))
  · exact .inr (.inr (.inr ⟨continuation, hrest, by omega, by omega, by omega, rfl⟩))
  · exact .inr (.inr (.inr ⟨⟨0x80, 0x8F⟩, by decide, by omega, by omega,
      fun _ => by decide, rfl⟩))

/-- Every range of the table holds some byte. -/
theorem contains_low_of_followers {lead : UInt8} {ranges : List ByteRange}
    (h : followers lead = some ranges) {range : ByteRange} (hmem : range ∈ ranges) :
    range.contains range.low = true := by
  have hcontinues : Continues range := by
    have hrest : Continues continuation := by decide
    rcases followers_cases h with ⟨-, rfl⟩ | ⟨-, rfl⟩ | ⟨first, hfirst, -, -, -, rfl⟩ |
      ⟨first, hfirst, -, -, -, rfl⟩
    all_goals
      simp only [List.mem_cons, List.not_mem_nil, or_false, or_self] at hmem
    · rwa [hmem]
    · rcases hmem with rfl | rfl <;> assumption
    · rcases hmem with rfl | rfl <;> assumption
  exact contains_iff.mpr ⟨le_rfl, hcontinues.2.1⟩

/-! ### Written forms -/

/-- There is a character for every value outside the surrogates. -/
theorem exists_char {value : Nat} (h : value < 0xD800 ∨ 0xDFFF < value ∧ value < 0x110000) :
    ∃ c : Char, c.val.toNat = value := by
  refine ⟨Char.ofNat value, ?_⟩
  have hvalue := Char.toNat_ofNat value
  rwa [if_pos h] at hvalue

section Written

variable {lead : UInt8} {first : ByteRange} {bytes : Bytes}

/-- A byte below 128 is a character written. -/
theorem exists_written_one (hlead : lead.toNat < 0x80) (hfits : Fits [] bytes) :
    ∃ c, String.utf8EncodeChar c = lead :: bytes ∧ c.val.toNat = assemble lead.toNat bytes := by
  obtain rfl := hfits.eq_nil
  obtain ⟨c, hvalue⟩ := @exists_char lead.toNat (by omega)
  refine ⟨c, ?_, hvalue⟩
  simp only [String.utf8EncodeChar, hvalue]
  rw [if_pos (by omega), UInt8.ofNat_toNat]

/-- So are two bytes that fit. -/
theorem exists_written_two (hlead : 0xC2 ≤ lead.toNat ∧ lead.toNat < 0xE0)
    (hfits : Fits [continuation] bytes) :
    ∃ c, String.utf8EncodeChar c = lead :: bytes ∧
      c.val.toNat = assemble (lead.toNat % 32) bytes := by
  obtain ⟨b, _, hb, hnil, rfl⟩ := hfits.exists_continuation
  obtain rfl := hnil.eq_nil
  obtain ⟨c, hvalue⟩ := @exists_char (lead.toNat % 32 * 64 + b.toNat % 64) (by omega)
  refine ⟨c, ?_, hvalue⟩
  simp only [String.utf8EncodeChar, hvalue]
  rw [if_neg (by omega), if_pos (by omega)]
  simp only [List.cons.injEq, ← UInt8.toNat_inj, UInt8.toNat_ofNat', and_true]
  omega

/-- Of three bytes, the first two rule out overlong forms and surrogates. -/
theorem exists_written_three (hlead : 0xE0 ≤ lead.toNat ∧ lead.toNat < 0xF0)
    (hfits : Fits [first, continuation] bytes)
    (hfirst : Continues first)
    (hlow : lead.toNat = 0xE0 → 0xA0 ≤ first.low.toNat)
    (hhigh : lead.toNat = 0xED → first.high.toNat ≤ 0x9F) :
    ∃ c, String.utf8EncodeChar c = lead :: bytes ∧
      c.val.toNat = assemble (lead.toNat % 16) bytes := by
  obtain ⟨hbegin, -, hend⟩ := hfirst
  obtain ⟨a, _, ha, hsecond, rfl⟩ := hfits.exists_cons
  obtain ⟨b, _, hb, hnil, rfl⟩ := hsecond.exists_continuation
  obtain rfl := hnil.eq_nil
  obtain ⟨c, hvalue⟩ := @exists_char
    ((lead.toNat % 16 * 64 + a.toNat % 64) * 64 + b.toNat % 64) (by omega)
  refine ⟨c, ?_, hvalue⟩
  simp only [String.utf8EncodeChar, hvalue]
  rw [if_neg (by omega), if_neg (by omega), if_pos (by omega)]
  simp only [List.cons.injEq, ← UInt8.toNat_inj, UInt8.toNat_ofNat', and_true]
  omega

/-- Of four bytes, the first two rule out overlong forms and values that are too large. -/
theorem exists_written_four (hlead : 0xF0 ≤ lead.toNat ∧ lead.toNat ≤ 0xF4)
    (hfits : Fits [first, continuation, continuation] bytes)
    (hfirst : Continues first)
    (hlow : lead.toNat = 0xF0 → 0x90 ≤ first.low.toNat)
    (hhigh : lead.toNat = 0xF4 → first.high.toNat ≤ 0x8F) :
    ∃ c, String.utf8EncodeChar c = lead :: bytes ∧
      c.val.toNat = assemble (lead.toNat % 8) bytes := by
  obtain ⟨hbegin, -, hend⟩ := hfirst
  obtain ⟨a, _, ha, hsecond, rfl⟩ := hfits.exists_cons
  obtain ⟨b, _, hb, hthird, rfl⟩ := hsecond.exists_continuation
  obtain ⟨d, _, hd, hnil, rfl⟩ := hthird.exists_continuation
  obtain rfl := hnil.eq_nil
  obtain ⟨c, hvalue⟩ := @exists_char
    (((lead.toNat % 8 * 64 + a.toNat % 64) * 64 + b.toNat % 64) * 64 + d.toNat % 64) (by omega)
  refine ⟨c, ?_, hvalue⟩
  simp only [String.utf8EncodeChar, hvalue]
  rw [if_neg (by omega), if_neg (by omega), if_neg (by omega)]
  simp only [List.cons.injEq, ← UInt8.toNat_inj, UInt8.toNat_ofNat', and_true]
  omega

end Written

/-- Bytes that the table lets follow a lead byte are written for the character of their value. -/
theorem exists_written {lead : UInt8} {ranges : List ByteRange} {bytes : Bytes}
    (h : followers lead = some ranges) (hfits : Fits ranges bytes) :
    ∃ c, String.utf8EncodeChar c = lead :: bytes ∧
      c.val.toNat = assemble (leadBits lead ranges.length) bytes := by
  rcases followers_cases h with ⟨hlead, rfl⟩ | ⟨hlead, rfl⟩ |
    ⟨first, hfirst, hlead, hlow, hhigh, rfl⟩ | ⟨first, hfirst, hlead, hlow, hhigh, rfl⟩
  · exact exists_written_one hlead hfits
  · exact exists_written_two hlead hfits
  · exact exists_written_three hlead hfits hfirst hlow hhigh
  · exact exists_written_four hlead hfits hfirst hlow hhigh

/-! ### The table covers them -/

section Covered

variable {a b c d : UInt8}

/-- The first byte of a character of one byte needs no followers. -/
theorem exists_fits_one (ha : a.toNat < 0x80) :
    ∃ ranges, followers a = some ranges ∧ Fits ranges [] := by
  refine ⟨[], ?_, .nil⟩
  rw [followers_eq, if_pos ha]

/-- That of two bytes needs one, which fits. -/
theorem exists_fits_two (ha : 0xC2 ≤ a.toNat ∧ a.toNat < 0xE0)
    (hb : 0x80 ≤ b.toNat ∧ b.toNat ≤ 0xBF) :
    ∃ ranges, followers a = some ranges ∧ Fits ranges [b] := by
  refine ⟨[continuation], ?_, .cons (contains_iff.mpr hb) .nil⟩
  rw [followers_eq, if_neg (by omega), if_neg (by omega), if_pos ha.2]

/-- That of three bytes needs two, which fit. -/
theorem exists_fits_three (ha : 0xE0 ≤ a.toNat ∧ a.toNat < 0xF0)
    (hb : 0x80 ≤ b.toNat ∧ b.toNat ≤ 0xBF) (hc : 0x80 ≤ c.toNat ∧ c.toNat ≤ 0xBF)
    (hlow : a.toNat = 0xE0 → 0xA0 ≤ b.toNat) (hhigh : a.toNat = 0xED → b.toNat ≤ 0x9F) :
    ∃ ranges, followers a = some ranges ∧ Fits ranges [b, c] := by
  have hlast : Fits [continuation] [c] := .cons (contains_iff.mpr hc) .nil
  by_cases hfirst : a.toNat = 0xE0
  · refine ⟨[⟨0xA0, 0xBF⟩, continuation], ?_, .cons (contains_iff.mpr ⟨hlow hfirst, hb.2⟩) hlast⟩
    rw [followers_eq, hfirst]
    rfl
  by_cases hsurrogate : a.toNat = 0xED
  · refine ⟨[⟨0x80, 0x9F⟩, continuation], ?_,
      .cons (contains_iff.mpr ⟨hb.1, hhigh hsurrogate⟩) hlast⟩
    rw [followers_eq, hsurrogate]
    rfl
  · refine ⟨[continuation, continuation], ?_, .cons (contains_iff.mpr hb) hlast⟩
    rw [followers_eq, if_neg (by omega), if_neg (by omega), if_neg (by omega), if_neg hfirst,
      if_neg hsurrogate, if_pos ha.2]

/-- That of four bytes needs three, which fit. -/
theorem exists_fits_four (ha : 0xF0 ≤ a.toNat ∧ a.toNat ≤ 0xF4)
    (hb : 0x80 ≤ b.toNat ∧ b.toNat ≤ 0xBF) (hc : 0x80 ≤ c.toNat ∧ c.toNat ≤ 0xBF)
    (hd : 0x80 ≤ d.toNat ∧ d.toNat ≤ 0xBF) (hlow : a.toNat = 0xF0 → 0x90 ≤ b.toNat)
    (hhigh : a.toNat = 0xF4 → b.toNat ≤ 0x8F) :
    ∃ ranges, followers a = some ranges ∧ Fits ranges [b, c, d] := by
  have hlast : Fits [continuation, continuation] [c, d] :=
    .cons (contains_iff.mpr hc) (.cons (contains_iff.mpr hd) .nil)
  by_cases hfirst : a.toNat = 0xF0
  · refine ⟨⟨0x90, 0xBF⟩ :: [continuation, continuation], ?_,
      .cons (contains_iff.mpr ⟨hlow hfirst, hb.2⟩) hlast⟩
    rw [followers_eq, hfirst]
    rfl
  by_cases hmost : a.toNat = 0xF4
  · refine ⟨⟨0x80, 0x8F⟩ :: [continuation, continuation], ?_,
      .cons (contains_iff.mpr ⟨hb.1, hhigh hmost⟩) hlast⟩
    rw [followers_eq, hmost]
    rfl
  · refine ⟨continuation :: [continuation, continuation], ?_,
      .cons (contains_iff.mpr hb) hlast⟩
    rw [followers_eq, if_neg (by omega), if_neg (by omega), if_neg (by omega),
      if_neg (by omega), if_neg (by omega), if_neg (by omega), if_neg hfirst, if_pos (by omega)]

end Covered

/-- The written form of a character is a lead byte with bytes behind it that the table lets
follow. -/
theorem exists_followers (c : Char) :
    ∃ lead bytes, String.utf8EncodeChar c = lead :: bytes ∧
      ∃ ranges, followers lead = some ranges ∧ Fits ranges bytes := by
  have hvalid : c.val.toNat < 0xD800 ∨ 0xDFFF < c.val.toNat ∧ c.val.toNat < 0x110000 := c.valid
  generalize hvalue : c.val.toNat = value at hvalid
  simp only [String.utf8EncodeChar, hvalue]
  split_ifs with hone htwo hthree
  · refine ⟨_, _, rfl, exists_fits_one ?_⟩
    rw [UInt8.toNat_ofNat']
    omega
  · refine ⟨_, _, rfl, exists_fits_two ?_ ?_⟩ <;> rw [UInt8.toNat_ofNat'] <;> omega
  · refine ⟨_, _, rfl, exists_fits_three ?_ ?_ ?_ ?_ ?_⟩ <;> rw [UInt8.toNat_ofNat'] <;>
      try rw [UInt8.toNat_ofNat']
    all_goals omega
  · refine ⟨_, _, rfl, exists_fits_four ?_ ?_ ?_ ?_ ?_ ?_⟩ <;> rw [UInt8.toNat_ofNat'] <;>
      try rw [UInt8.toNat_ofNat']
    all_goals omega

/-- Characters that are written alike are the same. -/
theorem utf8EncodeChar_injective : Function.Injective String.utf8EncodeChar := by
  intro a b h
  have hencoded : [a].utf8Encode ++ ByteArray.empty = [b].utf8Encode := by
    rw [List.utf8Encode_singleton, List.utf8Encode_singleton, h, ByteArray.append_empty]
  have hbegin := List.isPrefix_of_utf8Encode_append_eq_utf8Encode _ hencoded
  exact (List.prefix_cons_iff.mp hbegin).elim nofun fun ⟨_, heq, _⟩ => (List.cons.inj heq).1

/-! ## The reader -/

/-- A byte that fits is taken into the sequence begun. -/
theorem piecesFrom_of_contains {range : ByteRange} {byte : UInt8}
    (h : range.contains byte = true) (missing : List ByteRange) (value : Nat) (rest : Bytes) :
    piecesFrom (some ⟨range :: missing, value⟩) (byte :: rest) =
      if missing = [] then
        some (Char.ofNat (value * 64 + byte.toNat % 64)) :: piecesFrom none rest
      else piecesFrom (some ⟨missing, value * 64 + byte.toNat % 64⟩) rest := by
  simp only [piecesFrom, readByte, if_pos h]
  split <;> rfl

/-- A byte that does not fit ends the sequence begun and is read anew. -/
theorem piecesFrom_of_not_contains {range : ByteRange} {byte : UInt8}
    (h : ¬ range.contains byte = true) (missing : List ByteRange) (value : Nat) (rest : Bytes) :
    piecesFrom (some ⟨range :: missing, value⟩) (byte :: rest) =
      none :: piecesFrom none (byte :: rest) := by
  simp only [piecesFrom, readByte, if_neg h, List.cons_append]

/-- Followers that fit complete the character. -/
theorem piecesFrom_of_fits {ranges : List ByteRange} {bytes : Bytes} (h : Fits ranges bytes)
    (hne : ranges ≠ []) (value : Nat) (rest : Bytes) :
    piecesFrom (some ⟨ranges, value⟩) (bytes ++ rest) =
      some (Char.ofNat (assemble value bytes)) :: piecesFrom none rest := by
  induction h generalizing value with
  | nil => exact absurd rfl hne
  | @cons range byte ranges bytes hbyte hbytes ih =>
    rw [List.cons_append, piecesFrom_of_contains hbyte]
    cases hbytes with
    | nil => rfl
    | cons hnext hlater => exact ih (List.cons_ne_nil _ _) _

/-- What a sequence begun has still missing does not come next. -/
def Stuck (left : List ByteRange) (rest : Bytes) : Prop :=
  ∀ range ∈ left.head?, ∀ byte ∈ rest.head?, ¬ range.contains byte = true

/-- A byte that does not fit ends the subpart, and is looked at again. -/
theorem piecesFrom_of_stuck {taken left : List ByteRange} {bytes rest : Bytes}
    (h : Fits taken bytes) (hne : left ≠ []) (hstuck : Stuck left rest) (value : Nat) :
    piecesFrom (some ⟨taken ++ left, value⟩) (bytes ++ rest) =
      none :: piecesFrom none rest := by
  induction h generalizing value with
  | nil =>
    obtain ⟨range, missing, rfl⟩ := List.exists_cons_of_ne_nil hne
    cases rest with
    | nil => rfl
    | cons byte rest =>
      exact piecesFrom_of_not_contains (hstuck range rfl byte rfl) missing value rest
  | cons hbyte hbytes ih =>
    rw [List.cons_append, List.cons_append, piecesFrom_of_contains hbyte,
      if_neg (List.append_ne_nil_of_right_ne_nil _ hne)]
    exact ih _

theorem piecesFrom_lead {lead : UInt8} {ranges : List ByteRange} (h : followers lead = some ranges)
    (hne : ranges ≠ []) (rest : Bytes) :
    piecesFrom none (lead :: rest) =
      piecesFrom (some ⟨ranges, leadBits lead ranges.length⟩) rest := by
  obtain ⟨range, missing, rfl⟩ := List.exists_cons_of_ne_nil hne
  simp only [piecesFrom, readByte, startSequence, h, List.nil_append]

/-- A lead byte and the bytes that the table lets follow it are read as the character of their
value. -/
theorem piecesFrom_of_followers {lead : UInt8} {ranges : List ByteRange} {bytes : Bytes}
    (h : followers lead = some ranges) (hfits : Fits ranges bytes) (rest : Bytes) :
    piecesFrom none (lead :: (bytes ++ rest)) =
      some (Char.ofNat (assemble (leadBits lead ranges.length) bytes)) :: piecesFrom none rest := by
  cases hfits with
  | nil => simp [piecesFrom, readByte, startSequence, h, assemble, leadBits]
  | cons hbyte hbytes =>
    rw [piecesFrom_lead h (List.cons_ne_nil _ _)]
    exact piecesFrom_of_fits (.cons hbyte hbytes) (List.cons_ne_nil _ _) _ _

/-- Where the written form of a character stands, the character is read. -/
theorem piecesFrom_utf8EncodeChar (c : Char) (rest : Bytes) :
    piecesFrom none (String.utf8EncodeChar c ++ rest) = some c :: piecesFrom none rest := by
  obtain ⟨lead, bytes, hform, ranges, hfollowers, hfits⟩ := exists_followers c
  obtain ⟨other, hother, hvalue⟩ := exists_written hfollowers hfits
  obtain rfl : c = other := utf8EncodeChar_injective (hform.trans hother.symm)
  have hread : Char.ofNat (assemble (leadBits lead ranges.length) bytes) = c := by
    rw [← hvalue]
    exact Char.ofNat_toNat c
  rw [hform, List.cons_append, piecesFrom_of_followers hfollowers hfits, hread]

/-! ### Subparts -/

/-- Bytes have only one ill-formed subpart in front. -/
theorem Subpart.unique {part rest part' rest' : Bytes} (h : Subpart part rest)
    (h' : Subpart part' rest') (heq : part ++ rest = part' ++ rest') :
    part = part' ∧ rest = rest' := by
  have hle : part'.length ≤ part.length :=
    h.longest part' (heq ▸ List.prefix_append _ _) h'.one_or_begins
  have hge : part.length ≤ part'.length :=
    h'.longest part (heq ▸ List.prefix_append _ _) h.one_or_begins
  exact List.append_inj heq (Nat.le_antisymm hge hle)

/-- After the first byte of a written form, the table tells what comes. -/
theorem exists_followers_of_prefix {lead : UInt8} {bytes : Bytes}
    (h : Begins (lead :: bytes)) :
    ∃ ranges behind, followers lead = some ranges ∧ Fits ranges behind ∧ bytes <+: behind := by
  obtain ⟨c, hbegin⟩ := h
  obtain ⟨first, behind, hform, ranges, hfollowers, hfits⟩ := exists_followers c
  rw [hform, List.cons_prefix_cons] at hbegin
  exact ⟨ranges, behind, hbegin.1 ▸ hfollowers, hfits, hbegin.2⟩

/-- A byte that starts nothing is an ill-formed subpart. -/
theorem subpart_of_followers_eq_none {lead : UInt8} (h : followers lead = none) (rest : Bytes) :
    Subpart [lead] rest where
  unreadable c hbegin := by
    obtain ⟨first, bytes, hform, ranges, hfollowers, -⟩ := exists_followers c
    rw [hform, List.singleton_append, List.cons_prefix_cons] at hbegin
    rw [hbegin.1, h] at hfollowers
    exact absurd hfollowers nofun
  ne_nil := List.cons_ne_nil _ _
  one_or_begins := .inl rfl
  longest other hbegin hother := by
    rcases hother with hone | hbegins
    · exact hone.le
    cases other with
    | nil => exact Nat.zero_le 1
    | cons first bytes =>
      obtain ⟨ranges, behind, hfollowers, -⟩ := exists_followers_of_prefix hbegins
      rw [List.singleton_append, List.cons_prefix_cons] at hbegin
      rw [hbegin.1, h] at hfollowers
      exact absurd hfollowers nofun

/-- A stuck sequence goes no further. -/
theorem length_le_of_stuck {taken left : List ByteRange} {bytes rest behind other : Bytes}
    (hfits : Fits taken bytes) (hstuck : Stuck left rest) (hbehind : Fits (taken ++ left) behind)
    (hother : other <+: behind) (hbegin : other <+: bytes ++ rest) :
    other.length ≤ bytes.length := by
  by_contra hlonger
  have hbytes : bytes <+: other :=
    List.prefix_of_prefix_length_le (List.prefix_append _ _) hbegin (by omega)
  obtain ⟨more, rfl⟩ := hbytes
  obtain ⟨byte, more, rfl⟩ := List.exists_cons_of_ne_nil (l := more) fun hnil => by
    simp [hnil] at hlonger
  obtain ⟨behind, rfl⟩ := hother
  rw [List.prefix_append_right_inj] at hbegin
  obtain ⟨rest, rfl⟩ := hbegin
  have hleft : Fits left (byte :: more ++ behind) := by
    have hdrop := List.forall₂_drop_append _ _ _ (List.append_assoc bytes _ _ ▸ hbehind)
    rwa [← hfits.length_eq, List.drop_left] at hdrop
  obtain ⟨range, missing, hbyte, -, rfl⟩ := List.forall₂_cons_right_iff.mp hleft
  exact hstuck range rfl byte rfl hbyte

/-- A stuck sequence is an ill-formed subpart. -/
theorem subpart_of_stuck {lead : UInt8} {taken left : List ByteRange} {bytes rest : Bytes}
    (h : followers lead = some (taken ++ left)) (hne : left ≠ []) (hfits : Fits taken bytes)
    (hstuck : Stuck left rest) : Subpart (lead :: bytes) rest where
  unreadable c hbegin := by
    obtain ⟨first, behind, hform, ranges, hfollowers, hbehind⟩ := exists_followers c
    rw [hform, List.cons_append, List.cons_prefix_cons] at hbegin
    obtain rfl := Option.some.inj (h.symm.trans (hbegin.1 ▸ hfollowers))
    have hle := length_le_of_stuck hfits hstuck hbehind List.prefix_rfl hbegin.2
    have hlength := hbehind.length_eq
    have hpos := List.length_pos_of_ne_nil hne
    rw [List.length_append, hfits.length_eq] at hlength
    omega
  ne_nil := List.cons_ne_nil _ _
  one_or_begins := by
    -- The lowest bytes of the missing ranges complete the sequence.
    have hlow : Fits left (left.map ByteRange.low) := by
      rw [Fits, List.forall₂_map_right_iff, List.forall₂_same]
      exact fun range hmem => contains_low_of_followers h (List.mem_append_right _ hmem)
    obtain ⟨c, hform, -⟩ := exists_written h (List.rel_append hfits hlow)
    exact .inr ⟨c, hform ▸ List.prefix_append (lead :: bytes) _⟩
  longest other hbegin hother := by
    rcases hother with hone | hbegins
    · exact hone.trans_le (Nat.succ_le_succ (Nat.zero_le _))
    cases other with
    | nil => exact Nat.zero_le _
    | cons first other =>
      obtain ⟨ranges, behind, hfollowers, hbehind, hother⟩ := exists_followers_of_prefix hbegins
      rw [List.cons_append, List.cons_prefix_cons] at hbegin
      obtain rfl := Option.some.inj (h.symm.trans (hbegin.1 ▸ hfollowers))
      exact Nat.succ_le_succ (length_le_of_stuck hfits hstuck hbehind hother hbegin.2)

/-- A sequence takes the bytes that fit until it is complete or stuck. -/
theorem exists_stuck (ranges : List ByteRange) (bytes : Bytes) :
    ∃ taken left front rest, ranges = taken ++ left ∧ bytes = front ++ rest ∧
      Fits taken front ∧ Stuck left rest := by
  induction ranges generalizing bytes with
  | nil => exact ⟨[], [], [], bytes, rfl, rfl, .nil, nofun⟩
  | cons range ranges ih =>
    cases bytes with
    | nil => exact ⟨[], _, [], [], rfl, rfl, .nil, fun _ _ => nofun⟩
    | cons byte bytes =>
      by_cases hbyte : range.contains byte = true
      · obtain ⟨taken, left, front, rest, rfl, rfl, hfits, hstuck⟩ := ih bytes
        exact ⟨range :: taken, left, byte :: front, rest, rfl, rfl, .cons hbyte hfits, hstuck⟩
      · refine ⟨[], _, [], _, rfl, rfl, .nil, fun _ hrange _ hhead => ?_⟩
        obtain rfl := Option.some.inj hrange
        obtain rfl := Option.some.inj hhead
        exact hbyte

/-- An ill-formed subpart is read as one. -/
theorem piecesFrom_subpart {part rest : Bytes} (h : Subpart part rest) :
    piecesFrom none (part ++ rest) = none :: piecesFrom none rest := by
  obtain ⟨lead, behind, rfl⟩ := List.exists_cons_of_ne_nil h.ne_nil
  cases hfollowers : followers lead with
  | none =>
    have hlead := subpart_of_followers_eq_none hfollowers (behind ++ rest)
    obtain ⟨heq, -⟩ := h.unique hlead rfl
    obtain rfl := (List.cons.inj heq).2
    simp [piecesFrom, readByte, startSequence, hfollowers]
  | some ranges =>
    obtain ⟨taken, left, front, rest', rfl, hbytes, hfits, hstuck⟩ :=
      exists_stuck ranges (behind ++ rest)
    have hfront : lead :: behind ++ rest = lead :: front ++ rest' :=
      congrArg (List.cons lead) hbytes
    cases hleft : left with
    | nil =>
      rw [hleft, List.append_nil] at hfollowers
      obtain ⟨c, hform, -⟩ := exists_written hfollowers hfits
      exact absurd (hform ▸ hfront ▸ List.prefix_append _ _) (h.unreadable c)
    | cons range missing =>
      have hne : left ≠ [] := hleft ▸ List.cons_ne_nil _ _
      obtain ⟨heq, rfl⟩ := h.unique (subpart_of_stuck hfollowers hne hfits hstuck) hfront
      rw [heq, List.cons_append,
        piecesFrom_lead hfollowers (List.append_ne_nil_of_right_ne_nil _ hne)]
      exact piecesFrom_of_stuck hfits hne hstuck _

/-- What bytes read as is what the machine makes of them. -/
theorem Reads.pieces_eq {bytes : Bytes} {output : List (Option Char)} (h : Reads bytes output) :
    bytes.pieces = output := by
  induction h with
  | nil => rfl
  | char c hrest ih => exact (piecesFrom_utf8EncodeChar c _).trans (congrArg _ ih)
  | subpart hpart hrest ih => exact (piecesFrom_subpart hpart).trans (congrArg _ ih)

/-- How bytes are read. -/
theorem reads_iff {bytes : Bytes} {output : List (Option Char)} :
    Reads bytes output ↔ bytes.pieces = output := by
  refine ⟨Reads.pieces_eq, ?_⟩
  rintro rfl
  obtain ⟨output, hreads⟩ := exists_reads bytes
  rwa [hreads.pieces_eq]

/-! ## Text -/

/-- Text that is written out is read back. -/
theorem decodeLossy_toUTF8 (text : String) : Bytes.decodeLossy text.toUTF8.data.toList = text := by
  have hpieces (chars : List Char) :
      Bytes.pieces (chars.flatMap String.utf8EncodeChar) = chars.map some := by
    induction chars with
    | nil => rfl
    | cons c chars ih => exact (piecesFrom_utf8EncodeChar c _).trans (congrArg _ ih)
  rw [String.toUTF8_eq_toByteArray, ← String.utf8Encode_toList, List.utf8Encode,
    List.toList_data_toByteArray, decodeLossy, hpieces, List.map_map]
  exact (congrArg String.ofList (List.map_id _)).trans String.ofList_toList

/-- Only NUL is written with a zero byte. -/
theorem eq_of_zero_mem_utf8EncodeChar {c : Char} (h : 0 ∈ String.utf8EncodeChar c) :
    c = '\x00' := by
  have hvalue : c.val.toNat = 0 := by
    simp only [String.utf8EncodeChar] at h
    split_ifs at h <;>
      simp only [List.mem_cons, List.not_mem_nil, or_false, ← UInt8.toNat_inj,
        UInt8.toNat_ofNat', UInt8.toNat_ofNat, Nat.zero_mod] at h <;> omega
  exact Char.ext (UInt32.toNat_inj.mp hvalue)

theorem zero_notMem_toUTF8 {text : String} (h : '\x00' ∉ text.toList) :
    0 ∉ text.toUTF8.data.toList := by
  rw [String.toUTF8_eq_toByteArray, ← String.utf8Encode_toList, List.utf8Encode,
    List.toList_data_toByteArray]
  intro hmem
  obtain ⟨c, hc, hzero⟩ := List.mem_flatMap.mp hmem
  exact h (eq_of_zero_mem_utf8EncodeChar hzero ▸ hc)

/-- Text read from bytes without a zero byte has no NUL. -/
theorem nul_notMem_decodeLossy {bytes : Bytes} (h : 0 ∉ bytes) :
    '\x00' ∉ bytes.decodeLossy.toList := by
  rw [decodeLossy, String.toList_ofList]
  intro hmem
  obtain ⟨piece, hpiece, hnul⟩ := List.mem_map.mp hmem
  cases piece with
  | none => exact absurd hnul (by decide)
  | some c =>
    obtain rfl : c = '\x00' := hnul
    have hwritten := (reads_iff.mpr rfl).infix_of_mem hpiece
    exact h (hwritten.subset (List.mem_singleton.mpr rfl))

end CacheMeter.Bytes
