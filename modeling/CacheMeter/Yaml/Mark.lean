/-!
# Characters of a YAML document at their places

A document is read as a list of marks: its characters, each with its line, its column
and the number of bytes in front of it.

Main results:

- `marks` places the characters of a text; a line break of several characters becomes
  one.
- `atGap` and `atDocumentMark` look ahead from a mark.
-/

namespace CacheMeter.Yaml

/-! ## Characters -/

/-- Whether a character separates words on a line. -/
def isSpace (c : Char) : Bool :=
  c = ' ' || c = '\t'

/-- Whether a character ends a line, once line breaks of other kinds are line feeds.
The separators of lines and of paragraphs keep their identity. -/
def isBreak (c : Char) : Bool :=
  c = '\n' || c = '\u2028' || c = '\u2029'

/-- Whether a character separates words or ends a line. -/
def isGap (c : Char) : Bool :=
  isSpace c || isBreak c

/-- Whether a character may occur in a document. -/
def isPrintable (c : Char) : Bool :=
  let n := c.toNat
  n = 0x09 || n = 0x0A || n = 0x0D || (0x20 ≤ n && n ≤ 0x7E) || n = 0x85
    || (0xA0 ≤ n && n ≤ 0xD7FF) || (0xE000 ≤ n && n ≤ 0xFFFD) || 0x10000 ≤ n

/-- The characters of a text with carriage returns and next-line characters as line
feeds. -/
def unifyBreaks : List Char → List Char
  | [] => []
  | '\r' :: '\n' :: rest => '\n' :: unifyBreaks rest
  | c :: rest => (if c = '\r' || c = '\u0085' then '\n' else c) :: unifyBreaks rest

/-! ## Marks -/

/-- A character at its place: its line, its column in characters and its offset in
bytes. -/
structure Mark where
  char : Char
  line : Nat
  column : Nat
  offset : Nat
deriving DecidableEq, Repr

/-- Place characters from a given place on. -/
def placeFrom (line column offset : Nat) : List Char → List Mark
  | [] => []
  | c :: rest =>
    ⟨c, line, column, offset⟩ ::
      (if isBreak c then placeFrom (line + 1) 0 (offset + c.utf8Size) rest
      else placeFrom line (column + 1) (offset + c.utf8Size) rest)

/-- The characters of a text at their places. -/
def marks (text : List Char) : List Mark :=
  placeFrom 0 0 0 (unifyBreaks text)

/-! ## Looking ahead -/

/-- Whether the text ends here, or a space or a line break follows. -/
def atGap : List Mark → Bool
  | [] => true
  | mark :: _ => isGap mark.char

/-- Whether a line of its own starts or ends a document here. -/
def atDocumentMark : List Mark → Bool
  | a :: b :: c :: rest =>
    a.column = 0 && atGap rest
      && ((a.char = '-' && b.char = '-' && c.char = '-')
        || (a.char = '.' && b.char = '.' && c.char = '.'))
  | _ => false

end CacheMeter.Yaml
