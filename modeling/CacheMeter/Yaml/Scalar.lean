import CacheMeter.Text.Digit
import CacheMeter.Yaml.Mark

/-!
# Scalars of a YAML document

Reads the text of plain and quoted scalars, folding the lines over which they go.

Main results:

- `plainScalar?` takes a plain scalar; `takeWord` takes one of its words.
- `quotedText?` takes a quoted scalar with its escapes.
- `foldedBreaks` is what line breaks stand for.
-/

namespace CacheMeter.Yaml

/-! ## Line breaks inside scalars -/

/-- What the line breaks between two words of a scalar stand for: a single line feed is a
space, and the first of several is dropped.  Other breaks stand for themselves. -/
def foldedBreaks : List Char → List Char
  | ['\n'] => [' ']
  | '\n' :: more => more
  | breaks => breaks

/-- What lies between two words of a plain scalar: the spaces before the first line
break, and the line breaks. -/
structure Gap where
  spaces : List Char := []
  breaks : List Char := []
deriving DecidableEq, Repr

/-- What a gap stands for. -/
def Gap.text (gap : Gap) : List Char :=
  if gap.breaks.isEmpty then gap.spaces else foldedBreaks gap.breaks

/-! ## Plain scalars -/

/-- The characters that delimit values inside brackets. -/
def isFlowIndicator (c : Char) : Bool :=
  c = ',' || c = '[' || c = ']' || c = '\x7b' || c = '\x7d'

/-- The characters that never start a plain scalar. -/
def isReserved (c : Char) : Bool :=
  isFlowIndicator c || c = '#' || c = '&' || c = '*' || c = '!' || c = '|' || c = '>'
    || c = '\x27' || c = '\x22' || c = '%' || c = '@' || c = '\x60'

/-- Whether a plain scalar starts here. -/
def startsPlain (inFlow : Bool) : List Mark → Bool
  | [] => false
  | mark :: rest =>
    if mark.char = '-' then !atGap rest
    else if mark.char = '?' || mark.char = ':' then !inFlow && !atGap rest
    else !isReserved mark.char && !isGap mark.char

/-- The characters up to a gap or to what ends a plain scalar: a colon before a gap, and
inside brackets what delimits values.  A colon glued to a delimiter is refused. -/
def takeWord (inFlow : Bool) : List Mark → Option (List Char × List Mark)
  | [] => some ([], [])
  | mark :: rest =>
    if isGap mark.char then some ([], mark :: rest)
    else if inFlow && mark.char = ':'
        && rest.head?.any (fun next => isFlowIndicator next.char || next.char = '?') then none
    else if (mark.char = ':' && atGap rest) || (inFlow && isFlowIndicator mark.char) then
      some ([], mark :: rest)
    else do
      let (word, rest) ← takeWord inFlow rest
      return (mark.char :: word, rest)

/-- The gap that starts here.  A tab may not indent a line to less than `minColumn`. -/
def takeGap (minColumn : Nat) : Gap → List Mark → Option (Gap × List Mark)
  | gap, [] => some (gap, [])
  | gap, mark :: rest =>
    if isBreak mark.char then
      takeGap minColumn { breaks := gap.breaks ++ [mark.char] } rest
    else if isSpace mark.char then
      if gap.breaks.isEmpty then
        takeGap minColumn { spaces := gap.spaces ++ [mark.char] } rest
      else if mark.char = '\t' && mark.column < minColumn then none
      else takeGap minColumn gap rest
    else some (gap, mark :: rest)

/-- A plain scalar as it was read: its text, and whether the gap after it goes over the
end of a line. -/
structure PlainScalar where
  text : List Char
  endsLine : Bool := false
deriving DecidableEq, Repr

/-- The plain scalar that starts here, and the marks after it and its gap.  It goes on
over gaps as long as the next word is neither a comment nor, outside brackets, indented
to less than `minColumn`; `limit` bounds the number of words. -/
def plainScalar? (inFlow : Bool) (minColumn : Nat) :
    Nat → List Mark → Option (PlainScalar × List Mark)
  | 0, _ => none
  | limit + 1, start => do
    let (word, rest) ← takeWord inFlow start
    let (gap, rest) ← takeGap minColumn {} rest
    let last : PlainScalar := { text := word, endsLine := !gap.breaks.isEmpty }
    match rest with
    | [] => return (last, [])
    | mark :: after =>
      if gap = {} || mark.char = '#' || (!inFlow && mark.column < minColumn)
          || atDocumentMark (mark :: after) then
        return (last, mark :: after)
      else
        let (more, after) ← plainScalar? inFlow minColumn limit (mark :: after)
        if more.text.isEmpty then return (last, after)
        else return ({ more with text := word ++ gap.text ++ more.text }, after)

/-! ## Quoted scalars -/

/-- A piece of a quoted scalar: a character as it stands, one from an escape, or an
escaped line break. -/
inductive Piece
  | literal (c : Char)
  | escaped (c : Char)
  | joined
deriving DecidableEq, Repr

/-- The character that a one-letter escape stands for. -/
def simpleEscape? (c : Char) : Option Char :=
  if c = '0' then some '\x00'
  else if c = 'a' then some '\x07'
  else if c = 'b' then some '\x08'
  else if c = 't' || c = '\t' then some '\t'
  else if c = 'n' then some '\n'
  else if c = 'v' then some '\x0b'
  else if c = 'f' then some '\x0c'
  else if c = 'r' then some '\r'
  else if c = 'e' then some '\x1b'
  else if c = ' ' || c = '\x22' || c = '/' || c = '\\' then some c
  else if c = 'N' then some '\u0085'
  else if c = '_' then some '\u00a0'
  else if c = 'L' then some '\u2028'
  else if c = 'P' then some '\u2029'
  else none

/-- How many hexadecimal digits follow an escape letter. -/
def hexLength? (c : Char) : Option Nat :=
  if c = 'x' then some 2 else if c = 'u' then some 4 else if c = 'U' then some 8 else none

/-- Where a double-quoted scalar is being read: in text, after a backslash, or within
the digits of an escape. -/
inductive Position
  | text
  | escape
  | hex (left : Nat) (value : Nat)
deriving DecidableEq, Repr

/-- The pieces of a double-quoted scalar up to its closing quote, and the marks after
it.  No line of it may start or end a document. -/
def doubleQuoted : Position → List Mark → Option (List Piece × List Mark)
  | _, [] => none
  | .text, mark :: rest =>
    if atDocumentMark (mark :: rest) then none
    else if mark.char = '\x22' then some ([], rest)
    else if mark.char = '\\' then doubleQuoted .escape rest
    else do
      let (pieces, rest) ← doubleQuoted .text rest
      return (.literal mark.char :: pieces, rest)
  | .escape, mark :: rest =>
    if isBreak mark.char then do
      let (pieces, rest) ← doubleQuoted .text rest
      return (.joined :: pieces, rest)
    else
      match simpleEscape? mark.char, hexLength? mark.char with
      | some c, _ => do
        let (pieces, rest) ← doubleQuoted .text rest
        return (.escaped c :: pieces, rest)
      | none, some left => doubleQuoted (.hex left 0) rest
      | none, none => none
  | .hex left value, mark :: rest => do
    let digit ← Text.digitValue? mark.char
    let value := value * 16 + digit
    if 1 < left then doubleQuoted (.hex (left - 1) value) rest
    else if value.isValidChar then
      let (pieces, rest) ← doubleQuoted .text rest
      return (.escaped (Char.ofNat value) :: pieces, rest)
    else none

/-- The pieces of a single-quoted scalar up to its closing quote, and the marks after
it.  A quote is written twice.  No line of it may start or end a document. -/
def singleQuoted : List Mark → Option (List Piece × List Mark)
  | [] => none
  | [mark] => if mark.char = '\x27' then some ([], []) else none
  | mark :: next :: rest =>
    if atDocumentMark (mark :: next :: rest) then none
    else if mark.char = '\x27' then
      if next.char = '\x27' then do
        let (pieces, rest) ← singleQuoted rest
        return (.escaped '\x27' :: pieces, rest)
      else some ([], next :: rest)
    else do
      let (pieces, rest) ← singleQuoted (next :: rest)
      return (.literal mark.char :: pieces, rest)

/-- Where lines are being folded: on a line, with the spaces seen last, or at the start
of a line, with the line breaks before it.  Breaks after an escaped one stand for
themselves. -/
inductive Folding
  | onLine (spaces : List Char)
  | lineStart (breaks : List Char) (joined : Bool)
deriving DecidableEq, Repr

/-- The text held back while folding. -/
def Folding.flush : Folding → List Char
  | .onLine spaces => spaces
  | .lineStart breaks true => breaks
  | .lineStart breaks false => foldedBreaks breaks

/-- The text of pieces with their lines folded. -/
def foldPieces : Folding → List Piece → List Char
  | state, [] => state.flush
  | state, .escaped c :: rest => state.flush ++ c :: foldPieces (.onLine []) rest
  | state, .joined :: rest => state.flush ++ foldPieces (.lineStart [] true) rest
  | .onLine spaces, .literal c :: rest =>
    if isBreak c then foldPieces (.lineStart [c] false) rest
    else if isSpace c then foldPieces (.onLine (spaces ++ [c])) rest
    else spaces ++ c :: foldPieces (.onLine []) rest
  | .lineStart breaks joined, .literal c :: rest =>
    if isBreak c then foldPieces (.lineStart (breaks ++ [c]) joined) rest
    else if isSpace c then foldPieces (.lineStart breaks joined) rest
    else (Folding.lineStart breaks joined).flush ++ c :: foldPieces (.onLine []) rest

/-- The text of a quoted scalar whose opening quote is the first mark, and the marks
after it. -/
def quotedText? : List Mark → Option (List Char × List Mark)
  | [] => none
  | quote :: rest => do
    let (pieces, rest) ←
      if quote.char = '\x22' then doubleQuoted .text rest else singleQuoted rest
    return (foldPieces (.onLine []) pieces, rest)

end CacheMeter.Yaml
