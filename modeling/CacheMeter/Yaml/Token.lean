import CacheMeter.Yaml.Scalar

/-!
# Tokens of a YAML document

Splits a document into tokens.  Indentation opens and closes block collections, and a
colon turns what stands before it on the same line into a key.  Anchors, tags, block
scalars and directives are refused.

Main results:

- `tokens?` lists the tokens of a document.
- `Scan.value?` places the key that belongs to a colon.
-/

namespace CacheMeter.Yaml

/-! ## Tokens -/

/-- A token: a mark of structure or a scalar. -/
inductive Token
  | documentStart
  | documentEnd
  | listStart
  | mappingStart
  | blockEnd
  | item
  | key
  | value
  | flowListStart
  | flowListEnd
  | flowMappingStart
  | flowMappingEnd
  | separator
  | scalar (text : String) (quoted : Bool)
deriving DecidableEq, Repr

/-! ## The state of a scan -/

/-- Where a key may have started: the number of tokens before it and its place.  A key is
due where a line of a block mapping starts. -/
structure KeyStart where
  before : Nat
  line : Nat
  column : Nat
  offset : Nat
  isDue : Bool
deriving DecidableEq, Repr

/-- A key goes over no more bytes than this. -/
def maxKeyLength : Nat := 1024

/-- Whether what started here can no longer be a key once the scan has come to a mark: a
key stays on its line. -/
def KeyStart.isPast (start : KeyStart) (mark : Mark) : Bool :=
  start.line < mark.line || start.offset + maxKeyLength < mark.offset

/-- The tokens so far, the columns of the open block collections, where a key may have
started inside the innermost brackets and outside of them, and whether a key may start
next. -/
structure Scan where
  tokens : Array Token := #[]
  columns : List Nat := []
  keyStart : Option KeyStart := none
  outerKeyStarts : List (Option KeyStart) := []
  keyAllowed : Bool := true
deriving DecidableEq, Repr

namespace Scan

/-- Whether the scan is inside brackets. -/
def inFlow (scan : Scan) : Bool :=
  !scan.outerKeyStarts.isEmpty

/-- Add a token and say whether a key may start after it. -/
def emit (scan : Scan) (token : Token) (keyAllowed : Bool) : Scan :=
  { scan with tokens := scan.tokens.push token, keyAllowed := keyAllowed }

/-- Insert a token behind the first `before` ones. -/
def insert (scan : Scan) (before : Nat) (token : Token) : Scan :=
  let later := scan.tokens.extract before scan.tokens.size
  { scan with tokens := (scan.tokens.extract 0 before).push token ++ later }

/-! ### Block collections -/

/-- Open a block collection at a column, unless one is open there or deeper.  Its token
goes behind the first `before` ones. -/
def openBlock (scan : Scan) (column before : Nat) (token : Token) : Scan :=
  if scan.inFlow || !scan.columns.head?.all (fun current => current < column) then scan
  else { scan.insert before token with columns := column :: scan.columns }

/-- Close the block collections whose columns satisfy a condition, innermost first. -/
def closeBlocks (scan : Scan) (condition : Nat → Bool) : Scan :=
  if scan.inFlow then scan
  else
    let closed := scan.columns.takeWhile condition
    { scan with
      tokens := scan.tokens ++ (closed.map fun _ => Token.blockEnd).toArray
      columns := scan.columns.drop closed.length }

/-! ### Keys -/

/-- Give up a possible key; one that is due is missing its colon. -/
def giveUp? : Option KeyStart → Option (Option KeyStart)
  | some start => if start.isDue then none else some none
  | none => some none

/-- Give up the key that may have started inside the innermost brackets. -/
def dropKey? (scan : Scan) : Option Scan := do
  return { scan with keyStart := ← giveUp? scan.keyStart }

/-- Give up the keys that cannot go on at a mark. -/
def expireKeys? (scan : Scan) (mark : Mark) : Option Scan := do
  let expire := fun (start : Option KeyStart) =>
    if start.any fun start => start.isPast mark then giveUp? start else some start
  return { scan with
    keyStart := ← expire scan.keyStart
    outerKeyStarts := ← scan.outerKeyStarts.mapM expire }

/-- Remember that a key may start at a mark, if one is allowed there. -/
def saveKey? (scan : Scan) (mark : Mark) : Option Scan :=
  if !scan.keyAllowed then some scan
  else do
    let scan ← scan.dropKey?
    return { scan with
      keyStart := some
        { before := scan.tokens.size
          line := mark.line
          column := mark.column
          offset := mark.offset
          isDue := !scan.inFlow && scan.columns.head? = some mark.column } }

/-! ### Indicators -/

/-- A line that starts or ends a document. -/
def documentMark? (scan : Scan) (token : Token) : Option Scan := do
  let scan ← (scan.closeBlocks fun _ => true).dropKey?
  return scan.emit token false

/-- An opening bracket.  It may start a key. -/
def openFlow? (scan : Scan) (mark : Mark) (token : Token) : Option Scan := do
  let scan ← scan.saveKey? mark
  let scan := scan.emit token true
  return { scan with
    keyStart := none
    outerKeyStarts := scan.keyStart :: scan.outerKeyStarts }

/-- A closing bracket. -/
def closeFlow? (scan : Scan) (token : Token) : Option Scan := do
  let scan := (← scan.dropKey?).emit token false
  match scan.outerKeyStarts with
  | [] => return scan
  | start :: outer => return { scan with keyStart := start, outerKeyStarts := outer }

/-- A comma. -/
def separator? (scan : Scan) : Option Scan := do
  return (← scan.dropKey?).emit .separator true

/-- A dash in front of an item. -/
def item? (scan : Scan) (mark : Mark) : Option Scan :=
  if !scan.inFlow && !scan.keyAllowed then none
  else do
    let scan ← (scan.openBlock mark.column scan.tokens.size .listStart).dropKey?
    return scan.emit .item true

/-- A question mark in front of a key. -/
def key? (scan : Scan) (mark : Mark) : Option Scan :=
  if !scan.inFlow && !scan.keyAllowed then none
  else do
    let scan ← (scan.openBlock mark.column scan.tokens.size .mappingStart).dropKey?
    return scan.emit .key (!scan.inFlow)

/-- A colon in front of a value.  What may have started a key is one now. -/
def value? (scan : Scan) (mark : Mark) : Option Scan :=
  match scan.keyStart with
  | some start =>
    let scan := (scan.insert start.before .key).openBlock start.column start.before .mappingStart
    some { scan.emit .value false with keyStart := none }
  | none =>
    if !scan.inFlow && !scan.keyAllowed then none
    else
      let scan := scan.openBlock mark.column scan.tokens.size .mappingStart
      some (scan.emit .value (!scan.inFlow))

/-! ### Scalars -/

/-- The column to which the further lines of a scalar are indented. -/
def minColumn (scan : Scan) : Nat :=
  match scan.columns with
  | [] => 0
  | column :: _ => column + 1

/-- A quoted scalar, whose quote is the given mark. -/
def quoted? (scan : Scan) (mark : Mark) (rest : List Mark) : Option (Scan × List Mark) := do
  let scan ← scan.saveKey? mark
  let (text, rest) ← quotedText? (mark :: rest)
  return (scan.emit (.scalar (String.ofList text) true) false, rest)

/-- A plain scalar, which starts with the given mark.  After a line that it ends, a key
may start. -/
def plain? (scan : Scan) (mark : Mark) (rest : List Mark) : Option (Scan × List Mark) := do
  let scan ← scan.saveKey? mark
  let (scalar, rest) ←
    plainScalar? scan.inFlow scan.minColumn (rest.length + 2) (mark :: rest)
  return (scan.emit (.scalar (String.ofList scalar.text) false) scalar.endsLine, rest)

/-! ### Tokens -/

/-- The marks from the next token on, and whether a key may start there.  Spaces, line
breaks and comments are passed over; so are tabs, except where a key may start outside
brackets. -/
def skipGaps (inFlow : Bool) : Bool → Bool → List Mark → Bool × List Mark
  | keyAllowed, _, [] => (keyAllowed, [])
  | keyAllowed, inComment, mark :: rest =>
    if isBreak mark.char then skipGaps inFlow (keyAllowed || !inFlow) false rest
    else if inComment || mark.char = ' ' || (mark.char = '\t' && (inFlow || !keyAllowed)) then
      skipGaps inFlow keyAllowed inComment rest
    else if mark.char = '#' then skipGaps inFlow keyAllowed true rest
    else (keyAllowed, mark :: rest)

/-- The token that starts with the given mark, and the marks after it. -/
def token? (scan : Scan) (mark : Mark) (rest : List Mark) : Option (Scan × List Mark) :=
  let one := fun (scan : Option Scan) => scan.map fun scan => (scan, rest)
  let isIndicator := scan.inFlow || atGap rest
  if atDocumentMark (mark :: rest) then
    let token := if mark.char = '-' then Token.documentStart else Token.documentEnd
    (scan.documentMark? token).map fun scan => (scan, rest.drop 2)
  else if mark.char = '[' then one (scan.openFlow? mark .flowListStart)
  else if mark.char = '\x7b' then one (scan.openFlow? mark .flowMappingStart)
  else if mark.char = ']' then one (scan.closeFlow? .flowListEnd)
  else if mark.char = '\x7d' then one (scan.closeFlow? .flowMappingEnd)
  else if mark.char = ',' then one scan.separator?
  else if mark.char = '-' && atGap rest then one (scan.item? mark)
  else if mark.char = '?' && isIndicator then one (scan.key? mark)
  else if mark.char = ':' && isIndicator then one (scan.value? mark)
  else if mark.char = '\x22' || mark.char = '\x27' then scan.quoted? mark rest
  else if startsPlain scan.inFlow (mark :: rest) then scan.plain? mark rest
  else none

/-- The tokens from a place on; `limit` bounds their number. -/
def run : Nat → Scan → List Mark → Option (Array Token)
  | 0, _, _ => none
  | limit + 1, scan, rest =>
    let (keyAllowed, rest) := skipGaps scan.inFlow scan.keyAllowed false rest
    let scan := { scan with keyAllowed := keyAllowed }
    match rest with
    | [] => do
      let scan ← (scan.closeBlocks fun _ => true).dropKey?
      return scan.tokens
    | mark :: rest => do
      let scan ← scan.expireKeys? mark
      let scan := scan.closeBlocks fun column => mark.column < column
      let (scan, rest) ← scan.token? mark rest
      run limit scan rest

end Scan

/-! ## Documents -/

/-- The marks after a byte order mark at the start of a text.  Its place is counted. -/
def dropByteOrderMark : List Mark → List Mark
  | [] => []
  | mark :: rest => if mark.char = '\uFEFF' then rest else mark :: rest

/-- The tokens of a document. -/
def tokens? (text : List Char) : Option (List Token) :=
  let all := marks text
  (Scan.run (all.length + 1) {} (dropByteOrderMark all)).map Array.toList

end CacheMeter.Yaml
