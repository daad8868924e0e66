import CacheMeter.Text.Alphanumeric
import CacheMeter.Text.Blank
import CacheMeter.Text.Digit

/-!
# Regular expressions

Tells which texts are patterns that a finite automaton can match without tables of
character properties: classes of letters, word boundaries and differences of case are
known for ASCII only, and are refused while a pattern ranges over all characters.
Repetition counts in braces are refused too.

Main results:

- `isPattern` accepts the texts that are patterns.
- `Pattern.class?` and `Pattern.escape?` take a bracketed class and an escape.
-/

namespace CacheMeter.Text

namespace Pattern

/-! ## Modes -/

/-- The modes that change how a pattern is read: whether case is ignored, whether blanks
and comments are, and whether it ranges over all characters rather than bytes. -/
structure Modes where
  ignoreCase : Bool := false
  ignoreBlanks : Bool := false
  allCharacters : Bool := true
deriving DecidableEq, Repr

namespace Modes

/-- The modes once the mode of a letter is switched. -/
def switch (modes : Modes) (letter : Char) (on : Bool) : Modes :=
  if letter = 'i' then { modes with ignoreCase := on }
  else if letter = 'x' then { modes with ignoreBlanks := on }
  else if letter = 'u' then { modes with allCharacters := on }
  else modes

/-- Whether literal characters can be matched: with case ignored, not over all
characters. -/
def allowLiterals (modes : Modes) : Bool :=
  !(modes.ignoreCase && modes.allCharacters)

end Modes

/-- The letters of modes. -/
def modeLetters : List Char := ['i', 'm', 's', 'U', 'u', 'R', 'x']

/-- The text after blanks and comments, if they are ignored, and after dashes, if they are
to be passed over. -/
def skipBlanks (modes : Modes) (dashes : Bool) : Bool → List Char → List Char
  | _, [] => []
  | inComment, c :: rest =>
    if inComment then skipBlanks modes dashes (c ≠ '\n') rest
    else if dashes && c = '-' then skipBlanks modes dashes false rest
    else if modes.ignoreBlanks && (isBlank c || c = '#') then
      skipBlanks modes dashes (c = '#') rest
    else c :: rest

/-- The text after blanks and comments, if they are ignored. -/
def dropBlanks (modes : Modes) (text : List Char) : List Char :=
  skipBlanks modes false false text

/-- The text after the dashes that may start a class. -/
def dropDashes (modes : Modes) (text : List Char) : List Char :=
  skipBlanks modes true false text

/-! ## Escapes -/

/-- What an escape or a character of a class stands for. -/
inductive Item
  | literal (c : Char)
  | set
  | assertion
deriving DecidableEq, Repr

/-- The number of hexadecimal digits after an escape letter. -/
def hexDigitCount? (c : Char) : Option Nat :=
  if c = 'x' then some 2 else if c = 'u' then some 4 else if c = 'U' then some 8 else none

/-- The value of so many hexadecimal digits, and the text after them. -/
def hexValue? (modes : Modes) : Nat → Nat → List Char → Option (Nat × List Char)
  | 0, value, text => some (value, text)
  | count + 1, value, text =>
    match dropBlanks modes text with
    | [] => none
    | c :: rest => do
      let digit ← digitValue? c
      hexValue? modes count (value * 16 + digit) rest

/-- The control character that an escape letter names. -/
def controlEscape? (c : Char) : Option Char :=
  if c = 'a' then some '\x07'
  else if c = 'f' then some '\x0c'
  else if c = 't' then some '\t'
  else if c = 'n' then some '\n'
  else if c = 'r' then some '\r'
  else if c = 'v' then some '\x0b'
  else none

/-- What an escape stands for, and the text after it; `text` starts after the
backslash. -/
def escape? (modes : Modes) (text : List Char) : Option (Item × List Char) :=
  match text with
  | [] => none
  | c :: rest =>
    match hexDigitCount? c, controlEscape? c with
    | some count, _ => do
      let (value, rest) ← hexValue? modes count 0 rest
      if !value.isValidChar || (c = 'x' && !modes.allCharacters && 0x7F < value) then none
      else return (.literal (Char.ofNat value), rest)
    | none, some control => some (.literal control, rest)
    | none, none =>
      if c = 'd' || c = 's' || c = 'w' then
        if modes.allCharacters then none else some (.set, rest)
      else if c = 'A' || c = 'z' then some (.assertion, rest)
      else if c = 'b' || c = 'B' || c = '<' || c = '>' then
        if modes.allCharacters then none else some (.assertion, rest)
      else if c.isAlphanum || 0x7F < c.toNat then none
      else some (.literal c, rest)

/-! ## Classes -/

/-- The names of the ASCII classes. -/
def classNames : List String :=
  ["alnum", "alpha", "ascii", "blank", "cntrl", "digit", "graph", "lower", "print", "punct",
    "space", "upper", "word", "xdigit"]

/-- The text after a named class such as `:alpha:]`, whose first bracket is read already,
and whether it is negated. -/
def namedClass? (text : List Char) : Option (Bool × List Char) :=
  match text with
  | ':' :: text =>
    let negated := text.head? = some '^'
    let text := if negated then text.drop 1 else text
    let name := text.takeWhile fun c => c ≠ ':'
    match text.drop name.length with
    | ':' :: ']' :: rest =>
      if classNames.contains (String.ofList name) then some (negated, rest) else none
    | _ => none
  | _ => none

/-- The text after the opening of a class, whose bracket is read already.  A bracket that
would close it at once is one of its characters.  No class of bytes is negated. -/
def openClass? (modes : Modes) (text : List Char) : Option (List Char) :=
  let text := dropBlanks modes text
  let negated := text.head? = some '^'
  let start := if negated then dropBlanks modes (text.drop 1) else text
  let text := dropDashes modes start
  if negated && !modes.allCharacters then none
  else
    match text with
    | [] => none
    | c :: rest =>
      if c = ']' && text.length = start.length then
        match dropBlanks modes rest with
        | [] => none
        | rest => some rest
      else some text

/-- A character or an escape inside a class, and the text after it. -/
def classItem? (modes : Modes) (text : List Char) : Option (Item × List Char) := do
  let (item, rest) ←
    match text with
    | [] => none
    | '\\' :: rest => escape? modes rest
    | c :: rest => some (Item.literal c, rest)
  match item with
  | .literal c => if !modes.allCharacters && 0x7F < c.toNat then none else return (item, rest)
  | .set => return (item, rest)
  | .assertion => none

/-- The text after a range of characters or a single item inside a class. -/
def classRange? (modes : Modes) (text : List Char) : Option (List Char) := do
  let (first, rest) ← classItem? modes text
  match dropBlanks modes rest with
  | [] => none
  | '-' :: after =>
    match dropBlanks modes after with
    | [] => none
    | ']' :: _ | '-' :: _ => return '-' :: after
    | after => do
      let (last, after) ← classItem? modes after
      match first, last with
      | .literal low, .literal high => if high < low then none else return after
      | _, _ => none
  | rest => return rest

/-- The text after the rest of a class that stands inside `depth` others; `limit` bounds
the number of its parts. -/
def closeClass? (modes : Modes) : Nat → Nat → List Char → Option (List Char)
  | 0, _, _ => none
  | limit + 1, depth, text =>
    match dropBlanks modes text with
    | [] => none
    | '[' :: rest =>
      match namedClass? rest with
      | some (negated, rest) =>
        if negated && !modes.allCharacters then none else closeClass? modes limit depth rest
      | none => do closeClass? modes limit (depth + 1) (← openClass? modes rest)
    | ']' :: rest =>
      match depth with
      | 0 => some rest
      | depth + 1 => closeClass? modes limit depth rest
    | '&' :: '&' :: rest | '-' :: '-' :: rest | '~' :: '~' :: rest =>
      closeClass? modes limit depth rest
    | text => do closeClass? modes limit depth (← classRange? modes text)

/-- The text after a class whose opening bracket is read already. -/
def class? (modes : Modes) (text : List Char) : Option (List Char) := do
  if !modes.allowLiterals then none
  else closeClass? modes (text.length + 1) 0 (← openClass? modes text)

/-! ## Groups -/

/-- The modes that letters switch, the character that ends them, and the text after it.
No letter occurs twice, and letters after a dash switch their modes off. -/
def switches? : Modes → List Char → Bool → Bool → List Char → Option (Modes × Char × List Char)
  | _, _, _, _, [] => none
  | modes, seen, negated, dangling, c :: rest =>
    if c = ':' || c = ')' then
      if dangling || (c = ')' && seen.isEmpty) then none else some (modes, c, rest)
    else if c = '-' then
      if negated then none else switches? modes seen true true rest
    else if modeLetters.contains c && !seen.contains c then
      switches? (modes.switch c (!negated)) (c :: seen) negated false rest
    else none

/-- Whether a text can name a group. -/
def isGroupName : List Char → Bool
  | [] => false
  | c :: rest =>
    (c = '_' || (isAlphanumeric c && !c.isDigit))
      && rest.all fun c => c = '_' || c = '.' || c = '[' || c = ']' || isAlphanumeric c

/-- The name of a group up to its closing bracket, and the text after it. -/
def groupName? (text : List Char) : Option (List Char × List Char) :=
  let name := text.takeWhile fun c => c ≠ '>'
  match text.drop name.length with
  | [] => none
  | _ :: rest => if isGroupName name then some (name, rest) else none

/-- What a parenthesis opens: a group, with its modes and its name, or a switch of modes
up to the end of the group around it. -/
inductive Opening
  | group (modes : Modes) (name : Option (List Char))
  | switch (modes : Modes)
deriving DecidableEq, Repr

/-- What a parenthesis opens, and the text after it.  Patterns do not look around. -/
def opening? (modes : Modes) (text : List Char) : Option (Opening × List Char) :=
  match dropBlanks modes text with
  | '?' :: '=' :: _ | '?' :: '!' :: _ | '?' :: '<' :: '=' :: _ | '?' :: '<' :: '!' :: _ => none
  | '?' :: 'P' :: '<' :: rest | '?' :: '<' :: rest => do
    let (name, rest) ← groupName? rest
    return (.group modes (some name), rest)
  | '?' :: rest => do
    let (modes, last, rest) ← switches? modes [] false false rest
    return (if last = ')' then .switch modes else .group modes none, rest)
  | rest => some (.group modes none, rest)

/-! ## Patterns -/

/-- How far a pattern has been read: its modes, those of the groups around, the names of
groups, and whether what was read last can be repeated. -/
structure Reading where
  modes : Modes := {}
  outer : List Modes := []
  names : List (List Char) := []
  repeatable : Bool := false
deriving DecidableEq, Repr

/-- Whether the rest of a text completes a pattern; `limit` bounds the number of its
parts. -/
def completes : Nat → Reading → List Char → Bool
  | 0, _, _ => false
  | limit + 1, reading, text =>
    let modes := reading.modes
    let atom := { reading with repeatable := true }
    match dropBlanks modes text with
    | [] => reading.outer.isEmpty
    | '(' :: rest =>
      match opening? modes rest with
      | none => false
      | some (.switch modes, rest) =>
        completes limit { reading with modes := modes, repeatable := false } rest
      | some (.group inner name, rest) =>
        !name.any reading.names.contains
          && completes limit
            { modes := inner
              outer := modes :: reading.outer
              names := name.toList ++ reading.names } rest
    | ')' :: rest =>
      match reading.outer with
      | [] => false
      | modes :: outer => completes limit { atom with modes := modes, outer := outer } rest
    | '|' :: rest => completes limit { reading with repeatable := false } rest
    | '*' :: rest | '+' :: rest | '?' :: rest =>
      reading.repeatable
        && completes limit atom (if rest.head? = some '?' then rest.drop 1 else rest)
    | '\x7b' :: _ => false
    | '[' :: rest =>
      match class? modes rest with
      | none => false
      | some rest => completes limit atom rest
    | '\\' :: rest =>
      match escape? modes rest with
      | none => false
      | some (.literal _, rest) => modes.allowLiterals && completes limit atom rest
      | some (_, rest) => completes limit atom rest
    | '.' :: rest => modes.allCharacters && completes limit atom rest
    | '^' :: rest | '$' :: rest => completes limit atom rest
    | _ :: rest => modes.allowLiterals && completes limit atom rest

end Pattern

/-- Whether a text is a pattern. -/
def isPattern (text : List Char) : Bool :=
  Pattern.completes (text.length + 1) {} text

end CacheMeter.Text
