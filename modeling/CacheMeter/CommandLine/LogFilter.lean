import CacheMeter.Text.Pattern

/-!
# Log filters

A log filter is a list of directives, separated by commas.  A directive names a
level, a target, or a span with a field, and may end with the level meant for it.

Main results:

- `LogFilter.isValid` accepts the texts that are filters.
- `LogFilter.isDirective` accepts a single directive.
-/

namespace CacheMeter.LogFilter

/-! ## Levels -/

/-- The names of levels; case does not matter. -/
def levelNames : List String := ["error", "warn", "info", "debug", "trace", "off"]

/-- Whether a text numbers a level, from 0 to 5. -/
def isLevelNumber (text : List Char) : Bool :=
  let digits := if text.head? = some '+' then text.drop 1 else text
  match Text.digits? 10 digits with
  | some n => n ≤ 5
  | none => false

/-- Whether a text is a level.  The empty text stands for all levels. -/
def isLevel (text : List Char) : Bool :=
  text.isEmpty || isLevelNumber text
    || levelNames.contains (String.ofList (text.map Char.toLower))

/-! ## Fields -/

/-- The texts that are numbers without being made of digits; case does not matter. -/
def specialNumbers : List String := ["inf", "infinity", "nan"]

/-- Whether a text is the exponent of a number, or empty. -/
def isExponent (text : List Char) : Bool :=
  match text with
  | [] => true
  | 'e' :: digits | 'E' :: digits =>
    let digits := if digits.head?.any fun c => c = '+' || c = '-' then digits.drop 1 else digits
    !digits.isEmpty && digits.all Char.isDigit
  | _ => false

/-- Whether a text is a number in decimal notation. -/
def isNumber (text : List Char) : Bool :=
  let text := if text.head?.any fun c => c = '+' || c = '-' then text.drop 1 else text
  let whole := text.takeWhile Char.isDigit
  let rest := text.drop whole.length
  let point := rest.head? = some '.'
  let fraction := if point then (rest.drop 1).takeWhile Char.isDigit else []
  let rest := if point then rest.drop (1 + fraction.length) else rest
  specialNumbers.contains (String.ofList (text.map Char.toLower))
    || ((!whole.isEmpty || !fraction.isEmpty) && isExponent rest)

/-- Whether a text is a field, with or without the value it is to match: a number or a
pattern.  A second equals sign ends the value. -/
def isField (text : List Char) : Bool :=
  let name := text.takeWhile fun c => c ≠ '='
  let value := (text.drop (name.length + 1)).takeWhile fun c => c ≠ '='
  !text.isEmpty && (isNumber value || Text.isPattern value)

/-! ## Directives -/

/-- The text after so many bytes, if no character is cut. -/
def dropBytes? : Nat → List Char → Option (List Char)
  | 0, text => some text
  | _ + 1, [] => none
  | count + 1, c :: rest =>
    if c.utf8Size ≤ count + 1 then dropBytes? (count + 1 - c.utf8Size) rest else none

/-- The text of so many bytes, if no character is cut. -/
def takeBytes? : Nat → List Char → Option (List Char)
  | 0, _ => some []
  | _ + 1, [] => none
  | count + 1, c :: rest =>
    if c.utf8Size ≤ count + 1 then
      (takeBytes? (count + 1 - c.utf8Size) rest).map fun text => c :: text
    else none

/-- What part of a directive is being read; a field starts at an offset in bytes. -/
inductive Part
  | levelOrTarget
  | span
  | field (start : Nat)
  | fieldEnd
  | spanEnd
deriving DecidableEq, Repr

/-- Whether a character may start a directive other than a span. -/
def startsTarget (c : Char) : Bool :=
  Text.isAlphanumeric c || c = '-' || c = ':' || c = '_'

/-- Whether the rest of a directive is as it should be.  Offsets are counted in the
directive without the blanks around it; the field and the level that they delimit are
cut out of the whole text with its blanks. -/
def completes (whole : List Char) : Part → Nat → List Char → Bool
  | .levelOrTarget, _, [] | .spanEnd, _, [] => true
  | _, _, [] => false
  | .levelOrTarget, offset, c :: rest =>
    if c = '=' then (dropBytes? (offset + 1) whole).any isLevel
    else if c = '[' then completes whole .span (offset + 1) rest
    else completes whole .levelOrTarget (offset + c.utf8Size) rest
  | .span, offset, c :: rest =>
    if c = ']' then completes whole .spanEnd (offset + 1) rest
    else if c = '\x7b' then completes whole (.field (offset + 1)) (offset + 1) rest
    else completes whole .span (offset + c.utf8Size) rest
  | .field start, offset, c :: rest =>
    if c = '\x7d' then
      ((dropBytes? start whole).bind (takeBytes? (offset - start))).any isField
        && completes whole .fieldEnd (offset + 1) rest
    else completes whole (.field start) (offset + c.utf8Size) rest
  | .fieldEnd, offset, c :: rest => c = ']' && completes whole .spanEnd (offset + 1) rest
  | .spanEnd, offset, c :: _ => c = '=' && (dropBytes? (offset + 1) whole).any isLevel

/-- A text without the blanks around it. -/
def trim (text : List Char) : List Char :=
  ((text.dropWhile Text.isBlank).reverse.dropWhile Text.isBlank).reverse

/-- Whether a text is a directive. -/
def isDirective (text : List Char) : Bool :=
  match trim text with
  | [] => false
  | '[' :: rest => completes text .span 1 rest
  | c :: rest => startsTarget c && completes text .levelOrTarget c.utf8Size rest

/-! ## Filters -/

/-- Whether a text is a list of directives; empty ones do not count. -/
def isValid (text : String) : Bool :=
  text.isEmpty ||
    (text.splitOn ",").all fun directive => directive.isEmpty || isDirective directive.toList

end CacheMeter.LogFilter
