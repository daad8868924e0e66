import CacheMeter.Text.Blank
import CacheMeter.Text.Digit

/-!
# Durations

A duration is a number of nanoseconds.  In settings it is written as a sequence of
numbers with units, such as `1h 30m` or `1.5s`; in log lines it is shown in the
largest unit that leaves a whole part.

Main results:

- `Duration.parse?` reads a written duration.
- `Duration.toWord?` is the nanosecond count if it fits a word; `toWord?_eq_none`.
- `Duration.text` shows a duration.
-/

namespace CacheMeter

/-- A length of time in nanoseconds. -/
structure Duration where
  nanoseconds : Nat
deriving DecidableEq, Repr, Inhabited

namespace Duration

/-! ## Counts -/

/-- Nanoseconds in a second. -/
def nanosPerSecond : Nat := 1000000000

/-- Nanoseconds in a millisecond. -/
def nanosPerMilli : Nat := 1000000

/-- A duration of whole seconds and further nanoseconds. -/
def ofParts (seconds nanos : Nat) : Duration :=
  ⟨seconds * nanosPerSecond + nanos⟩

/-- A duration of whole milliseconds. -/
def ofMillis (millis : Nat) : Duration :=
  ⟨millis * nanosPerMilli⟩

/-- Whole seconds of a duration. -/
def seconds (duration : Duration) : Nat :=
  duration.nanoseconds / nanosPerSecond

/-- Nanoseconds beyond the whole seconds. -/
def subsecond (duration : Duration) : Nat :=
  duration.nanoseconds % nanosPerSecond

/-- Whether no time passes. -/
def isZero (duration : Duration) : Bool :=
  duration.nanoseconds = 0

/-- The nanosecond count as a word, if it fits. -/
def toWord? (duration : Duration) : Option UInt64 :=
  if duration.nanoseconds < UInt64.size then some (UInt64.ofNat duration.nanoseconds) else none

theorem toWord?_eq_none {duration : Duration} :
    duration.toWord? = none ↔ UInt64.size ≤ duration.nanoseconds := by
  unfold toWord?
  split
  next h => simp only [reduceCtorEq, false_iff]; omega
  next h => simp only [true_iff]; omega

/-! ## Units -/

/-- What a unit counts in: nanoseconds or whole seconds. -/
inductive Grain
  | nanosecond
  | second
deriving DecidableEq, Repr

/-- A unit of time: what its whole and its fractional amounts are counted in, and how
many of these one unit has.  Nanoseconds have no fraction. -/
structure TimeUnit where
  wholeGrain : Grain
  wholeScale : Nat
  fraction : Option (Grain × Nat)
deriving DecidableEq, Repr

/-- A unit below the second. -/
def TimeUnit.small (scale : Nat) : TimeUnit :=
  ⟨.nanosecond, scale, some (.nanosecond, scale)⟩

/-- A unit of one or more seconds whose fractions are counted in nanoseconds. -/
def TimeUnit.medium (seconds : Nat) : TimeUnit :=
  ⟨.second, seconds, some (.nanosecond, seconds * nanosPerSecond)⟩

/-- A unit of many seconds whose fractions are counted in seconds. -/
def TimeUnit.large (seconds : Nat) : TimeUnit :=
  ⟨.second, seconds, some (.second, seconds)⟩

/-- The units by the names that are accepted for them; case matters. -/
def unitNames : List (TimeUnit × List String) :=
  [(⟨.nanosecond, 1, none⟩, ["nanos", "nsec", "ns"]),
    (.small 1000, ["usec", "us", "µs"]),
    (.small nanosPerMilli, ["millis", "msec", "ms"]),
    (.medium 1, ["seconds", "second", "secs", "sec", "s"]),
    (.medium 60, ["minutes", "minute", "min", "mins", "m"]),
    (.large 3600, ["hours", "hour", "hrs", "hr", "h"]),
    (.large 86400, ["days", "day", "d"]),
    (.large 604800, ["weeks", "week", "wks", "wk", "w"]),
    (.large 2630016, ["months", "month", "M"]),
    (.large 31557600, ["years", "year", "yrs", "yr", "y"])]

/-- The unit with a given name. -/
def unitNamed? (name : String) : Option TimeUnit :=
  (unitNames.find? fun entry => entry.2.contains name).map Prod.fst

/-! ## Terms -/

/-- One number with its unit, as written: the digits before and after the point, and
the name of the unit. -/
structure Term where
  whole : List Char
  fraction : Option (List Char)
  unitName : String
deriving DecidableEq, Repr

/-- Whether a character may stand in a unit's name. -/
def isUnitLetter (c : Char) : Bool :=
  c.isAlpha || c = 'µ'

/-- Whether a character may stand in a number: a digit, or a blank, which is
ignored. -/
def isNumeral (c : Char) : Bool :=
  c.isDigit || Text.isBlank c

/-- The digits at the front of a text, blanks between them dropped, and the rest. -/
def takeDigits (text : List Char) : List Char × List Char :=
  ((text.takeWhile isNumeral).filter Char.isDigit, text.dropWhile isNumeral)

/-- The unit's name at the front of a text, and the rest. -/
def takeUnit (text : List Char) : String × List Char :=
  (String.ofList (text.takeWhile isUnitLetter), text.dropWhile isUnitLetter)

/-- Whether a term may end before this text: at the end, at a blank or at a digit. -/
def endsTerm : List Char → Bool
  | [] => true
  | c :: _ => isNumeral c

/-- The term at the front of a text, and the rest. -/
def takeTerm? (text : List Char) : Option (Term × List Char) :=
  let (whole, rest) := takeDigits text
  if whole.isEmpty then none
  else
    let (fraction, rest) : Option (List Char) × List Char :=
      match rest with
      | '.' :: rest => let (digits, rest) := takeDigits rest; (some digits, rest)
      | rest => (none, rest)
    let (unitName, rest) := takeUnit rest
    if fraction = some [] || !endsTerm rest then none
    else some (⟨whole, fraction, unitName⟩, rest)

/-- At most `limit` terms that make up a text, blanks around them dropped. -/
def termsUpTo : Nat → List Char → Option (List Term)
  | 0, text => if text.all Text.isBlank then some [] else none
  | limit + 1, text =>
    if text.all Text.isBlank then some []
    else do
      let (term, rest) ← takeTerm? text
      let terms ← termsUpTo limit rest
      return term :: terms

/-- The terms that make up a text. -/
def terms? (text : List Char) : Option (List Term) :=
  termsUpTo text.length text

/-! ## Reading -/

/-- A number that fits a word. -/
def word? (n : Nat) : Option Nat :=
  if n < UInt64.size then some n else none

/-- The duration extended by an amount, unless a count outgrows its word: the
nanoseconds within the second, or the seconds in all. -/
def extend? (duration : Duration) (grain : Grain) (amount : Nat) : Option Duration := do
  let sum : Duration ←
    match grain with
    | .second => some ⟨duration.nanoseconds + amount * nanosPerSecond⟩
    | .nanosecond => do
      let _ ← word? (duration.subsecond + amount)
      some ⟨duration.nanoseconds + amount⟩
  let _ ← word? sum.seconds
  return sum

/-- The exact amount that a fraction of a unit comes to; at most nineteen digits fit
the word that scales them. -/
def fractionAmount? (scale : Nat) (digits : List Char) : Option Nat := do
  let denominator ← word? (Nat.pow 10 digits.length)
  let scaled ← word? (Text.decimalValue digits * scale)
  if scaled % denominator = 0 then some (scaled / denominator) else none

/-- The duration extended by a term. -/
def addTerm? (duration : Duration) (term : Term) : Option Duration := do
  let unit ← unitNamed? term.unitName
  let count ← word? (Text.decimalValue term.whole)
  let amount ← word? (count * unit.wholeScale)
  let sum ← duration.extend? unit.wholeGrain amount
  match term.fraction with
  | none => return sum
  | some digits =>
    let (grain, scale) ← unit.fraction
    let amount ← fractionAmount? scale digits
    sum.extend? grain amount

/-- Read a written duration.  The text `0` needs no unit; any other text has at least
one term. -/
def parse? (text : String) : Option Duration :=
  if text = "0" then some ⟨0⟩
  else
    match terms? text.toList with
    | none | some [] => none
    | some terms => terms.foldlM addTerm? ⟨0⟩

/-! ## Showing -/

/-- A count in units of `10 ^ places`, without zeros at the end. -/
def decimalText (count places : Nat) : String :=
  let scale := Nat.pow 10 places
  let whole := toString (count / scale)
  let digits := Nat.toDigits 10 (count % scale)
  let padded := List.replicate (places - digits.length) '0' ++ digits
  let shown := (padded.reverse.dropWhile (fun c => c = '0')).reverse
  if count % scale = 0 then whole else whole ++ "." ++ String.ofList shown

/-- The duration in the largest unit, up to seconds, that leaves a whole part. -/
def text (duration : Duration) : String :=
  let n := duration.nanoseconds
  if nanosPerSecond ≤ n then decimalText n 9 ++ "s"
  else if nanosPerMilli ≤ n then decimalText n 6 ++ "ms"
  else if 1000 ≤ n then decimalText n 3 ++ "µs"
  else toString n ++ "ns"

end Duration

end CacheMeter
