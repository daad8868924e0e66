import CacheMeter.Text.Digit

/-!
# YAML nodes

The value of a YAML document, and how scalars are read as text and as numbers.

Main results:

- `Node.text?`, `Node.word32?`, `Node.items?` and `Node.fields?` read a node as a
  particular type; an omitted value counts as an empty list or mapping.
-/

namespace CacheMeter.Yaml

open Text (digits?)

/-! ## Nodes -/

/-- A YAML value.  A value left out is the plain scalar without text. -/
inductive Node
  | plain (text : String)
  | quoted (text : String)
  | list (items : List Node)
  | mapping (entries : List (Node × Node))
deriving Repr, Inhabited

/-! ## Integers -/

/-- The number that a scalar without sign denotes.  A leading `0x`, `0o` or `0b`
sets the base; other digits after a leading zero make it text. -/
def natural? : List Char → Option Nat
  | '0' :: 'x' :: digits => digits? 16 digits
  | '0' :: 'o' :: digits => digits? 8 digits
  | '0' :: 'b' :: digits => digits? 2 digits
  | '0' :: c :: digits =>
    if (c :: digits).all Char.isDigit then none else digits? 10 ('0' :: c :: digits)
  | digits => digits? 10 digits

/-- The number that a plain scalar denotes, if it has no minus sign. -/
def unsigned? (text : String) : Option Nat :=
  match text.toList with
  | '+' :: digits => natural? digits
  | digits => natural? digits

namespace Node

/-! ## Typed access -/

/-- The text of a scalar of any style. -/
def text? : Node → Option String
  | .plain text => some text
  | .quoted text => some text
  | _ => none

/-- The value of a plain scalar that denotes a 32-bit word. -/
def word32? : Node → Option UInt32
  | .plain text => do
    let n ← unsigned? text
    if n < UInt32.size then some (UInt32.ofNat n) else none
  | _ => none

/-- The items of a list; a value left out has none. -/
def items? : Node → Option (List Node)
  | .list items => some items
  | .plain text => if text = "" then some [] else none
  | _ => none

/-- The entries of a mapping by the text of their keys; a value left out has
none. -/
def fields? : Node → Option (List (String × Node))
  | .mapping entries =>
    entries.mapM fun entry => do
      let key ← entry.1.text?
      return (key, entry.2)
  | .plain text => if text = "" then some [] else none
  | _ => none

end Node

/-! ## Fields -/

/-- The value of a field that may be left out: `none` if the key occurs twice. -/
def fieldOnce? (fields : List (String × Node)) (key : String) : Option (Option Node) :=
  match fields.filter fun field => field.1 = key with
  | [] => some none
  | [field] => some (some field.2)
  | _ => none

/-- A field read as a particular type, or the given default where it is left out. -/
def fieldOr {α : Type} (fields : List (String × Node)) (key : String) (default : α)
    (read : Node → Option α) : Option α := do
  match ← fieldOnce? fields key with
  | none => return default
  | some node => read node

end CacheMeter.Yaml
