import CacheMeter.Yaml.Node
import CacheMeter.Yaml.Token

/-!
# YAML documents

Reads the value of a document off its tokens.

Main results:

- `read?` is the value of a document, if it is one.
-/

namespace CacheMeter.Yaml

/-- The value left out. -/
def omitted : Node := .plain ""

/-! ## Values

Each function is given a limit on the depth of its calls, more than any list of that
many tokens needs. -/

/-- Where a value stands: inside brackets, in a block collection, or as key or value of a
block mapping, where the items of a list need no indentation of their own. -/
inductive Place
  | inFlow
  | inBlock
  | inEntry
deriving DecidableEq, Repr

/-- Whether a value is left out in front of these tokens, where one of the given ones comes
first. -/
def isOmitted (tokens : List Token) (enders : List Token) : Bool :=
  tokens.head?.any fun token => enders.contains token

mutual

/-- The value that starts here. -/
def value? : Nat → Place → List Token → Option (Node × List Token)
  | 0, _, _ => none
  | limit + 1, place, tokens =>
    match place, tokens with
    | _, .scalar text true :: rest => some (.quoted text, rest)
    | _, .scalar text false :: rest => some (.plain text, rest)
    | _, .flowListStart :: rest => do
      let (items, rest) ← flowItems? limit rest
      return (.list items, rest)
    | _, .flowMappingStart :: rest => do
      let (entries, rest) ← flowEntries? limit rest
      return (.mapping entries, rest)
    | .inBlock, .listStart :: rest | .inEntry, .listStart :: rest => do
      let (items, rest) ← blockItems? limit rest
      return (.list items, rest)
    | .inBlock, .mappingStart :: rest | .inEntry, .mappingStart :: rest => do
      let (entries, rest) ← blockEntries? limit rest
      return (.mapping entries, rest)
    | .inEntry, .item :: _ => do
      let (items, rest) ← alignedItems? limit tokens
      return (.list items, rest)
    | _, _ => none

/-- A value that may be left out in front of the given tokens. -/
def valueOr? : Nat → Place → List Token → List Token → Option (Node × List Token)
  | 0, _, _, _ => none
  | limit + 1, place, enders, tokens =>
    if isOmitted tokens enders then some (omitted, tokens) else value? limit place tokens

/-- The items of a block list up to its end. -/
def blockItems? : Nat → List Token → Option (List Node × List Token)
  | 0, _ => none
  | limit + 1, tokens =>
    match tokens with
    | .item :: rest => do
      let (item, rest) ← valueOr? limit .inBlock [.item, .blockEnd] rest
      let (items, rest) ← blockItems? limit rest
      return (item :: items, rest)
    | .blockEnd :: rest => some ([], rest)
    | _ => none

/-- The items of a block list whose dashes stand at the column of its key. -/
def alignedItems? : Nat → List Token → Option (List Node × List Token)
  | 0, _ => none
  | limit + 1, tokens =>
    match tokens with
    | .item :: rest => do
      let (item, rest) ← valueOr? limit .inBlock [.item, .key, .value, .blockEnd] rest
      let (items, rest) ← alignedItems? limit rest
      return (item :: items, rest)
    | _ => some ([], tokens)

/-- The entries of a block mapping up to its end. -/
def blockEntries? : Nat → List Token → Option (List (Node × Node) × List Token)
  | 0, _ => none
  | limit + 1, tokens =>
    match tokens with
    | .key :: rest => do
      let (key, rest) ← valueOr? limit .inEntry [.key, .value, .blockEnd] rest
      let (value, rest) ←
        match rest with
        | .value :: rest => valueOr? limit .inEntry [.key, .value, .blockEnd] rest
        | _ => some (omitted, rest)
      let (entries, rest) ← blockEntries? limit rest
      return ((key, value) :: entries, rest)
    | .blockEnd :: rest => some ([], rest)
    | _ => none

/-- The items of a flow list up to its closing bracket.  A key with its value is a mapping
of its own. -/
def flowItems? : Nat → List Token → Option (List Node × List Token)
  | 0, _ => none
  | limit + 1, tokens =>
    match tokens with
    | .flowListEnd :: rest => some ([], rest)
    | _ => do
      let (item, rest) ←
        match tokens with
        | .key :: rest => do
          let (key, rest) ← value? limit .inFlow rest
          let (value, rest) ← flowValue? limit .flowListEnd rest
          some (Node.mapping [(key, value)], rest)
        | _ => value? limit .inFlow tokens
      match rest with
      | .flowListEnd :: rest => return ([item], rest)
      | .separator :: rest =>
        let (items, rest) ← flowItems? limit rest
        return (item :: items, rest)
      | _ => none

/-- The value after a key inside brackets that close with the given token. -/
def flowValue? : Nat → Token → List Token → Option (Node × List Token)
  | 0, _, _ => none
  | limit + 1, closing, tokens =>
    match tokens with
    | .value :: rest => valueOr? limit .inFlow [.separator, closing] rest
    | _ => some (omitted, tokens)

/-- The entries of a flow mapping up to its closing brace. -/
def flowEntries? : Nat → List Token → Option (List (Node × Node) × List Token)
  | 0, _ => none
  | limit + 1, tokens =>
    match tokens with
    | .flowMappingEnd :: rest => some ([], rest)
    | _ => do
      let (entry, rest) ←
        match tokens with
        | .key :: rest => do
          let (key, rest) ←
            valueOr? limit .inFlow [.value, .separator, .flowMappingEnd] rest
          let (value, rest) ← flowValue? limit .flowMappingEnd rest
          some ((key, value), rest)
        | _ => do
          let (key, rest) ← value? limit .inFlow tokens
          some ((key, omitted), rest)
      match rest with
      | .flowMappingEnd :: rest => return ([entry], rest)
      | .separator :: rest =>
        let (entries, rest) ← flowEntries? limit rest
        return (entry :: entries, rest)
      | _ => none

end

/-! ## Documents -/

/-- The value of the only document in a list of tokens.  A line of three dashes may
precede it, lines of three points may follow. -/
def document? (tokens : List Token) : Option Node := do
  let limit := 3 * tokens.length + 3
  let (node, rest) ←
    match tokens with
    | [] | [.documentStart] => some (omitted, [])
    | .documentStart :: rest =>
      valueOr? limit .inBlock [.documentStart, .documentEnd] rest
    | _ => value? limit .inBlock tokens
  if rest.all (· = .documentEnd) then some node else none

/-- The value of a document. -/
def read? (text : String) : Option Node := do
  let chars := text.toList
  if chars.all isPrintable then document? (← tokens? chars) else none

end CacheMeter.Yaml
