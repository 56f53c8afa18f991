import AsmLens.Yaml.Token

/-!
# Nodes of settings files

The tree that a list of tokens spells: scalars, lists and mappings, each with its
tag if it has one. An alias is replaced by the node under its anchor, so anchors are
known only while nodes are read; a node cannot contain itself.

## Termination

Between two calls of one reader a token is taken, and there are fewer than eight
readers; so eight rounds for each token are enough.
-/

namespace AsmLens.Yaml

/-- A node of a settings file. -/
inductive Node
  | scalar (text : String) (plain : Bool) (tag : Option String)
  | list (items : List Node) (tag : Option String)
  | mapping (entries : List (Node × Node)) (tag : Option String)

/-- What is left to read, and what has a name. -/
structure Tokens where
  rest : List Token
  /-- Nodes that have been read, by their anchors. -/
  known : List (String × Node)
  /-- All anchors so far. -/
  anchors : List String

/-- A reader of nodes. -/
abbrev Reader := StateT Tokens (Except Complaint)

namespace Node

instance : Inhabited Node := ⟨.list [] none⟩

/-- What stands where nothing is written. -/
def empty : Node := .scalar "" true none

/-! ## Tokens -/

/-- The next token, which stays. -/
def peek : Reader (Option Token) := do return (← get).rest.head?

/-- Takes the next token. -/
def take : Reader Unit := modify fun s => { s with rest := s.rest.tail }

/-- Whether the next token is one of some. -/
def nextIn (ts : List Token) : Reader Bool := do
  match ← peek with
  | some t => return ts.contains t
  | none => return false

/-- Takes the next token if it is the given one; whether it was. -/
def takeIf (t : Token) : Reader Bool := do
  if ← nextIn [t] then
    take
    return true
  else return false

/-! ## Properties -/

/-- Takes an anchor, which has to be new. -/
def anchor : Reader (Option String) := do
  match ← peek with
  | some (.anchor a) =>
    take
    if (← get).anchors.contains a then throw .repeatedAnchor
    modify fun s => { s with anchors := a :: s.anchors }
    return some a
  | _ => return none

/-- Takes a tag. -/
def tag : Reader (Option String) := do
  match ← peek with
  | some (.tag t) =>
    take
    return some t
  | _ => return none

/-- Takes the properties in front of a node: anchor and tag, in any order. -/
def properties : Reader (Option String × Option String) := do
  match ← anchor with
  | some a => return (some a, ← tag)
  | none =>
    match ← tag with
    | some t => return (← anchor, some t)
    | none => return (none, none)

/-- Remembers a node under its anchor. -/
def remember (n : Node) : Option String → Reader Unit
  | some a => modify fun s => { s with known := (a, n) :: s.known }
  | none => return ()

/-- Where a node stands: in a block, as a part of a block mapping, or in a flow collection. -/
inductive Position
  | block | blockPart | flow
deriving DecidableEq

/-! ## Nodes -/

mutual

/-- Takes a node. -/
def read (rounds : Nat) (position : Position) : Reader Node :=
  match rounds with
  | 0 => throw .unexpectedToken
  | r + 1 => do
    match ← peek with
    | some (.alias a) =>
      take
      match (← get).known.lookup a with
      | some n => return n
      | none => throw .unknownAlias
    | _ =>
      let (anchor, tag) ← properties
      let n ← readContent r position tag (anchor.isSome || tag.isSome)
      remember n anchor
      return n

/-- Takes the content of a node; one that has properties may be empty. -/
def readContent (rounds : Nat) (position : Position) (tag : Option String) (mayBeEmpty : Bool) :
    Reader Node :=
  match rounds with
  | 0 => throw .unexpectedToken
  | r + 1 => do
    match position, ← peek with
    | .blockPart, some .entry => return .list (← readIndentless r) tag
    | _, some (.scalar s plain) =>
      take
      return .scalar s plain tag
    | _, some .listOpen =>
      take
      return .list (← readFlowItems r) tag
    | _, some .mappingOpen =>
      take
      return .mapping (← readFlowEntries r) tag
    | .block, some .sequenceStart | .blockPart, some .sequenceStart =>
      take
      return .list (← readItems r) tag
    | .block, some .mappingStart | .blockPart, some .mappingStart =>
      take
      return .mapping (← readEntries r) tag
    | _, _ => if mayBeEmpty then return .scalar "" true tag else throw .unexpectedToken

/-- Takes a node, or nothing if one of some tokens follows. -/
def readUnless (rounds : Nat) (position : Position) (stop : List Token) : Reader Node :=
  match rounds with
  | 0 => throw .unexpectedToken
  | r + 1 => do if ← nextIn stop then return empty else read r position

/-- Takes the items of a block list and its end. -/
def readItems (rounds : Nat) : Reader (List Node) :=
  match rounds with
  | 0 => throw .unexpectedToken
  | r + 1 => do
    if ← takeIf .blockEnd then return []
    else if ← takeIf .entry then
      let n ← readUnless r .block [.entry, .blockEnd]
      return n :: (← readItems r)
    else throw .unexpectedToken

/-- Takes the items of a block list that is not indented. -/
def readIndentless (rounds : Nat) : Reader (List Node) :=
  match rounds with
  | 0 => throw .unexpectedToken
  | r + 1 => do
    if ← takeIf .entry then
      let n ← readUnless r .block [.entry, .key, .value, .blockEnd]
      return n :: (← readIndentless r)
    else return []

/-- Takes the entries of a block mapping and its end. -/
def readEntries (rounds : Nat) : Reader (List (Node × Node)) :=
  match rounds with
  | 0 => throw .unexpectedToken
  | r + 1 => do
    let stop := [Token.key, .value, .blockEnd]
    if ← takeIf .blockEnd then return []
    else if ← nextIn [.key, .value] then
      let k ← if ← takeIf .key then readUnless r .blockPart stop else pure empty
      let v ← if ← takeIf .value then readUnless r .blockPart stop else pure empty
      return (k, v) :: (← readEntries r)
    else throw .unexpectedToken

/-- Takes a key with its mark and the value that may follow it, in a flow collection. -/
def readFlowPair (rounds : Nat) (close : Token) : Reader (Node × Node) :=
  match rounds with
  | 0 => throw .unexpectedToken
  | r + 1 => do
    take
    let k ← readUnless r .flow [.value, .comma, close]
    let v ← if ← takeIf .value then readUnless r .flow [.comma, close] else pure empty
    return (k, v)

/-- Takes the items of a flow list and its end. -/
def readFlowItems (rounds : Nat) : Reader (List Node) :=
  match rounds with
  | 0 => throw .unexpectedToken
  | r + 1 => do
    if ← takeIf .listClose then return []
    let n ←
      if ← nextIn [.key] then
        let pair ← readFlowPair r .listClose
        pure (.mapping [pair] none)
      else read r .flow
    if ← nextIn [.listClose] then return n :: (← readFlowItems r)
    else if ← takeIf .comma then return n :: (← readFlowItems r)
    else throw .unexpectedToken

/-- Takes the entries of a flow mapping and its end. -/
def readFlowEntries (rounds : Nat) : Reader (List (Node × Node)) :=
  match rounds with
  | 0 => throw .unexpectedToken
  | r + 1 => do
    if ← takeIf .mappingClose then return []
    let e ←
      if ← nextIn [.key] then readFlowPair r .mappingClose
      else
        let k ← read r .flow
        pure (k, empty)
    if ← nextIn [.mappingClose] then return e :: (← readFlowEntries r)
    else if ← takeIf .comma then return e :: (← readFlowEntries r)
    else throw .unexpectedToken

end

/-! ## Documents -/

/-- The tokens after the directives and the mark in front of a document; directives need a mark. -/
def documentBody (directives : Bool) : List Token → Except Complaint (List Token)
  | .directive :: ts => documentBody true ts
  | .documentStart :: ts => .ok ts
  | .documentEnd :: _ => .error .unexpectedToken
  | ts => if directives then .error .unexpectedToken else .ok ts

/-- Fails unless only marks of an end follow. -/
def checkEnd : List Token → Except Complaint Unit
  | [] => .ok ()
  | .documentEnd :: ts => checkEnd ts
  | .documentStart :: _ | .directive :: _ => .error .severalDocuments
  | _ => .error .unexpectedToken

/-- The only document that some tokens spell; none if there is none. -/
def ofTokens (ts : List Token) : Except Complaint (Option Node) := do
  if ts.isEmpty then return none
  let body ← documentBody false ts
  let blank := match body with
    | [] | .documentStart :: _ | .documentEnd :: _ | .directive :: _ => true
    | _ => false
  if blank then
    checkEnd body
    return some empty
  else
    let (n, s) ← (read (8 * ts.length + 8) .block).run ⟨body, [], []⟩
    checkEnd s.rest
    return some n

end Node

end AsmLens.Yaml
