import AsmLens.Source.Range
import AsmLens.Syntax.Walk

/-!
# Declarations in syntax trees

Two kinds of nodes matter: the definition of a contract, whose own instructions are
left out of the listing, and the definitions of functions, which name the gas of
whole functions.
-/

namespace AsmLens.Syntax

/-- Whether a node has a node type. -/
def hasType (node : Doc) (type : String) : Bool := (node.get "nodeType").isText type

/-- The source range of a node of a type. -/
def rangeOf (node : Doc) : Except Problem SourceRange :=
  let type := (node.member? "nodeType").map Doc.display
  let path := "ast." ++ type.getD "?" ++ ".src"
  let src := node.get "src"
  if src.isBlank then .error (.noSrc (type.getD "AST node") path) else SourceRange.ofSrc src path

/-! ## Contracts -/

/-- Whether a node defines a contract, of the given name if there is one. -/
def definesContract (name : Option String) (node : Doc) : Bool :=
  hasType node "ContractDefinition" &&
    match name with
    | none => true
    | some n => (node.get "name").isText n

/-- The range of the first contract definition, of the given name if there is one. -/
def findContract (tree : Doc) (name : Option String := none) :
    Except Problem (Option SourceRange) :=
  match (walk tree).find? (definesContract name) with
  | some node => (rangeOf node).map some
  | none => .ok none

/-! ## Functions -/

/-- A definition of a function, constructor, fallback or receive function. -/
structure Function where
  name : Doc
  kind : Doc
  visibility : Doc
  range : SourceRange
  /-- The canonical types of the parameters. -/
  types : List String

namespace Function

/-- The signature of a function. -/
def signature (f : Function) : String := f.name.display ++ "(" ++ ",".intercalate f.types ++ ")"

/-- Whether a function can be called from outside its contract. -/
def isExternal (f : Function) : Bool :=
  f.kind.isText "function" && (f.visibility.isText "public" || f.visibility.isText "external")

end Function

/-- The data locations that may end a type. -/
def locations : List String := [" storage", " memory", " calldata"]

/-- A type without its data location, and with contracts and enumerations by what stands for them. -/
def canonicalText (type : String) : String :=
  let bare := locations.foldl (fun t l => if t.endsWith l then (t.dropEnd l.length).toString else t) type
  if bare.startsWith "contract " then "address"
  else if bare.startsWith "enum " then "uint8"
  else bare

/-- The canonical type of a parameter. -/
def canonicalType (parameter : Doc) : Except Fault String := do
  let described := (← parameter.getMember "typeDescriptions").orElse (.object [])
  match described with
  | .object ms =>
    match (Doc.lookup "typeString" ms).getD (.text "") with
    | .text t => return canonicalText t
    | d => throw (.noAttribute d.shape "endswith")
  | d => throw (.noAttribute d.shape "get")

/-- The canonical types of a list of parameters. -/
def canonicalTypes (parameters : Doc) : Except Fault (List String) :=
  match parameters with
  | .list ds => ds.mapM canonicalType
  | .text s => s.toList.mapM fun c => canonicalType (.text (String.singleton c))
  | .object ms => ms.mapM fun m => canonicalType (.text m.1)
  | d => .error (.notIterable d.shape)

/-- The function that a node defines. -/
def readFunction (node : Doc) : Result Function := do
  let kind := (node.member? "kind").getD (.text "function")
  let name := (node.get "name").orElse kind
  let parameters ← match (node.get "parameters").orElse (.object []) with
    | .object ms => pure ((Doc.lookup "parameters" ms).getD (.list []))
    | d => throw (.fault (.noAttribute d.shape "get"))
  let range ← rangeOf node
  let types ← canonicalTypes parameters
  return ⟨name, kind, (node.member? "visibility").getD (.text ""), range, types⟩

/-- The functions that a tree defines, level by level. -/
def functions (tree : Doc) : Result (List Function) :=
  ((walk tree).filter (hasType · "FunctionDefinition")).mapM readFunction

example : canonicalText "struct S[] memory" = "struct S[]" ∧ canonicalText "contract C" = "address" := by
  decide +kernel

end AsmLens.Syntax
