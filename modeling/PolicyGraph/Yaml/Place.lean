import PolicyGraph.Yaml.Node.Reader
import PolicyGraph.Yaml.Reading

/-!
# Reading from the nodes of a document

The reader of documents that the program uses. A place is a node of a document together with the path to
it, and the account that is kept is the number of aliases that may still be followed. Scalars are taken
by what is asked for: as a text every scalar is its own spelling.
-/

namespace PolicyGraph.Yaml

/-- A node in its document. -/
structure Place where
  doc : Document
  path : Path
  /-- The node as written, which may be an alias. -/
  written : Node

namespace Place

/-- What no document can be read from, for whatever reason. -/
def refused : Fault := .malformed ""

def ofOption (x : StateT Nat Option α) : Reading Nat α := fun left =>
  match x left with
  | some result => .ok result
  | none => .error refused

/-- The node itself. -/
def node (p : Place) : Reading Nat Node := ofOption (p.doc.visit p.written)

def misfit (p : Place) (mismatch : Mismatch) : Fault := .misfit p.path mismatch

def fail (p : Place) (mismatch : Mismatch) : Reading Nat α := throw (p.misfit mismatch)

/-- How a mismatch mentions a node. -/
def found : Node → Found
  | .alias _ => .unit
  | .sequence .. => .list
  | .mapping .. => .map
  | .scalar properties style s =>
    match Meaning.ofScalar? properties style s with
    | some .null => .unit
    | some (.bool b) => .bool b
    | some (.number (.integer n)) => .integer n
    | some (.number (.float x)) => .float x
    | some (.text s) => .text s
    | some .tooWide | none => .text s

def wrongType (p : Place) (node : Node) (expected : String) : Reading Nat α :=
  p.fail (.wrongType (found node) expected)

/-- Whether nothing is written, which stands for an empty collection. -/
def isBare : Node → Bool
  | .scalar _ .plain "" => true
  | _ => false

/-- The spelling of a scalar. -/
def spelling (p : Place) (expected : String) : Reading Nat String := do
  match ← p.node with
  | .scalar _ _ s => return s
  | node => p.wrongType node expected

/-- Every scalar is a text, as it is spelled. -/
def text (p : Place) : Reading Nat String := p.spelling "a string"

/-- A text, unless the place is null. -/
def optionalText (p : Place) : Reading Nat (Option String) := do
  match ← p.node with
  | .scalar ⟨_, none⟩ .plain s => return if s.isEmpty || Meaning.isNullWord s then none else some s
  | .scalar ⟨_, some tag⟩ .plain s =>
    if tag = coreTag "null" then
      if Meaning.isNullWord s then return none else p.fail (.wrongValue (.text s) "null")
    else return some s
  | .scalar _ _ s => return some s
  | node => p.wrongType node "a string"

def fieldName (p : Place) : Reading Nat String := p.spelling "field identifier"

/-- The items of a list. -/
def items (p : Place) : Reading Nat (List Place) := do
  match ← p.node with
  | .sequence _ nodes => return nodes.mapIdx fun i node => ⟨p.doc, p.path ++ [.index i], node⟩
  | node => if isBare node then return [] else p.wrongType node "a sequence"

/-- The step to the value of a key. -/
def stepTo : Node → Step
  | .scalar _ _ name => .key name
  | _ => .unnamed

/-- The keys and values of a mapping. A key has the path of its mapping. -/
def entries (expected : String) (p : Place) : Reading Nat (List (Place × Place)) := do
  match ← p.node with
  | .mapping _ nodes =>
    return nodes.map fun (key, value) =>
      (⟨p.doc, p.path, key⟩, ⟨p.doc, p.path ++ [stepTo key], value⟩)
  | node => if isBare node then return [] else p.wrongType node expected

/-- An integer key of 32 bits. -/
def integer32 (p : Place) : Reading Nat Int := do
  match ← p.node with
  | node@(.scalar properties style s) =>
    if style == .plain || (style == .literal && properties.tag == some (coreTag "int")) then
      match Meaning.integer? s.toList with
      | some n =>
        if -Int.pow 2 31 ≤ n ∧ n < Int.pow 2 31 then return n
        else if -Int.pow 2 63 ≤ n ∧ n < Int.pow 2 63 then p.fail (.wrongValue (.integer n) "i32")
        else p.wrongType node "i32"
      | none => p.wrongType node "i32"
    else p.wrongType node "i32"
  | node => p.wrongType node "i32"

/-- After a local tag that names a choice only null may stand. -/
def nothingElse (p : Place) : Node → Reading Nat Unit
  | .scalar _ style s =>
    if style == .plain && (s.isEmpty || Meaning.isNullWord s) then return
    else p.fail (.wrongValue (.text s) "null")
  | node => p.wrongType node "unit"

/-- One of several names, as a scalar or as a local tag before nothing. A wrong name is a fault at the
place itself, and so is a wrong tag behind an alias; any other wrong tag is one at the mapping. -/
def choice (mapping : Place) (names : List String) (p : Place) : Reading Nat String := do
  let node ← p.node
  let tagged (tag : String) : Reading Nat String :=
    if names.contains tag then do p.nothingElse node; return tag
    else (match p.written with | .alias _ => p | _ => mapping).fail (.unknownVariant tag names)
  match node with
  | .scalar properties _ s =>
    match localTag? properties with
    | some tag => tagged tag
    | none => if names.contains s then return s else p.fail (.unknownVariant s names)
  | .sequence properties _ | .mapping properties _ =>
    match localTag? properties with
    | some tag => tagged tag
    | none => p.wrongType node "a YAML tag starting with '!'"
  | .alias _ => p.wrongType node "a string"

/-- An untyped value. Every step of the path was into a collection. -/
def value (p : Place) : Reading Nat Value :=
  ofOption (Value.ofNode? p.doc (Document.maxDepth - p.path.length) p.written)

end Place

/-- Reads documents, each within its limit of aliases. -/
def Document.reader : Reader Place Nat where
  load text :=
    match ofText? text with
    | some doc => .ok (⟨doc, [], doc.root⟩, doc.aliasLimit)
    | none => .error Place.refused
  text := Place.text
  optionalText := Place.optionalText
  fieldName := Place.fieldName
  integer32 := Place.integer32
  choice := Place.choice
  value := Place.value
  items := Place.items
  entries := Place.entries
  misfit := Place.misfit

end PolicyGraph.Yaml
