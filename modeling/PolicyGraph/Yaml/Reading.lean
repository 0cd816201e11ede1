import PolicyGraph.Mismatch
import PolicyGraph.Yaml.Value

/-!
# Reading typed data from documents

Typed data asks a reader for what stands at a place of a document: a text, a list, the entries of a
mapping and so on. A reader answers with that or with a fault, and hands on the places below. What rule
files and settings files make of the answers is written here and in their own modules for any reader.
-/

namespace PolicyGraph.Yaml

/-! ## Faults -/

/-- A step from a node to a part of it. -/
inductive Step
  | index (n : Nat)
  | key (name : String)
  /-- To a value whose key is no scalar of its own. -/
  | unnamed
  deriving DecidableEq, Repr

/-- The way from the root of a document, outermost step first. -/
abbrev Path := List Step

namespace Path

def name : Step → String
  | .index n => "[" ++ toString n ++ "]"
  | .key name => name
  | .unnamed => "?"

/-- The path as messages show it: indices in brackets, keys after a point. -/
def render : Path → String
  | [] => ""
  | step :: rest =>
    rest.foldl (fun shown step => match step with
      | .index _ => shown ++ name step
      | _ => shown ++ "." ++ name step) (name step)

end Path

/-- Why a document could not be read as what it should be. -/
inductive Fault
  /-- The text is no document, or one beyond the limits of the reader, in the reader's own words. -/
  | malformed (reason : String)
  | misfit (path : Path) (mismatch : Mismatch)
  deriving DecidableEq, Repr

/-- The words for data in documents. -/
def wording : Wording := ⟨"unit value", .prose⟩

def Fault.message : Fault → String
  | .malformed reason => reason
  | .misfit [] mismatch => mismatch.message wording
  | .misfit path mismatch => path.render ++ ": " ++ mismatch.message wording

/-! ## Readers -/

/-- A step of reading, which may change what the reader keeps account of. -/
abbrev Reading (σ : Type) := StateT σ (Except Fault)

/-- What typed data can ask for. The places `π` are the nodes of documents, with all that is known of
them, and the states `σ` are what the reader keeps account of, such as how much it may still read. -/
structure Reader (π σ : Type) where
  /-- Opens the only document of a text. -/
  load : String → Except Fault (π × σ)
  /-- A scalar as it is spelled. -/
  text : π → Reading σ String
  /-- The same, unless the scalar is null. -/
  optionalText : π → Reading σ (Option String)
  /-- A scalar as the name of a field. -/
  fieldName : π → Reading σ String
  /-- An integer of 32 bits. -/
  integer32 : π → Reading σ Int
  /-- One of the names, for a place in a mapping. -/
  choice : (mapping : π) → List String → π → Reading σ String
  /-- Whatever stands there. -/
  value : π → Reading σ Value
  /-- The items of a list, in order. -/
  items : π → Reading σ (List π)
  /-- The keys and values of a mapping, in order, where `expected` says what should stand there. -/
  entries : (expected : String) → π → Reading σ (List (π × π))
  /-- The fault that what stands at the place is not what it should be. -/
  misfit : π → Mismatch → Fault

namespace Reader

variable {π σ α β : Type} (r : Reader π σ)

/-- Reads the only document of a text. -/
def decode (text : String) (read : π → Reading σ α) : Except Fault α := do
  let (root, start) ← r.load text
  let (a, _) ← (read root).run start
  return a

def fail (p : π) (mismatch : Mismatch) : Reading σ α :=
  throw (r.misfit p mismatch)

/-- One of several named values. -/
def named (mapping : π) (names : List String) (ofName? : String → Option α) (p : π) :
    Reading σ α := do
  let name ← r.choice mapping names p
  match ofName? name with
  | some a => return a
  | none => r.fail p (.unknownVariant name names)

end Reader

/-- The fields of a record, and whether it may have others. -/
structure Shape where
  expected : String
  fields : List String
  closed : Bool

namespace Reader

variable {π σ α : Type} (r : Reader π σ)

/-- Reads the fields of a record in the order in which they are written, each at most once. -/
def readFields (shape : Shape) (p : π) (read : String → π → Reading σ α) :
    List String → List (π × π) → Reading σ (List α)
  | _, [] => return []
  | seen, (key, value) :: rest => do
    let name ← r.fieldName key
    if shape.fields.contains name then
      if seen.contains name then r.fail p (.repeatedField name)
      else
        let field ← read name value
        return field :: (← readFields shape p read (name :: seen) rest)
    else if shape.closed then r.fail p (.unknownField name shape.fields)
    else readFields shape p read seen rest

/-- Reads the fields of the record at a place. -/
def fields (shape : Shape) (p : π) (read : String → π → Reading σ α) :
    Reading σ (List α) := do
  r.readFields shape p read [] (← r.entries shape.expected p)

end Reader

end PolicyGraph.Yaml
