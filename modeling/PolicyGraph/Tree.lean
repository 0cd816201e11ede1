import PolicyGraph.Decimal.Binary64
import PolicyGraph.Mismatch

/-!
# Trees of data

What values become before they are written in a data format, and what they are read back from. The
fields of an object keep their order.
-/

namespace PolicyGraph

open Decimal (Binary64)

inductive Tree
  | null
  | bool (b : Bool)
  | integer (n : Int)
  | float (x : Binary64)
  | text (s : String)
  | list (items : List Tree)
  | object (fields : List (String × Tree))
  deriving Repr, Inhabited

namespace Tree

def ofNat (n : Nat) : Tree := .integer n

/-- How a mismatch mentions the tree. -/
def found : Tree → Found
  | .null => .unit
  | .bool b => .bool b
  | .integer n => .integer n
  | .float x => .float x
  | .text s => .text s
  | .list _ => .list
  | .object _ => .map

/-- The words for trees that come from outside. -/
def wording : Wording := ⟨"null", .data⟩

/-- The tree is not of the kind expected. -/
def mismatch (t : Tree) (expected : String) : Except Mismatch α :=
  .error (.wrongType t.found expected)

def text? : Tree → Except Mismatch String
  | .text s => .ok s
  | t => t.mismatch "a string"

/-- A text, or none for null. -/
def optionalText? : Tree → Except Mismatch (Option String)
  | .null => .ok none
  | t => some <$> t.text?

def list? : Tree → Except Mismatch (List Tree)
  | .list items => .ok items
  | t => t.mismatch "a sequence"

def object? : Tree → Except Mismatch (List (String × Tree))
  | .object fields => .ok fields
  | t => t.mismatch "a map"

/-- One of several named values: the name as a text, or as the only key of an object that holds
null. -/
def choice? (names : List String) (ofName? : String → Option α) : Tree → Except Mismatch α
  | .text s => ofText s
  | .object [(s, content)] => do
    let a ← ofText s
    match content with
    | .null => .ok a
    | t => t.mismatch "unit"
  | .object _ => .error (.wrongValue .map "map with a single key")
  | t => t.mismatch "string or map"
where
  ofText (s : String) : Except Mismatch α :=
    match ofName? s with
    | some a => .ok a
    | none => .error (.unknownVariant s names)

end Tree

end PolicyGraph
