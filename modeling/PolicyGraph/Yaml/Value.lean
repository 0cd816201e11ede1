import PolicyGraph.Decimal.Shortest
import PolicyGraph.Text.Quoted
import PolicyGraph.Yaml.Node
import PolicyGraph.Yaml.Scalar

/-!
# Untyped values

The value of a node on its own: aliases are followed, as many as may be, plain scalars and core tags are
interpreted, and a local tag wraps the value it stands before. No mapping may hold two keys of equal
value.
-/

namespace PolicyGraph.Yaml

open Text (quoted)

inductive Value
  | null
  | bool (b : Bool)
  | number (n : Number)
  | text (s : String)
  | sequence (items : List Value)
  | mapping (entries : List (Value × Value))
  | tagged (tag : String) (value : Value)
  deriving Repr, Inhabited

/-- The text of a number in the layout of data. -/
def Number.text : Number → String
  | .integer n => toString n
  | .float x => Decimal.Layout.data.write x

/-- The core tags, which say how to read a scalar. -/
def coreTag (name : String) : String := "tag:yaml.org,2002:" ++ name

/-- The name of a local tag, which is one that starts with an exclamation mark. -/
def localTag? (p : Properties) : Option String := do
  let tag ← p.tag
  if tag.startsWith "!" then some (tag.drop 1).toString else none

namespace Meaning

/-- The meaning of a scalar under its tag. A core tag other than that of text demands its own
spelling; without one only plain scalars are interpreted. A local tag does not count. -/
def ofScalar? (p : Properties) (style : ScalarStyle) (s : String) : Option Meaning :=
  match p.tag with
  | some tag =>
    if tag = coreTag "bool" then (bool? s).map .bool
    else if tag = coreTag "int" then ofInteger? s
    else if tag = coreTag "float" then (float? s.toList).map (.number ∘ .float)
    else if tag = coreTag "null" then if isNullWord s then some .null else none
    else if tag.startsWith "!" && style == .plain then some (ofPlain s)
    else some (.text s)
  | none => some (if style == .plain then ofPlain s else .text s)

/-- The meaning of a scalar behind a local tag, which hides every other tag. -/
def ofTaggedScalar (style : ScalarStyle) (s : String) : Meaning :=
  if style == .plain then ofPlain s else .text s

end Meaning

namespace Value

mutual

/-- Equality of values: the order of a mapping's entries does not count. -/
def same : Value → Value → Bool
  | .null, .null => true
  | .bool a, .bool b => a == b
  | .number m, .number n => m.same n
  | .text s, .text t => s == t
  | .sequence xs, .sequence ys => sameItems xs ys
  | .mapping xs, .mapping ys => xs.length == ys.length && entriesIn xs ys
  | .tagged s x, .tagged t y => s == t && same x y
  | _, _ => false

def sameItems : List Value → List Value → Bool
  | [], [] => true
  | x :: xs, y :: ys => same x y && sameItems xs ys
  | _, _ => false

/-- Whether every entry of the first mapping is one of the second. -/
def entriesIn : List (Value × Value) → List (Value × Value) → Bool
  | [], _ => true
  | (key, value) :: rest, ys => ys.any (fun (k, v) => same key k && same value v) && entriesIn rest ys

end

/-- The value of a meaning, if it is one. -/
def ofMeaning? : Meaning → Option Value
  | .null => some .null
  | .bool b => some (.bool b)
  | .number n => some (.number n)
  | .text s => some (.text s)
  | .tooWide => none

/-- Whether no key occurs twice. -/
def distinctKeys : List (Value × Value) → Bool
  | [] => true
  | (key, _) :: rest => !rest.any (fun (k, _) => key.same k) && distinctKeys rest

/-- The mapping of these entries, if no key occurs twice. -/
def mapping? (entries : List (Value × Value)) : Option Value :=
  if distinctKeys entries then some (.mapping entries) else none

/-- Puts a value behind the local tag of its node. An empty tag is refused. -/
def tag? (p : Properties) (value : Value) : Option Value :=
  match localTag? p with
  | none => some value
  | some "" => none
  | some tag => some (.tagged tag value)

/-- The value of a scalar. -/
def ofScalar? (p : Properties) (style : ScalarStyle) (s : String) : Option Value :=
  match localTag? p with
  | some _ => do tag? p (← ofMeaning? (.ofTaggedScalar style s))
  | none => do ofMeaning? (← Meaning.ofScalar? p style s)

/-- The value of a node, if collections are nested at most so deep. -/
def ofNode? (doc : Document) : (depth : Nat) → Node → StateT Nat Option Value
  | 0, node => do
    match ← doc.visit node with
    | .scalar p style s => ofScalar? p style s
    | .alias _ | .sequence .. | .mapping .. => failure
  | depth + 1, node => do
    match ← doc.visit node with
    | .scalar p style s => ofScalar? p style s
    | .alias _ => failure
    | .sequence p items => tag? p (.sequence (← items.mapM (ofNode? doc depth)))
    | .mapping p entries =>
      let entries ← entries.mapM fun (key, value) => do
        return (← ofNode? doc depth key, ← ofNode? doc depth value)
      tag? p (← mapping? entries)

/-! ## The one-line form of a value -/

/-- A key as the one-line form shows it: scalars without the name of their kind. -/
def keyText (shown : String) : Value → String
  | .bool b => toString b
  | .number n => n.text
  | .text s => quoted s
  | _ => shown

mutual

/-- The value on one line, each part with the name of its kind. -/
def describe : Value → String
  | .null => "Null"
  | .bool b => "Bool(" ++ toString b ++ ")"
  | .number n => "Number(" ++ n.text ++ ")"
  | .text s => "String(" ++ quoted s ++ ")"
  | .sequence items => "Sequence [" ++ ", ".intercalate (describeItems items) ++ "]"
  | .mapping entries => "Mapping \x7b" ++ ", ".intercalate (describeEntries entries) ++ "\x7d"
  | .tagged tag value => "TaggedValue \x7b tag: !" ++ tag ++ ", value: " ++ value.describe ++ " \x7d"

def describeItems : List Value → List String
  | [] => []
  | item :: rest => item.describe :: describeItems rest

def describeEntries : List (Value × Value) → List String
  | [] => []
  | (key, value) :: rest => (keyText key.describe key ++ ": " ++ value.describe) :: describeEntries rest

end

end Value

end PolicyGraph.Yaml
