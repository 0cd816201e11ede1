import PolicyGraph.Policy.Form
import PolicyGraph.Text.Blank
import PolicyGraph.Yaml.Reading

/-!
# Rule files

A rule file is a YAML document with one field, the ordered list of rules. Any fault in it rejects the
whole file, and a blank file holds no rules.
-/

namespace PolicyGraph

open Yaml (Reader Reading Fault)

variable {π σ : Type} (r : Reader π σ)

namespace HeaderMatch

/-- Reads the constraints of a mapping from header fields to values, in the order of its entries. -/
def constraintsOfPlace (p : π) : Reading σ (List (HeaderField × String)) := do
  (← r.entries "a map" p).mapM fun (key, value) => do
    return (← r.named p HeaderField.names HeaderField.ofName? key, ← r.text value)

/-- Reads a header match; of two values for a field the later counts. -/
def ofPlace (p : π) : Reading σ HeaderMatch := do
  return ofConstraints (← constraintsOfPlace r p)

end HeaderMatch

namespace ActionParts

/-- A field of an action, as it is read. -/
inductive Field
  | kind (s : String)
  | message (s : Option String)
  | interface (s : Option String)

def put (parts : ActionParts) : Field → ActionParts
  | .kind s => { parts with kind := some s }
  | .message s => { parts with message := s }
  | .interface s => { parts with interface := s }

def Field.ofPlace (name : String) (value : π) : Reading σ Field :=
  match name with
  | "type" => return .kind (← r.text value)
  | "message" => return .message (← r.optionalText value)
  | _ => return .interface (← r.optionalText value)

/-- Reads the parts of an action; fields without a meaning are passed over. -/
def ofPlace (p : π) : Reading σ ActionParts := do
  let parts := (← r.fields ⟨"struct RawAction", fields, false⟩ p (Field.ofPlace r)).foldl put {}
  if parts.kind.isNone then r.fail p (.missingField "type") else return parts

end ActionParts

namespace Action

/-- Reads the actions of a rule. Parts that stand for no action are a fault of the whole list. -/
def listOfPlace (p : π) : Reading σ (List Action) := do
  (← r.items p).mapM fun item => do
    match (← ActionParts.ofPlace r item).toAction with
    | .ok action => return action
    | .error mismatch => r.fail p mismatch

end Action

namespace Rule

/-- A field of a rule, as it is read. -/
inductive Field
  | headerMatch (m : HeaderMatch)
  | priority (p : Priority)
  | actions (actions : List Action)

def put (rule : Rule) : Field → Rule
  | .headerMatch headerMatch => { rule with headerMatch }
  | .priority priority => { rule with priority }
  | .actions actions => { rule with actions }

/-- Reads the value of a field of the rule at `rule`. -/
def Field.ofPlace (rule : π) (name : String) (value : π) : Reading σ Field :=
  match name with
  | "match" => return .headerMatch (← HeaderMatch.ofPlace r value)
  | "priority" => return .priority (← r.named rule Priority.names Priority.ofName? value)
  | _ => return .actions (← Action.listOfPlace r value)

def ofPlace (p : π) : Reading σ Rule := do
  return (← r.fields ⟨"struct Rule", fields, true⟩ p (Field.ofPlace r p)).foldl put {}

/-- Reads the list of a rule file. -/
def itemsOfPlace (value : π) : Reading σ (List Rule) := do
  (← r.items value).mapM (ofPlace r)

/-- Reads the only field of a rule file, without which it holds no rules. -/
def listOfPlace (p : π) : Reading σ (List Rule) := do
  return (← r.fields ⟨"struct RuleFile", ["rules"], true⟩ p fun _ => itemsOfPlace r).flatten

/-- The rules of a rule file, in the order in which they are written. -/
def listOfYaml (text : String) : Except Fault (List Rule) :=
  if Text.isBlankText text then .ok [] else r.decode text (listOfPlace r)

end Rule

end PolicyGraph
