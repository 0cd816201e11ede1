import PolicyGraph.Policy.Basic
import PolicyGraph.Tree

/-!
# Rules as trees

Every rule has a tree, which the data formats write, and trees from outside are read back as rules.
An action that its reader would take for another is the only one that does not come back: an output
without an interface, and an unknown action whose kind is the name of a known one.
-/

namespace PolicyGraph

namespace Priority

def names : List String := all.map name

def toTree (p : Priority) : Tree := .text p.name

def ofTree (t : Tree) : Except Mismatch Priority := t.choice? names ofName?

end Priority

namespace HeaderField

def names : List String := all.map name

def ofTree (t : Tree) : Except Mismatch HeaderField := t.choice? names ofName?

end HeaderField

namespace HeaderMatch

def toTree (m : HeaderMatch) : Tree :=
  .object (m.constraints.map fun (f, v) => (f.name, .text v))

/-- Adds the constraints of an object's fields. -/
def ofFields (m : HeaderMatch) : List (String × Tree) → Except Mismatch HeaderMatch
  | [] => .ok m
  | (name, t) :: rest => do
    let field ← HeaderField.ofTree (.text name)
    ofFields (m.require field (← t.text?)) rest

def ofTree (t : Tree) : Except Mismatch HeaderMatch := do
  ofFields any (← t.object?)

end HeaderMatch

/-- The parts of an action as data spells them, before its kind is looked at. -/
structure ActionParts where
  kind : Option String := none
  message : Option String := none
  interface : Option String := none
  deriving DecidableEq, Repr, Inhabited

namespace ActionParts

/-- The fields that have a meaning. -/
def fields : List String := ["type", "message", "interface"]

/-- The action that the parts stand for. Kinds are known in any ASCII case, a message that is missing
is empty, and an output must name an interface. -/
def toAction (p : ActionParts) : Except Mismatch Action :=
  match p.kind with
  | none => .error (.missingField "type")
  | some kind =>
    match kind.toLower with
    | "alert" => .ok (.alert (p.message.getD ""))
    | "log" => .ok (.log (p.message.getD ""))
    | "drop" => .ok .drop
    | "output" =>
      match p.interface with
      | some interface => if interface.isEmpty then .error .outputWithoutInterface else .ok (.output interface)
      | none => .error .outputWithoutInterface
    | _ => .ok (.unknown kind)

/-- The parts of an action, which say only what its kind needs. -/
def ofAction (a : Action) : ActionParts :=
  match a with
  | .alert message | .log message => { kind := some a.kind, message := some message }
  | .output interface => { kind := some a.kind, interface := some interface }
  | .drop | .unknown _ => { kind := some a.kind }

/-- The fields for those parts that are there. -/
def toTree (p : ActionParts) : Tree :=
  .object ((fields.zip [p.kind, p.message, p.interface]).filterMap fun (name, part) =>
    part.map fun s => (name, .text s))

/-- Reads the fields of an object; those without a meaning are passed over. -/
def ofFields (p : ActionParts) : List (String × Tree) → Except Mismatch ActionParts
  | [] => .ok p
  | (name, t) :: rest => do
    let p ← match name with
      | "type" => do pure { p with kind := some (← t.text?) }
      | "message" => do pure { p with message := ← t.optionalText? }
      | "interface" => do pure { p with interface := ← t.optionalText? }
      | _ => pure p
    ofFields p rest

/-- Reads the parts from an object, or from a list in the order of the fields. -/
def ofTree : Tree → Except Mismatch ActionParts
  | .object entries => do
    let p ← ofFields {} entries
    if p.kind.isNone then .error (.missingField "type") else .ok p
  | .list [] => .error (.wrongLength 0 "struct RawAction with 3 elements")
  | .list items => do
    let p ← ofFields {} (fields.zip items)
    if fields.length < items.length then .error (.wrongLength items.length "fewer elements in array")
    else .ok p
  | t => t.mismatch "struct RawAction"

end ActionParts

namespace Action

def toTree (a : Action) : Tree := (ActionParts.ofAction a).toTree

def ofTree (t : Tree) : Except Mismatch Action := do
  (← ActionParts.ofTree t).toAction

end Action

namespace Rule

/-- The fields of a rule, all of them optional. -/
def fields : List String := ["match", "priority", "actions"]

def toTree (r : Rule) : Tree :=
  .object [("match", r.headerMatch.toTree), ("priority", r.priority.toTree),
    ("actions", .list (r.actions.map Action.toTree))]

/-- Reads the fields of an object into a rule; a field that a rule does not have is refused. -/
def ofFields (r : Rule) : List (String × Tree) → Except Mismatch Rule
  | [] => .ok r
  | (name, t) :: rest => do
    let r ← match name with
      | "match" => do pure { r with headerMatch := ← HeaderMatch.ofTree t }
      | "priority" => do pure { r with priority := ← Priority.ofTree t }
      | "actions" => do pure { r with actions := ← (← t.list?).mapM Action.ofTree }
      | _ => throw (.unknownField name fields)
    ofFields r rest

/-- Reads a rule from an object, or from a list in the order of the fields. -/
def ofTree : Tree → Except Mismatch Rule
  | .object entries => ofFields {} entries
  | .list items => do
    let r ← ofFields {} (fields.zip items)
    if fields.length < items.length then .error (.wrongLength items.length "fewer elements in array")
    else .ok r
  | t => t.mismatch "struct Rule"

def listToTree (rules : List Rule) : Tree := .list (rules.map toTree)

/-- Reads a list of rules. -/
def listOfTree (t : Tree) : Except Mismatch (List Rule) := do
  (← t.list?).mapM ofTree

end Rule

end PolicyGraph
