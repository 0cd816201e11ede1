import PolicyGraph.Policy.Form

/-!
# Blocks

The stages that a packet passes through. A block has a kind with its settings and an identifier that
is unique within a graph.
-/

namespace PolicyGraph

abbrev BlockId := String

/-- What one rule contributes to the classifier. Packets it matches leave through the port that is its
place among the entries. -/
structure ClassifierEntry where
  headerMatch : HeaderMatch
  priority : Priority
  order : Nat
  deriving DecidableEq, Inhabited

/-- The classifier's port for packets that match the entry. -/
def ClassifierEntry.port (e : ClassifierEntry) : Nat := e.order

inductive BlockKind
  | headerClassifier (entries : List ClassifierEntry) (priority : Priority) (continueOnNoMatch : Bool)
  | discard
  | alert (message : String)
  | log (message : String)
  | toDevice (interface : String)
  | fromDevice (interface : String) (promiscuous running : Bool)
  | fromDump (path : String) (promiscuous running : Bool)
  deriving DecidableEq, Inhabited

namespace BlockKind

/-- The name of the kind. -/
def name : BlockKind → String
  | .headerClassifier .. => "HeaderClassifier"
  | .discard => "Discard"
  | .alert _ => "Alert"
  | .log _ => "Log"
  | .toDevice _ => "ToDevice"
  | .fromDevice .. => "FromDevice"
  | .fromDump .. => "FromDump"

/-- Whether packets enter a graph through blocks of the kind. -/
def isSource : BlockKind → Bool
  | .fromDevice .. | .fromDump .. => true
  | _ => false

end BlockKind

structure Block where
  id : BlockId
  kind : BlockKind
  deriving DecidableEq, Inhabited

namespace Block

/-- The entries of a classifier. -/
def entries? (b : Block) : Option (List ClassifierEntry) :=
  match b.kind with
  | .headerClassifier entries _ _ => some entries
  | _ => none

/-- The interface that an output block writes to. -/
def outputInterface? (b : Block) : Option String :=
  match b.kind with
  | .toDevice interface => some interface
  | _ => none

end Block

/-! ## Blocks as trees -/

def ClassifierEntry.toTree (e : ClassifierEntry) : Tree :=
  .object [("header_match", e.headerMatch.toTree), ("priority", e.priority.toTree),
    ("order", .ofNat e.order)]

/-- The settings of a kind, as fields beside its name. -/
def BlockKind.settings : BlockKind → List (String × Tree)
  | .headerClassifier entries priority continueOnNoMatch =>
    [("rules", .list (entries.map ClassifierEntry.toTree)), ("priority", priority.toTree),
      ("continue_on_no_match", .bool continueOnNoMatch)]
  | .discard => []
  | .alert message => [("message", .text message)]
  | .log message => [("message", .text message)]
  | .toDevice interface => [("interface", .text interface)]
  | .fromDevice interface promiscuous running =>
    [("interface", .text interface), ("promiscuous", .bool promiscuous), ("running", .bool running)]
  | .fromDump path promiscuous running =>
    [("file_path", .text path), ("promiscuous", .bool promiscuous), ("running", .bool running)]

def Block.toTree (b : Block) : Tree :=
  .object (("id", .text b.id) :: ("type", .text b.kind.name) :: b.kind.settings)

end PolicyGraph
