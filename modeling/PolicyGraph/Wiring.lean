import PolicyGraph.Event
import PolicyGraph.Graph.Draft
import PolicyGraph.Pool

/-!
# From rules to a graph

Packets enter through the source and go to the classifier. Rule `i` is its entry `i`, and its actions
follow each other from port `i` on, in the order of the rule. Alerts and logs get a block each, outputs
to one interface share a block, and all drops share one, which ends the chain of its rule. An unknown
action is reported and passed over.
-/

namespace PolicyGraph

/-- Where packets come from. -/
inductive Source
  /-- Live packets of a network interface. -/
  | device (interface : String)
  /-- Packets recorded in a file. -/
  | dump (path : String)
  deriving DecidableEq, Repr, Inhabited

/-! ## Ids -/

def classifierId : BlockId := "HeaderClassifier_Snort"

def discardId : BlockId := "Discard_Firewall"

def deviceId : BlockId := "FromDevice_Snort"

def dumpId : BlockId := "FromDump_Snort"

/-- The id of the block that is made for a rule's action, counting the wired actions of the rule. -/
def actionId (kind : String) (rule step : Nat) : BlockId :=
  kind ++ "_Firewall_Rule_" ++ toString rule ++ "_UID_" ++ toString step

namespace Source

/-- The interface or the path. -/
def describe : Source → String
  | .device interface => interface
  | .dump path => path

/-- The block through which packets enter. -/
def block : Source → Block
  | .device interface => ⟨deviceId, .fromDevice interface true true⟩
  | .dump path => ⟨dumpId, .fromDump path false true⟩

end Source

/-! ## Chains -/

/-- The end of a chain: the block and the port that the next connector leaves from, and the number of
actions wired so far, which has no upper bound here. -/
structure ChainEnd where
  block : BlockId
  port : Nat
  step : Nat := 0

/-- The state of a compilation. -/
structure Wiring where
  pool : Pool := {}
  connectors : List Connector := []
  entries : List ClassifierEntry := []
  events : List Event := []

namespace Wiring

/-- Joins the end of a chain to a block. -/
def join (tail : ChainEnd) (id : BlockId) (w : Wiring) : Wiring :=
  { w with connectors := w.connectors ++ [.join tail.block tail.port id] }

/-- The end of a chain after one more block. -/
def advance (tail : ChainEnd) (id : BlockId) : ChainEnd := ⟨id, 0, tail.step + 1⟩

/-- Adds a block to the pool and to the end of a chain. -/
def joinBlock (tail : ChainEnd) (b : Block) (w : Wiring) : Wiring :=
  { w with pool := w.pool.register b }.join tail b.id

/-- Wires actions from the end of a chain on. -/
def chain (rule : Nat) (tail : ChainEnd) (w : Wiring) : List Action → Wiring
  | [] => w
  | .alert message :: rest =>
    let b : Block := ⟨actionId "Alert" rule tail.step, .alert message⟩
    chain rule (advance tail b.id) (w.joinBlock tail b) rest
  | .log message :: rest =>
    let b : Block := ⟨actionId "Log" rule tail.step, .log message⟩
    chain rule (advance tail b.id) (w.joinBlock tail b) rest
  | .output interface :: rest =>
    let fresh : Block := ⟨actionId "ToDevice" rule tail.step, .toDevice interface⟩
    let (id, pool) := w.pool.output interface fresh
    chain rule (advance tail id) ({ w with pool }.join tail id) rest
  | .drop :: _ => w.joinBlock tail ⟨discardId, .discard⟩
  | .unknown kind :: rest =>
    chain rule tail { w with events := w.events ++ [.unknownAction rule kind] } rest

/-- Adds a rule to the classifier and wires its actions from the port of the same number. -/
def addRule (w : Wiring) (rule : Rule) (index : Nat) : Wiring :=
  let entry : ClassifierEntry := ⟨rule.headerMatch, rule.priority, index⟩
  chain index ⟨classifierId, index, 0⟩ { w with entries := w.entries ++ [entry] } rule.actions

/-- Adds rules, numbering them from `index` on. -/
def addRules (w : Wiring) (index : Nat) : List Rule → Wiring
  | [] => w
  | rule :: rest => addRules (w.addRule rule index) (index + 1) rest

/-- The classifier, which takes all entries. -/
def classifier (w : Wiring) : Block := ⟨classifierId, .headerClassifier w.entries .high true⟩

/-- The whole graph as a draft, rooted at the source. -/
def draft (w : Wiring) (source : Source) : Draft :=
  let root := source.block
  ({} : Draft)
    |>.addBlock root
    |>.addBlocks (w.pool.register w.classifier).blocks
    |>.addConnectors (w.connectors ++ [.join root.id 0 classifierId])
    |>.setRoot root.id

end Wiring

/-- A graph and where it is deployed. -/
structure Statement where
  location : Location
  graph : Graph
  deriving DecidableEq, Inhabited

def Statement.toTree (s : Statement) : Tree :=
  .object [("location", s.location.toTree), ("graph", s.graph.toTree)]

/-- The number of ports that a block can have. Ports are numbered by words of 32 bits. -/
def portCount : Nat := Nat.pow 2 32

/-- The graph of a list of rules, fed from a source. A graph needs at least one rule, and a port of the
classifier for each. The rules before the first one without a port are wired all the same. -/
def compileGraph (source : Source) (rules : List Rule) : Logged (Except Failure Graph) :=
  if rules.isEmpty then return .error .noRules
  else
    let wiring := ({} : Wiring).addRules 0 (rules.take portCount)
    if portCount < rules.length then ⟨.error (.graph (.beyondPorts portCount)), wiring.events⟩
    else match (wiring.draft source).build with
    | .error defect => ⟨.error (.graph defect), wiring.events⟩
    | .ok graph => ⟨.ok graph, wiring.events ++ [.compiled graph.statistics]⟩

/-- The graph of a list of rules, bound to the location of a segment. -/
def compile (source : Source) (rules : List Rule) (segment : Int) (resolver : Resolver) :
    Logged (Except Failure Statement) := do
  match ← compileGraph source rules with
  | .error failure => return .error failure
  | .ok graph =>
    let location := resolver segment
    Logged.report (.located location)
    return .ok ⟨location, graph⟩

end PolicyGraph
