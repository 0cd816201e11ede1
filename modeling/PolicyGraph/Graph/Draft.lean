import PolicyGraph.Graph.Basic

/-!
# Drafts of graphs

A draft collects blocks, connectors and a root in any order. Building it checks that it is a graph that
packets can pass through: ids are unique, connectors join known blocks, nothing leads back to the root,
and every block can be reached from it. The first defect found is reported.
-/

namespace PolicyGraph

/-- Why there is no graph. -/
inductive Defect
  /-- A rule whose index is no number of a port. -/
  | beyondPorts (rule : Nat)
  | noRoot
  | duplicateBlock (id : BlockId)
  | unknownBlock (id : BlockId)
  | rootInbound (root source : BlockId)
  | unreachable (id root : BlockId)
  deriving DecidableEq, Repr

def Defect.message : Defect → String
  | .beyondPorts rule => "Invalid graph: rule index " ++ toString rule ++ " exceeds port range"
  | .noRoot => "Invalid graph: no root block"
  | .duplicateBlock id => "Duplicate block: " ++ id
  | .unknownBlock id => "Unknown block: " ++ id
  | .rootInbound root source =>
    "Invalid graph: root " ++ root ++ " has inbound connector from " ++ source
  | .unreachable id root => "Invalid graph: block " ++ id ++ " is not reachable from root " ++ root

/-- The ids that a connector from one of `sources` leads to. -/
def targets (connectors : List Connector) (sources : List BlockId) : List BlockId :=
  (connectors.filter fun c => sources.contains c.source).map (·.dest)

/-- The ids in `unseen` that no path of connectors reaches from `frontier`, in their order. Each round
takes those that the frontier leads to directly, and they become the next frontier. -/
def unreached (connectors : List Connector) (frontier unseen : List BlockId) : List BlockId :=
  let next := targets connectors frontier
  let left := unseen.removeAll next
  if left.length < unseen.length then
    unreached connectors (unseen.filter next.contains) left
  else unseen
termination_by unseen.length

/-- The first element that occurs before. -/
def firstRepeated? [DecidableEq α] (seen : List α) : List α → Option α
  | [] => none
  | a :: rest => if a ∈ seen then some a else firstRepeated? (a :: seen) rest

structure Draft where
  blocks : List Block := []
  connectors : List Connector := []
  root : Option BlockId := none
  deriving DecidableEq, Inhabited

namespace Draft

def addBlock (b : Block) (d : Draft) : Draft := { d with blocks := d.blocks ++ [b] }

def addBlocks (bs : List Block) (d : Draft) : Draft := { d with blocks := d.blocks ++ bs }

def addConnectors (cs : List Connector) (d : Draft) : Draft :=
  { d with connectors := d.connectors ++ cs }

/-- Sets the block where packets enter, in place of an earlier one. -/
def setRoot (id : BlockId) (d : Draft) : Draft := { d with root := some id }

/-- What is wrong with a connector: its source comes before its destination, and an unknown end before
a known one that is the root. -/
def connectorDefect? (ids : List BlockId) (root : BlockId) (c : Connector) : Option Defect :=
  if !ids.contains c.source then some (.unknownBlock c.source)
  else if !ids.contains c.dest then some (.unknownBlock c.dest)
  else if c.dest == root then some (.rootInbound root c.source)
  else none

/-- The first defect of a draft with a root. -/
def defect? (d : Draft) (root : BlockId) : Option Defect :=
  let ids := d.blocks.map Block.id
  match firstRepeated? [] ids with
  | some id => some (.duplicateBlock id)
  | none =>
    if !ids.contains root then some (.unknownBlock root)
    else match d.connectors.findSome? (connectorDefect? ids root) with
      | some defect => some defect
      | none => (unreached d.connectors [root] (ids.filter (· != root))).head?.map (.unreachable · root)

/-- The graph that the draft describes, unless it has a defect. -/
def build (d : Draft) : Except Defect Graph :=
  match d.root with
  | none => .error .noRoot
  | some root =>
    match d.defect? root with
    | some defect => .error defect
    | none => .ok ⟨d.blocks, d.connectors, root⟩

end Draft

end PolicyGraph
