import PolicyGraph.Block

/-!
# Processing graphs

Blocks joined by connectors, with the block where packets enter. Blocks and connectors keep the order
in which they were added.
-/

namespace PolicyGraph

/-- From an output port of one block to an input port of another. -/
structure Connector where
  source : BlockId
  sourcePort : Nat
  dest : BlockId
  destPort : Nat
  deriving DecidableEq, Repr, Inhabited

/-- Blocks have a single input port. -/
def Connector.join (source : BlockId) (port : Nat) (dest : BlockId) : Connector :=
  ⟨source, port, dest, 0⟩

structure Graph where
  blocks : List Block
  connectors : List Connector
  root : BlockId
  deriving DecidableEq, Inhabited

namespace Graph

def block? (g : Graph) (id : BlockId) : Option Block :=
  g.blocks.find? (·.id == id)

def rootBlock? (g : Graph) : Option Block := g.block? g.root

/-- The blocks of the kind with a name. -/
def blocksOfKind (g : Graph) (name : String) : List Block :=
  g.blocks.filter (·.kind.name == name)

/-- The connectors that end at a block. -/
def inbound (g : Graph) (id : BlockId) : List Connector :=
  g.connectors.filter (·.dest == id)

/-- The connectors that leave a block. -/
def outbound (g : Graph) (id : BlockId) : List Connector :=
  g.connectors.filter (·.source == id)

/-- The first header classifier. -/
def classifier? (g : Graph) : Option Block :=
  g.blocks.find? (·.entries?.isSome)

end Graph

/-- The shape of a graph in numbers. -/
structure Statistics where
  totalBlocks : Nat
  connectors : Nat
  classifierRules : Nat
  outputSinks : Nat
  alertBlocks : Nat
  logBlocks : Nat
  /-- The most connectors that end at one block. -/
  maxFanIn : Nat
  deriving DecidableEq, Repr, Inhabited

namespace Graph

/-- The most connectors with one end in common. -/
def maxFanIn (connectors : List Connector) : Nat :=
  (connectors.map fun c => connectors.countP (·.dest == c.dest)).foldl max 0

def statistics (g : Graph) : Statistics where
  totalBlocks := g.blocks.length
  connectors := g.connectors.length
  classifierRules := (g.blocks.flatMap fun b => b.entries?.getD []).length
  outputSinks := (g.blocksOfKind "ToDevice").length
  alertBlocks := (g.blocksOfKind "Alert").length
  logBlocks := (g.blocksOfKind "Log").length
  maxFanIn := maxFanIn g.connectors

end Graph

/-! ## Graphs as trees -/

def Connector.toTree (c : Connector) : Tree :=
  .object [("source_block", .text c.source), ("source_output_port", .ofNat c.sourcePort),
    ("dest_block", .text c.dest), ("dest_input_port", .ofNat c.destPort)]

def Graph.toTree (g : Graph) : Tree :=
  .object [("blocks", .list (g.blocks.map Block.toTree)),
    ("connectors", .list (g.connectors.map Connector.toTree)), ("root", .text g.root)]

def Statistics.toTree (s : Statistics) : Tree :=
  .object [("total_blocks", .ofNat s.totalBlocks), ("connectors", .ofNat s.connectors),
    ("classifier_rules", .ofNat s.classifierRules), ("output_sinks", .ofNat s.outputSinks),
    ("alert_blocks", .ofNat s.alertBlocks), ("log_blocks", .ofNat s.logBlocks),
    ("max_fan_in", .ofNat s.maxFanIn)]

end PolicyGraph
