import PolicyGraph.Block

/-!
# Pools of blocks

A pool holds the blocks of one compilation and decides which of them are shared. Blocks are shared by
id, where the first block with an id stays, and output blocks also by the interface they write to.
-/

namespace PolicyGraph

structure Pool where
  /-- The blocks, in the order in which they were added. -/
  blocks : List Block := []
  /-- The position of each block by its id. -/
  positions : List (BlockId × Nat) := []
  /-- The output block that serves each interface. -/
  sinks : List (String × BlockId) := []
  deriving DecidableEq, Inhabited

namespace Pool

/-- The block with an id, by way of its position. -/
def block? (p : Pool) (id : BlockId) : Option Block :=
  (p.positions.lookup id).bind (p.blocks[·]?)

/-- The id of the block that serves an interface. -/
def sink? (p : Pool) (interface : String) : Option BlockId := p.sinks.lookup interface

/-- Lets a block serve an interface that none serves yet. -/
def serve (interface : String) (id : BlockId) (p : Pool) : Pool :=
  if (p.sink? interface).isSome then p else { p with sinks := p.sinks ++ [(interface, id)] }

/-- Adds a block unless its id is taken. An output block then serves its interface, if none did. -/
def register (b : Block) (p : Pool) : Pool :=
  if (p.positions.lookup b.id).isSome then p
  else
    let p := match b.outputInterface? with
      | some interface => p.serve interface b.id
      | none => p
    { p with
      blocks := p.blocks ++ [b]
      positions := p.positions ++ [(b.id, p.blocks.length)] }

/-- The id of the output block for an interface. On first use the given block is added and serves the
interface from then on. -/
def output (interface : String) (fresh : Block) (p : Pool) : BlockId × Pool :=
  match p.sink? interface with
  | some id => (id, p)
  | none => (fresh.id, (p.register fresh).serve interface fresh.id)

end Pool

end PolicyGraph
