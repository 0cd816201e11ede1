import Mathlib.Data.List.Infix
import PolicyGraph.Proofs.Lookups

/-!
# How a pool grows

A call adds at most one block, at the end, and nothing that a pool holds is ever changed: not its blocks,
and not which block serves an interface. So the first block with an id stays (`register_old`), and an
interface keeps its block through whatever calls come later (`KeepsServing`). Both are put together in
`pool_grows_first_wins`.
-/

namespace PolicyGraph

namespace Pool

variable {p : Pool} {b : Block} {id : BlockId} {interface : String}

/-! ## Blocks made on demand -/

/-- The output block for an interface, where the block for an interface that has none is made on demand:
`make` is an action of its own, with whatever effects it has. -/
def outputOnDemand {m : Type → Type} [Monad m] (interface : String) (make : m Block) (p : Pool) :
    m (Option (Block × Pool)) :=
  match p.sink? interface with
  | some id => pure ((p.block? id).map fun b => (b, p))
  | none => do return p.output? interface (← make)

/-! ## Blocks are only appended -/

/-- A registration adds the block at the end or changes nothing. -/
theorem register_cases (hp : p.Indexed) (b : Block) :
    p.register b = p ∨ (p.register b).blocks = p.blocks ++ [b] := by
  by_cases hb : b.id ∈ p.blocks.map Block.id
  · exact .inl (register_old hp hb)
  · exact .inr (blocks_register_new hp hb)

theorem blocks_register (hp : p.Indexed) (b : Block) :
    ∃ added : List Block, (p.register b).blocks = p.blocks ++ added ∧ added.length ≤ 1 := by
  rcases register_cases hp b with hsame | hnew
  · exact ⟨[], by rw [hsame, List.append_nil], Nat.zero_le _⟩
  · exact ⟨[b], hnew, Nat.le_refl _⟩

theorem blocks_apply (hp : p.Indexed) (call : PoolCall) :
    ∃ added : List Block, (call.apply p).blocks = p.blocks ++ added ∧ added.length ≤ 1 := by
  cases call with
  | register b => exact blocks_register hp b
  | output interface fresh =>
    show ∃ added : List Block, (p.output interface fresh).2.blocks = p.blocks ++ added ∧ _
    cases hsink : p.sink? interface with
    | some id =>
      rw [output_of_sink hsink]
      exact ⟨[], (List.append_nil _).symm, Nat.zero_le _⟩
    | none =>
      rw [output_of_none hsink, blocks_serve]
      exact blocks_register hp fresh

/-! ## Interfaces keep their blocks -/

theorem sink?_serve_of_some (h : p.sink? interface = some id) (other : String) (new : BlockId) :
    (p.serve other new).sink? interface = some id := by
  rw [sink?_serve]
  split
  · next heq => rw [← heq, h, Option.getD_some]
  · exact h

theorem sink?_register_of_some (hp : p.Indexed) (h : p.sink? interface = some id) (b : Block) :
    (p.register b).sink? interface = some id := by
  by_cases hb : b.id ∈ p.blocks.map Block.id
  · rw [register_old hp hb]
    exact h
  · rw [sink?_register_new hp hb, h, Option.getD_some, ite_self]

/-- No call lets another block serve an interface that is served. -/
theorem sink?_apply_of_some (hp : p.Indexed) (h : p.sink? interface = some id) (call : PoolCall) :
    (call.apply p).sink? interface = some id := by
  cases call with
  | register b => exact sink?_register_of_some hp h b
  | output other fresh =>
    show (p.output other fresh).2.sink? interface = some id
    cases hsink : p.sink? other with
    | some old =>
      rw [output_of_sink hsink]
      exact h
    | none =>
      rw [output_of_none hsink]
      exact sink?_serve_of_some (sink?_register_of_some hp h fresh) other fresh.id

/-- After an output the interface is served by the block that was given out. -/
theorem sink?_output (hp : p.Indexed) (interface : String) (fresh : Block) :
    (p.output interface fresh).2.sink? interface = some (p.output interface fresh).1 := by
  cases hsink : p.sink? interface with
  | some id =>
    rw [output_of_sink hsink]
    exact hsink
  | none =>
    rw [output_of_none hsink]
    show ((p.register fresh).serve interface fresh.id).sink? interface = some fresh.id
    rw [sink?_serve, if_pos rfl]
    -- Where the registration has let a block serve the interface, it is the fresh one.
    by_cases hfresh : fresh.id ∈ p.blocks.map Block.id
    · rw [register_old hp hfresh, hsink, Option.getD_none]
    · rw [sink?_register_new hp hfresh, hsink, Option.getD_none]
      split <;> rfl

/-! ## Later calls -/

/-- The pool after some more calls. -/
def after (p : Pool) (later : List PoolCall) : Pool := later.foldl PoolCall.apply p

theorem after_ofCalls (before rest : List PoolCall) :
    (ofCalls before).after rest = ofCalls (before ++ rest) :=
  (List.foldl_append).symm

theorem ofCalls_concat (calls : List PoolCall) (call : PoolCall) :
    ofCalls (calls ++ [call]) = call.apply (ofCalls calls) :=
  (after_ofCalls calls [call]).symm

/-- The block is there and serves the interface, now and after any later calls: each output to the
interface gives it out, leaves the pool as it is and makes no block. -/
def KeepsServing (interface : String) (b : Block) (p : Pool) : Prop :=
  ∀ later : List PoolCall,
    (p.after later).block? b.id = some b ∧
    (∀ fresh, (p.after later).output interface fresh = (b.id, p.after later)) ∧
    ∀ (m : Type → Type) [Monad m] (make : m Block),
      outputOnDemand interface make (p.after later) = pure (some (b, p.after later))

namespace Consistent

theorem block?_apply (h : p.Consistent) (hb : p.block? id = some b) (call : PoolCall) :
    (call.apply p).block? id = some b := by
  obtain ⟨hmem, hid⟩ := h.block?_eq_some_iff.mp hb
  obtain ⟨added, hblocks, -⟩ := blocks_apply h.indexed call
  refine (h.apply call).block?_eq_some_iff.mpr ⟨?_, hid⟩
  rw [hblocks]
  exact List.mem_append_left _ hmem

/-- A block that serves an interface keeps doing so. -/
theorem keepsServing (h : p.Consistent) (hsink : p.sink? interface = some b.id)
    (hb : p.block? b.id = some b) : p.KeepsServing interface b := by
  intro later
  induction later generalizing p with
  | nil =>
    refine ⟨hb, fun fresh => output_of_sink hsink, fun m _ make => ?_⟩
    simp only [after, List.foldl_nil, outputOnDemand, hsink, hb, Option.map_some]
  | cons call rest ih =>
    exact ih (h.apply call) (sink?_apply_of_some h.indexed hsink call) (h.block?_apply hb call)

/-- What serves an interface is a block, and it keeps serving it. -/
theorem exists_keepsServing (h : p.Consistent) (hserved : (p.sink? interface).isSome = true) :
    ∃ b ∈ p.blocks, p.KeepsServing interface b := by
  obtain ⟨id, hsink⟩ := Option.isSome_iff_exists.mp hserved
  obtain ⟨b, hb, rfl⟩ := h.exists_block? (h.sink_mem _ _ hsink)
  exact ⟨b, (h.block?_eq_some_iff.mp hb).1, h.keepsServing hsink hb⟩

/-- The block that an output gives out keeps serving the interface. -/
theorem keepsServing_output (h : p.Consistent) {fresh : Block} {q : Pool}
    (hout : p.output? interface fresh = some (b, q)) : q.KeepsServing interface b := by
  rw [h.output?_eq, Option.map_eq_some_iff] at hout
  obtain ⟨b', hb', heq⟩ := hout
  obtain ⟨rfl, rfl⟩ := Prod.mk.inj heq
  have hnext := (h.output interface fresh).1
  have hid : b'.id = (p.output interface fresh).1 := (hnext.block?_eq_some_iff.mp hb').2
  rw [← hid] at hb'
  refine hnext.keepsServing ?_ hb'
  rw [hid]
  exact sink?_output h.indexed interface fresh

end Consistent

end Pool

open Pool

/-- Whatever calls a pool has seen: any further call keeps its blocks as they are and adds at most one at
the end; to register a block whose id is taken changes nothing and gives the id out; and an interface
with an output block in the pool, or one that has been given a block, has one and the same block from then
on, which later calls give out without making another and without changing the pool. -/
theorem pool_grows_first_wins (calls : List PoolCall) :
    (∀ call : PoolCall, ∃ added, (call.apply (ofCalls calls)).blocks = (ofCalls calls).blocks ++ added ∧
      added.length ≤ 1) ∧
    (∀ b, b.id ∈ (ofCalls calls).blocks.map Block.id →
      (ofCalls calls).register b = ofCalls calls ∧
      (ofCalls calls).register? b = some (b.id, ofCalls calls)) ∧
    (∀ interface, (∃ b ∈ (ofCalls calls).blocks, b.outputInterface? = some interface) →
      ∃ b ∈ (ofCalls calls).blocks, (ofCalls calls).KeepsServing interface b) ∧
    ∀ interface fresh b q, (ofCalls calls).output? interface fresh = some (b, q) →
      q = (PoolCall.output interface fresh).apply (ofCalls calls) ∧ q.KeepsServing interface b := by
  have h := consistent_ofCalls calls
  refine ⟨blocks_apply h.indexed, fun b hb => ?_, ?_, fun interface fresh b q hout => ⟨?_, ?_⟩⟩
  · have hold := register_old h.indexed hb
    refine ⟨hold, ?_⟩
    rw [h.register?_eq, hold]
  · rintro interface ⟨b, hb, hi⟩
    exact h.exists_keepsServing (h.served b hb interface hi)
  · obtain ⟨b', heq, -⟩ := h.exists_output?_eq interface fresh
    rw [hout, Option.some.injEq, Prod.mk.injEq] at heq
    exact heq.2
  · exact h.keepsServing_output hout

end PolicyGraph
