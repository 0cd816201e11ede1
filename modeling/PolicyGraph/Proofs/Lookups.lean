import Mathlib.Data.List.Nodup
import PolicyGraph.Proofs.Pool

/-!
# Lookups in a pool

A pool finds its blocks by their positions and its output blocks by their interfaces. Whatever calls it
has seen, and whatever blocks it was given in them, its parts agree (`Consistent`), so that a lookup in
the course of a call always finds a block (`pool_always_consistent`).
-/

namespace PolicyGraph

/-! ## Sequences of calls -/

/-- One call on a pool. -/
inductive PoolCall
  | register (b : Block)
  /-- `fresh` is the block for an interface that has none; it may be a block of any kind. -/
  | output (interface : String) (fresh : Block)

/-- What the call makes of a pool. -/
def PoolCall.apply (p : Pool) : PoolCall → Pool
  | .register b => p.register b
  | .output interface fresh => (p.output interface fresh).2

namespace Pool

/-- The pool that a sequence of calls makes of an empty one. -/
def ofCalls (calls : List PoolCall) : Pool := calls.foldl PoolCall.apply {}

/-! ## Calls with their lookups

The operations on pools give out ids without a look at the blocks. Here they are once more with every
lookup on the way, as computations that end without a result if one of them finds nothing. -/

/-- Registers a block. An id that is taken is given out as the block at its position has it. -/
def register? (b : Block) (p : Pool) : Option (BlockId × Pool) :=
  match p.positions.lookup b.id with
  | some k => p.blocks[k]?.map fun old => (old.id, p)
  | none => some (b.id, p.register b)

/-- The output block for an interface, looked up by its id. -/
def output? (interface : String) (fresh : Block) (p : Pool) : Option (Block × Pool) := do
  let (id, p) ← match p.sink? interface with
    | some id => some (id, p)
    | none => (p.register? fresh).map fun (id, p) => (id, p.serve interface id)
  return (← p.block? id, p)

/-! ## What holds of a pool at all times -/

/-- The blocks, their positions and the sinks agree. -/
structure Consistent (p : Pool) : Prop where
  ids_nodup : (p.blocks.map Block.id).Nodup
  indexed : p.Indexed
  /-- Every interface that an output block writes to is served. -/
  served : ∀ b ∈ p.blocks, ∀ i, b.outputInterface? = some i → (p.sink? i).isSome = true
  /-- What serves an interface is a block of the pool. -/
  sink_mem : ∀ i id, p.sink? i = some id → id ∈ p.blocks.map Block.id

namespace Consistent

variable {p : Pool} {b : Block} {id : BlockId} {interface : String} {k : Nat}

theorem empty : Consistent {} where
  ids_nodup := List.nodup_nil
  indexed := indexed_empty
  served := fun _ hb => absurd hb List.not_mem_nil
  sink_mem := fun _ _ h => nomatch h

theorem getD_sink? (h : p.Consistent) (interface : String) (id : BlockId) :
    (p.sink? interface).getD id = id ∨ (p.sink? interface).getD id ∈ p.blocks.map Block.id := by
  cases hsink : p.sink? interface with
  | none => exact .inl rfl
  | some old => exact .inr (h.sink_mem _ _ hsink)

/-- A block of the pool may serve an interface. -/
theorem serve (h : p.Consistent) (hid : id ∈ p.blocks.map Block.id) :
    (p.serve interface id).Consistent where
  ids_nodup := by
    rw [blocks_serve]
    exact h.ids_nodup
  indexed := indexed_serve h.indexed
  served := by
    intro b hb i hi
    rw [blocks_serve] at hb
    rw [sink?_serve]
    split
    · rfl
    · exact h.served b hb i hi
  sink_mem := by
    intro i id' hsink
    rw [sink?_serve] at hsink
    rw [blocks_serve]
    split at hsink
    · rw [← Option.some.inj hsink]
      rcases h.getD_sink? interface id with heq | hold
      · rw [heq]
        exact hid
      · exact hold
    · exact h.sink_mem i id' hsink

theorem register_new (h : p.Consistent) (hb : b.id ∉ p.blocks.map Block.id) :
    (p.register b).Consistent where
  ids_nodup := by
    rw [blocks_register_new h.indexed hb, List.map_append, List.map_singleton,
      List.nodup_append_comm, List.singleton_append, List.nodup_cons]
    exact ⟨hb, h.ids_nodup⟩
  indexed := indexed_register h.indexed
  served := by
    intro b' hb' i hi
    rw [sink?_register_new h.indexed hb]
    split
    · rfl
    · next hne =>
      rw [blocks_register_new h.indexed hb, List.mem_append, List.mem_singleton] at hb'
      rcases hb' with hold | rfl
      · exact h.served b' hold i hi
      · exact absurd hi hne
  sink_mem := by
    -- Its own interface is served by the block itself, if by no older one.
    intro i id hsink
    rw [sink?_register_new h.indexed hb] at hsink
    rw [blocks_register_new h.indexed hb, List.map_append, List.mem_append]
    split at hsink
    · rw [← Option.some.inj hsink]
      rcases h.getD_sink? i b.id with heq | hold
      · rw [heq]
        exact .inr List.mem_cons_self
      · exact .inl hold
    · exact .inl (h.sink_mem i id hsink)

theorem register (h : p.Consistent) : (p.register b).Consistent := by
  by_cases hb : b.id ∈ p.blocks.map Block.id
  · rw [register_old h.indexed hb]
    exact h
  · exact h.register_new hb

/-- After a registration the id is taken, by that block or by an older one. -/
theorem id_mem_register (h : p.Consistent) : b.id ∈ (p.register b).blocks.map Block.id := by
  by_cases hb : b.id ∈ p.blocks.map Block.id
  · rw [register_old h.indexed hb]
    exact hb
  · rw [blocks_register_new h.indexed hb]
    simp

theorem output (h : p.Consistent) (interface : String) (fresh : Block) :
    (p.output interface fresh).2.Consistent ∧
      (p.output interface fresh).1 ∈ (p.output interface fresh).2.blocks.map Block.id := by
  cases hsink : p.sink? interface with
  | some id =>
    rw [output_of_sink hsink]
    exact ⟨h, h.sink_mem _ _ hsink⟩
  | none =>
    rw [output_of_none hsink]
    refine ⟨h.register.serve h.id_mem_register, ?_⟩
    rw [blocks_serve]
    exact h.id_mem_register

theorem apply (h : p.Consistent) (call : PoolCall) : (call.apply p).Consistent := by
  cases call with
  | register b => exact h.register
  | output interface fresh => exact (h.output interface fresh).1

theorem foldl_apply (h : p.Consistent) (calls : List PoolCall) :
    (calls.foldl PoolCall.apply p).Consistent := by
  induction calls generalizing p with
  | nil => exact h
  | cons call rest ih => exact ih (h.apply call)

/-! ## Finding blocks -/

/-- The position of an id is that of the block with the id. -/
theorem lookup_eq_some_iff (h : p.Consistent) :
    p.positions.lookup id = some k ↔ ∃ b, p.blocks[k]? = some b ∧ b.id = id := by
  refine ⟨exists_block_of_lookup h.indexed, ?_⟩
  rintro ⟨b, hb, rfl⟩
  have htaken := (lookup_isSome_iff h.indexed).mpr (List.mem_map_of_mem (List.mem_of_getElem? hb))
  obtain ⟨k', hk'⟩ := Option.isSome_iff_exists.mp htaken
  obtain ⟨b', hb', hid⟩ := exists_block_of_lookup h.indexed hk'
  -- Two places of one id are the same place.
  have hat : (p.blocks.map Block.id)[k]? = some b.id := by simp [hb]
  have hat' : (p.blocks.map Block.id)[k']? = some b.id := by simp [hb', hid]
  have hlt := (List.getElem?_eq_some_iff.mp hat').1
  rw [hk', (List.getElem?_inj hlt h.ids_nodup).mp (hat'.trans hat.symm)]

/-- The block with an id is the one that is stored under it. -/
theorem block?_eq_some_iff (h : p.Consistent) :
    p.block? id = some b ↔ b ∈ p.blocks ∧ b.id = id := by
  constructor
  · intro hb
    obtain ⟨k, hk, hat⟩ := Option.bind_eq_some_iff.mp hb
    obtain ⟨b', hat', hid⟩ := exists_block_of_lookup h.indexed hk
    rw [hat, Option.some.injEq] at hat'
    subst hat'
    exact ⟨List.mem_of_getElem? hat, hid⟩
  · rintro ⟨hmem, rfl⟩
    obtain ⟨k, hk⟩ := List.mem_iff_getElem?.mp hmem
    rw [block?, h.lookup_eq_some_iff.mpr ⟨b, hk, rfl⟩]
    exact hk

theorem exists_block? (h : p.Consistent) (hid : id ∈ p.blocks.map Block.id) :
    ∃ b, p.block? id = some b ∧ b.id = id := by
  obtain ⟨b, hb, rfl⟩ := List.mem_map.mp hid
  exact ⟨b, h.block?_eq_some_iff.mpr ⟨hb, rfl⟩, rfl⟩

theorem register?_eq (h : p.Consistent) : p.register? b = some (b.id, p.register b) := by
  unfold register?
  split
  · next k hk =>
    obtain ⟨old, hold, hid⟩ := exists_block_of_lookup h.indexed hk
    have htaken : b.id ∈ p.blocks.map Block.id := by
      rw [← lookup_isSome_iff h.indexed, hk]
      rfl
    rw [hold, register_old h.indexed htaken, ← hid]
    rfl
  · rfl

/-- The output block is looked up by the id that is given out for the interface. -/
theorem output?_eq (h : p.Consistent) (interface : String) (fresh : Block) :
    p.output? interface fresh =
      ((p.output interface fresh).2.block? (p.output interface fresh).1).map
        fun b => (b, (p.output interface fresh).2) := by
  unfold output?
  cases hsink : p.sink? interface with
  | some id =>
    rw [output_of_sink hsink]
    cases hb : p.block? id <;> simp [hb]
  | none =>
    rw [output_of_none hsink]
    cases hb : ((p.register fresh).serve interface fresh.id).block? fresh.id <;>
      simp [h.register?_eq, hb]

theorem exists_output?_eq (h : p.Consistent) (interface : String) (fresh : Block) :
    ∃ b, p.output? interface fresh = some (b, (p.output interface fresh).2) ∧
      b.id = (p.output interface fresh).1 := by
  obtain ⟨hnext, hmem⟩ := h.output interface fresh
  obtain ⟨b, hb, hid⟩ := hnext.exists_block? hmem
  refine ⟨b, ?_, hid⟩
  rw [h.output?_eq, hb, Option.map_some]

end Consistent

theorem consistent_ofCalls (calls : List PoolCall) : (ofCalls calls).Consistent :=
  Consistent.empty.foldl_apply calls

end Pool

open Pool

/-- Whatever calls a pool has seen, the ids of its blocks are distinct, the positions are exactly those of
its blocks, every interface of an output block is served, and what serves an interface is a block of the
pool. So both operations find whatever they look up: a registration gives out the id it was called with,
and the output block for an interface is found by its id. -/
theorem pool_always_consistent (calls : List PoolCall) :
    ((ofCalls calls).blocks.map Block.id).Nodup ∧
    (∀ id k, (ofCalls calls).positions.lookup id = some k ↔
      ∃ b, (ofCalls calls).blocks[k]? = some b ∧ b.id = id) ∧
    (∀ b ∈ (ofCalls calls).blocks, ∀ i, b.outputInterface? = some i →
      ∃ id, (ofCalls calls).sink? i = some id) ∧
    (∀ i id, (ofCalls calls).sink? i = some id → id ∈ (ofCalls calls).blocks.map Block.id) ∧
    (∀ b, (ofCalls calls).register? b = some (b.id, (ofCalls calls).register b)) ∧
    ∀ i fresh, ∃ b, (ofCalls calls).output? i fresh = some (b, ((ofCalls calls).output i fresh).2) ∧
      b.id = ((ofCalls calls).output i fresh).1 := by
  have h := consistent_ofCalls calls
  refine ⟨h.ids_nodup, fun _ _ => h.lookup_eq_some_iff, fun b hb i hi => ?_, h.sink_mem,
    fun _ => h.register?_eq, h.exists_output?_eq⟩
  exact Option.isSome_iff_exists.mp (h.served b hb i hi)

end PolicyGraph
