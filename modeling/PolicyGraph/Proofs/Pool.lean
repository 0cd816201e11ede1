import PolicyGraph.Pool

/-!
# What the operations on pools do

The equations of `serve`, `register` and `output` on the blocks, the positions and the sinks of a pool.
`Indexed` says that the positions list the ids of the blocks; every operation keeps it.
-/

namespace PolicyGraph.Pool

variable {p : Pool} {b : Block} {id : BlockId} {interface : String}

/-! ## Serving interfaces -/

@[simp] theorem blocks_serve : (p.serve interface id).blocks = p.blocks := by
  unfold serve
  split <;> rfl

@[simp] theorem positions_serve : (p.serve interface id).positions = p.positions := by
  unfold serve
  split <;> rfl

/-- An interface keeps the block that serves it. -/
theorem sink?_serve (other : String) :
    (p.serve interface id).sink? other =
      if other = interface then some ((p.sink? interface).getD id) else p.sink? other := by
  unfold serve
  cases hsink : p.sink? interface with
  | some old =>
    simp only [Option.isSome_some, if_true, Option.getD_some]
    split
    · next h => rw [h, hsink]
    · rfl
  | none =>
    simp only [Option.isSome_none, Bool.false_eq_true, if_false, Option.getD_none]
    simp only [sink?] at hsink ⊢
    rw [List.lookup_append]
    by_cases h : other = interface
    · subst h
      rw [hsink, if_pos rfl]
      simp
    · have hne : (other == interface) = false := by simpa using h
      rw [if_neg h]
      simp [List.lookup_cons, hne]

/-! ## Positions -/

/-- The positions list the ids of the blocks, each with its place. -/
def Indexed (p : Pool) : Prop := p.positions = p.blocks.zipIdx.map fun (b, k) => (b.id, k)

theorem indexed_empty : Indexed {} := rfl

theorem indexed_serve (hp : p.Indexed) : (p.serve interface id).Indexed := by
  unfold Indexed
  rw [positions_serve, blocks_serve]
  exact hp

/-- An id has a position just if a block has the id. -/
theorem lookup_isSome_iff (hp : p.Indexed) :
    (p.positions.lookup id).isSome = true ↔ id ∈ p.blocks.map Block.id := by
  rw [List.lookup_isSome_iff, hp, List.mem_map]
  constructor
  · rintro ⟨⟨id', k⟩, hmem, heq⟩
    rw [List.mem_map] at hmem
    obtain ⟨⟨b, k'⟩, hb, hpair⟩ := hmem
    cases hpair
    exact ⟨b, List.fst_mem_of_mem_zipIdx hb, (beq_iff_eq.mp heq).symm⟩
  · rintro ⟨b, hb, rfl⟩
    obtain ⟨k, hk⟩ := List.mem_iff_getElem?.mp hb
    refine ⟨(b.id, k), List.mem_map.mpr ⟨(b, k), ?_, rfl⟩, beq_self_eq_true _⟩
    exact List.mk_mem_zipIdx_iff_getElem?.mpr hk

/-- At the position of an id there is a block with the id. -/
theorem exists_block_of_lookup (hp : p.Indexed) {k : Nat} (hk : p.positions.lookup id = some k) :
    ∃ b, p.blocks[k]? = some b ∧ b.id = id := by
  obtain ⟨before, after, hsplit, -⟩ := List.lookup_eq_some_iff.mp hk
  have hmem : (id, k) ∈ p.positions := by
    rw [hsplit]
    simp
  rw [hp, List.mem_map] at hmem
  obtain ⟨⟨b, k'⟩, hb, hpair⟩ := hmem
  cases hpair
  exact ⟨b, List.mk_mem_zipIdx_iff_getElem?.mp hb, rfl⟩

/-! ## Adding blocks -/

/-- A block whose id is taken changes nothing. -/
theorem register_old (hp : p.Indexed) (hb : b.id ∈ p.blocks.map Block.id) : p.register b = p := by
  unfold register
  rw [if_pos ((lookup_isSome_iff hp).mpr hb)]

theorem blocks_register_new (hp : p.Indexed) (hb : b.id ∉ p.blocks.map Block.id) :
    (p.register b).blocks = p.blocks ++ [b] := by
  unfold register
  rw [if_neg (mt (lookup_isSome_iff hp).mp hb)]
  cases b.outputInterface? <;> simp only [blocks_serve]

theorem indexed_register (hp : p.Indexed) : (p.register b).Indexed := by
  by_cases hb : b.id ∈ p.blocks.map Block.id
  · rw [register_old hp hb]
    exact hp
  · have hblocks := blocks_register_new hp hb
    unfold Indexed at hp ⊢
    rw [hblocks, List.zipIdx_append, List.map_append, ← hp]
    unfold register
    rw [if_neg (mt (lookup_isSome_iff hp).mp hb)]
    cases b.outputInterface? <;> simp

/-- An output block that is new serves its interface unless another does. -/
theorem sink?_register_new (hp : p.Indexed) (hb : b.id ∉ p.blocks.map Block.id) (other : String) :
    (p.register b).sink? other =
      if b.outputInterface? = some other then some ((p.sink? other).getD b.id)
      else p.sink? other := by
  unfold register
  rw [if_neg (mt (lookup_isSome_iff hp).mp hb)]
  cases hi : b.outputInterface? with
  | none => simp [sink?]
  | some i =>
    simp only [Option.some.injEq]
    show (p.serve i b.id).sink? other = _
    rw [sink?_serve]
    by_cases h : other = i
    · simp only [h, if_true]
    · simp only [h, Ne.symm h, if_false]

/-! ## Output blocks -/

theorem output_of_sink {sink : BlockId} {fresh : Block} (h : p.sink? interface = some sink) :
    p.output interface fresh = (sink, p) := by
  simp only [output, h]

theorem output_of_none {fresh : Block} (h : p.sink? interface = none) :
    p.output interface fresh = (fresh.id, (p.register fresh).serve interface fresh.id) := by
  simp only [output, h]

end PolicyGraph.Pool
