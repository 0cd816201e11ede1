import Mathlib
import PolicyGraph.Proofs.Draft

/-!
# Counting connectors

In a sound graph a connector ends at one block and leaves one, so counting block by block counts each
connector once, and the block at which most of them end has as many as the statistics say. Every block
but the root is one that a connector ends at. `connectors_accounted` says so of whatever is built,
loops and parallel connectors included.
-/

namespace PolicyGraph

/-! ## Counting -/

/-- Counting the elements equal to each of some distinct ones counts every element once. -/
theorem sum_map_count {α : Type} [DecidableEq α] {keys as : List α} (hkeys : keys.Nodup)
    (h : ∀ a ∈ as, a ∈ keys) : (keys.map fun k => as.count k).sum = as.length := by
  induction as with
  | nil => simp
  | cons a as ih =>
    have hrest := ih fun b hb => h b (List.mem_cons_of_mem _ hb)
    have hone : (keys.map fun k => if a == k then 1 else 0).sum = 1 := by
      rw [List.sum_map_eq_nsmul_single a _ fun k hk _ => by simp [Ne.symm hk],
        List.count_eq_one_of_mem hkeys (h a List.mem_cons_self)]
      simp
    simp only [List.count_cons, List.sum_map_add, hrest, hone, List.length_cons]

theorem foldl_max_le_iff {ns : List Nat} {m n : Nat} :
    ns.foldl max m ≤ n ↔ m ≤ n ∧ ∀ k ∈ ns, k ≤ n := by
  induction ns generalizing m with
  | nil => simp
  | cons k ns ih => rw [List.foldl_cons, ih, Nat.max_le, List.forall_mem_cons, and_assoc]

namespace Graph

variable {g : Graph}

theorem length_inbound (g : Graph) (id : BlockId) :
    (g.inbound id).length = (g.connectors.map (·.dest)).count id := by
  rw [inbound, ← List.countP_eq_length_filter, List.count, List.countP_map]
  rfl

theorem length_outbound (g : Graph) (id : BlockId) :
    (g.outbound id).length = (g.connectors.map (·.source)).count id := by
  rw [outbound, ← List.countP_eq_length_filter, List.count, List.countP_map]
  rfl

theorem length_blocksOfKind (g : Graph) (name : String) :
    (g.blocksOfKind name).length = (g.blocks.map (·.kind.name)).count name := by
  rw [blocksOfKind, ← List.countP_eq_length_filter, List.count, List.countP_map]
  rfl

/-- A bound on the connectors that end at each end of a connector. -/
theorem maxFanIn_le_iff {cs : List Connector} {n : Nat} :
    maxFanIn cs ≤ n ↔ ∀ c ∈ cs, (cs.map (·.dest)).count c.dest ≤ n := by
  rw [maxFanIn, foldl_max_le_iff, List.forall_mem_map]
  simp only [Nat.zero_le, true_and, List.count, List.countP_map]
  rfl

namespace Sound

theorem exists_block (h : g.Sound) {c : Connector} (hc : c ∈ g.connectors) :
    ∃ b ∈ g.blocks, b.id = c.dest :=
  List.mem_map.mp (h.ends_mem c hc).2

/-- The statistics report the most connectors that end at one block. -/
theorem maxFanIn_le_iff (h : g.Sound) {n : Nat} :
    g.statistics.maxFanIn ≤ n ↔ ∀ b ∈ g.blocks, (g.inbound b.id).length ≤ n := by
  simp only [statistics, Graph.maxFanIn_le_iff, length_inbound]
  constructor
  · intro hends b _
    rcases Nat.eq_zero_or_pos ((g.connectors.map (·.dest)).count b.id) with hnone | hsome
    · rw [hnone]
      exact Nat.zero_le n
    · obtain ⟨c, hc, hdest⟩ := List.mem_map.mp (List.count_pos_iff.mp hsome)
      rw [← hdest]
      exact hends c hc
  · intro hblocks c hc
    obtain ⟨b, hb, hid⟩ := h.exists_block hc
    rw [← hid]
    exact hblocks b hb

theorem max?_length_inbound (h : g.Sound) :
    (g.blocks.map fun b => (g.inbound b.id).length).max? = some g.statistics.maxFanIn := by
  cases hmax : (g.blocks.map fun b => (g.inbound b.id).length).max? with
  | none =>
    obtain ⟨b, hb, -⟩ := List.mem_map.mp h.root_mem
    rw [List.max?_eq_none_iff, List.map_eq_nil_iff] at hmax
    simp [hmax] at hb
  | some most =>
    congr 1
    refine eq_of_forall_ge_iff fun n => ?_
    rw [List.max?_le_iff hmax, List.forall_mem_map, h.maxFanIn_le_iff]

theorem sum_length_inbound (h : g.Sound) :
    (g.blocks.map fun b => (g.inbound b.id).length).sum = g.connectors.length := by
  have hdest : ∀ id ∈ g.connectors.map (·.dest), id ∈ g.blocks.map Block.id :=
    List.forall_mem_map.mpr fun c hc => (h.ends_mem c hc).2
  have hsum := sum_map_count h.ids_nodup hdest
  simpa only [List.map_map, List.length_map, Function.comp_def, length_inbound] using hsum

theorem sum_length_outbound (h : g.Sound) :
    (g.blocks.map fun b => (g.outbound b.id).length).sum = g.connectors.length := by
  have hsource : ∀ id ∈ g.connectors.map (·.source), id ∈ g.blocks.map Block.id :=
    List.forall_mem_map.mpr fun c hc => (h.ends_mem c hc).1
  have hsum := sum_map_count h.ids_nodup hsource
  simpa only [List.map_map, List.length_map, Function.comp_def, length_outbound] using hsum

theorem inbound_root (h : g.Sound) : g.inbound g.root = [] := by
  rw [inbound, List.filter_eq_nil_iff]
  intro c hc
  simpa using h.dest_ne_root c hc

/-- The path from the root to another block ends with a connector. -/
theorem mem_dests (h : g.Sound) {id : BlockId} (hid : id ∈ g.blocks.map Block.id)
    (hne : id ≠ g.root) : id ∈ g.connectors.map (·.dest) := by
  rcases (h.reached id hid).cases_tail with heq | ⟨_, -, c, hc, -, hdest⟩
  · exact absurd heq hne
  · exact List.mem_map.mpr ⟨c, hc, hdest⟩

theorem inbound_ne_nil (h : g.Sound) {b : Block} (hb : b ∈ g.blocks) (hne : b.id ≠ g.root) :
    g.inbound b.id ≠ [] := by
  rw [← List.length_pos_iff, length_inbound, List.count_pos_iff]
  exact h.mem_dests (List.mem_map_of_mem hb) hne

/-- There are blocks for at most all ends of connectors and the root. -/
theorem length_blocks_le (h : g.Sound) : g.blocks.length ≤ g.connectors.length + 1 := by
  have hsubset : g.blocks.map Block.id ⊆ g.root :: g.connectors.map (·.dest) := by
    intro id hid
    by_cases hne : id = g.root
    · exact hne ▸ List.mem_cons_self
    · exact List.mem_cons_of_mem _ (h.mem_dests hid hne)
  simpa using h.ids_nodup.length_le_of_subset hsubset

end Sound

end Graph

/-- In every graph that is built the connectors that end at each block, or that leave each block, add up
to all connectors; the most that end at one block is the number in the statistics; none ends at the root
and at least one at every other block, so that there is at most one block more than connectors. -/
theorem connectors_accounted {d : Draft} {g : Graph} (h : d.build = .ok g) :
    ((g.blocks.map fun b => (g.inbound b.id).length).sum = g.connectors.length ∧
      (g.blocks.map fun b => (g.outbound b.id).length).sum = g.connectors.length) ∧
    (g.blocks.map fun b => (g.inbound b.id).length).max? = some g.statistics.maxFanIn ∧
    (∀ b ∈ g.blocks, b.id ≠ g.root → g.inbound b.id ≠ []) ∧
    g.inbound g.root = [] ∧
    g.blocks.length ≤ g.connectors.length + 1 := by
  have hsound := (Draft.build_eq_ok_iff.mp h).2
  exact ⟨⟨hsound.sum_length_inbound, hsound.sum_length_outbound⟩, hsound.max?_length_inbound,
    fun _ hb hne => hsound.inbound_ne_nil hb hne, hsound.inbound_root, hsound.length_blocks_le⟩

/-- A draft with two parallel connectors, a loop of two blocks and a block that is joined to itself. -/
def tangledDraft : Draft where
  blocks :=
    [⟨"in", .fromDevice "eth0" true true⟩, ⟨"sort", .headerClassifier [] .high true⟩,
      ⟨"note", .log "seen"⟩, ⟨"end", .discard⟩]
  connectors :=
    [.join "in" 0 "sort", .join "sort" 0 "note", .join "sort" 1 "note", .join "note" 0 "sort",
      .join "note" 1 "note", .join "note" 2 "end"]
  root := some "in"

theorem tangledDraft_accounted :
    ∃ g, tangledDraft.build = .ok g ∧
      (g.blocks.map fun b => (g.inbound b.id).length) = [0, 2, 3, 1] ∧
      (g.blocks.map fun b => (g.inbound b.id).length).sum = g.connectors.length ∧
      (g.blocks.map fun b => (g.inbound b.id).length).max? = some g.statistics.maxFanIn := by
  have hbuild : tangledDraft.build = .ok ⟨tangledDraft.blocks, tangledDraft.connectors, "in"⟩ := by cbv
  obtain ⟨⟨hinbound, -⟩, hmost, -⟩ := connectors_accounted hbuild
  exact ⟨_, hbuild, by decide, hinbound, hmost⟩

end PolicyGraph
