import Mathlib.Data.List.Induction
import Mathlib.Data.List.Nodup
import PolicyGraph.Proofs.Draft
import PolicyGraph.Proofs.Plan

/-!
# Plans are sound

The graph of a plan keeps every promise of `Graph.Sound`, whatever the policy is. Ids are unique because
steps of one id have one block, and every stage is reached along the chain of a rule that uses it.
-/

namespace PolicyGraph

/-- Adding an element at the end. -/
theorem eraseDups_concat {α : Type} [DecidableEq α] (as : List α) (a : α) :
    (as ++ [a]).eraseDups = if a ∈ as then as.eraseDups else as.eraseDups ++ [a] := by
  rw [List.eraseDups_append]
  split
  · next h => simp [List.removeAll, h]
  · next h => simp [List.removeAll, h, List.eraseDups_cons]

theorem nodup_eraseDups {α : Type} [DecidableEq α] (as : List α) : as.eraseDups.Nodup := by
  induction as using List.reverseRecOn with
  | nil => exact List.nodup_nil
  | append_singleton as a ih =>
    rw [eraseDups_concat]
    split
    · exact ih
    · next h =>
      rw [List.nodup_append_comm]
      exact List.nodup_cons.mpr ⟨mt List.mem_eraseDups.mp h, ih⟩

/-- Elements that are told apart by their images are first where their images are. -/
theorem map_eraseDups {α β : Type} [DecidableEq α] [DecidableEq β] {f : α → β} {as : List α}
    (hf : ∀ a ∈ as, ∀ b ∈ as, f a = f b → a = b) : as.eraseDups.map f = (as.map f).eraseDups := by
  induction as using List.reverseRecOn with
  | nil => rfl
  | append_singleton as a ih =>
    have hmem : a ∈ as ↔ f a ∈ as.map f := by
      refine ⟨List.mem_map_of_mem, fun h => ?_⟩
      obtain ⟨b, hb, heq⟩ := List.mem_map.mp h
      exact hf b (List.mem_append_left _ hb) a (by simp) heq ▸ hb
    have hrest := ih fun a ha b hb => hf a (List.mem_append_left _ ha) b (List.mem_append_left _ hb)
    rw [List.map_append, List.map_singleton, eraseDups_concat, eraseDups_concat, ← hrest]
    simp only [← hmem]
    split
    · rfl
    · rw [List.map_append, List.map_singleton]

/-- The block of an id that a block of the graph has. -/
theorem Graph.Sound.block?_eq_some {g : Graph} {b : Block} (h : g.Sound) (hb : b ∈ g.blocks) :
    g.block? b.id = some b := by
  cases hfind : g.block? b.id with
  | none => simpa using List.find?_eq_none.mp hfind b hb
  | some b' =>
    have hid : b'.id = b.id := by simpa using List.find?_some hfind
    rw [List.inj_on_of_nodup_map h.ids_nodup (List.mem_of_find?_eq_some hfind) hb hid]

namespace Plan

variable {source : Source} {rules : List Rule} {s t : Step}

/-! ## Unique ids -/

/-- The ids of the stages are those of all steps, each at its first use. -/
theorem ids_stages (rules : List Rule) :
    (stages rules).map Block.id = ((steps rules).map (stageId rules)).eraseDups := by
  rw [stages, map_eraseDups, List.map_map]
  · rfl
  · intro a ha b hb h
    obtain ⟨s, hs, rfl⟩ := List.mem_map.mp ha
    obtain ⟨t, ht, rfl⟩ := List.mem_map.mp hb
    exact stage_eq_of_id_eq hs ht h

theorem nodup_ids_stages (rules : List Rule) : ((stages rules).map Block.id).Nodup := by
  rw [ids_stages]
  exact nodup_eraseDups _

theorem ids_graph (source : Source) (rules : List Rule) :
    (graph source rules).blocks.map Block.id =
      source.block.id :: ((stages rules).map Block.id ++ [classifierId]) := by
  simp only [graph, List.map_cons, List.map_append, List.map_nil, classifier]

theorem not_mem_ids_stages {id : BlockId} (hid : id ∈ [classifierId, deviceId, dumpId]) :
    id ∉ (stages rules).map Block.id := by
  intro h
  obtain ⟨s, -, hs⟩ := mem_ids_stages_iff.mp h
  exact stageId_ne hid hs

theorem nodup_ids_graph (source : Source) (rules : List Rule) :
    ((graph source rules).blocks.map Block.id).Nodup := by
  rw [ids_graph, List.nodup_cons, List.nodup_append_comm, List.singleton_append, List.nodup_cons]
  refine ⟨?_, not_mem_ids_stages (by simp), nodup_ids_stages rules⟩
  rw [List.mem_append, List.mem_singleton]
  rintro (h | h)
  · exact not_mem_ids_stages (source_id_mem source) h
  · exact source_id_ne_classifierId source h

theorem stageId_mem_ids_graph (hs : s ∈ steps rules) :
    stageId rules s ∈ (graph source rules).blocks.map Block.id := by
  rw [ids_graph]
  exact List.mem_cons_of_mem _ (List.mem_append_left _ (mem_ids_stages_iff.mpr ⟨s, hs, rfl⟩))

theorem classifierId_mem_ids_graph :
    classifierId ∈ (graph source rules).blocks.map Block.id := by
  rw [ids_graph]
  exact List.mem_cons_of_mem _ (List.mem_append_right _ List.mem_cons_self)

theorem root_mem_ids_graph :
    source.block.id ∈ (graph source rules).blocks.map Block.id := by
  rw [ids_graph]
  exact List.mem_cons_self

/-! ## Paths from the source -/

theorem joined_root : Joined (graph source rules).connectors source.block.id classifierId :=
  ⟨_, mem_connectors_iff.mpr (.inl rfl), rfl, rfl⟩

theorem joined_first (hs : s ∈ steps rules) (hplace : s.place = 0) :
    Joined (graph source rules).connectors classifierId (stageId rules s) :=
  ⟨_, mem_connectors_iff.mpr (.inr (.inl ⟨s, hs, hplace, rfl⟩)), rfl, rfl⟩

theorem joined_next (h : Next rules s t) :
    Joined (graph source rules).connectors (stageId rules s) (stageId rules t) :=
  ⟨_, mem_connectors_iff.mpr (.inr (.inr ⟨s, t, h, rfl⟩)), rfl, rfl⟩

/-- Before a step that is not the first comes another. -/
theorem exists_next_before {place : Nat} (ht : t ∈ steps rules) (hplace : t.place = place + 1) :
    ∃ s, Next rules s t ∧ s.place = place := by
  have hlt : place + 1 < (actions rules t.rule).length := by
    rw [← hplace]
    exact (List.getElem?_eq_some_iff.mp (mem_steps.mp ht)).1
  refine ⟨⟨t.rule, place, (actions rules t.rule)[place]⟩, ⟨?_, ht, rfl, hplace⟩, rfl⟩
  exact mem_steps.mpr (List.getElem?_eq_getElem _)

/-- The chain of a rule leads to all its steps. -/
theorem reaches_stage {place : Nat} (hs : s ∈ steps rules) (hplace : s.place = place) :
    Reaches (graph source rules).connectors classifierId (stageId rules s) := by
  -- Backwards along the chain, from the step to the first one of its rule.
  induction place generalizing s with
  | zero => exact .single (joined_first hs hplace)
  | succ place ih =>
    obtain ⟨t, hnext, ht⟩ := exists_next_before hs hplace
    exact (ih hnext.fst_mem ht).tail (joined_next hnext)

theorem reaches_block {id : BlockId} (hid : id ∈ (graph source rules).blocks.map Block.id) :
    Reaches (graph source rules).connectors source.block.id id := by
  rw [ids_graph, List.mem_cons, List.mem_append, List.mem_singleton] at hid
  rcases hid with rfl | hid | rfl
  · exact .refl
  · obtain ⟨s, hs, rfl⟩ := mem_ids_stages_iff.mp hid
    exact .head joined_root (reaches_stage hs rfl)
  · exact .single joined_root

/-! ## All promises -/

theorem sound_graph (source : Source) (rules : List Rule) : (graph source rules).Sound where
  ids_nodup := nodup_ids_graph source rules
  root_mem := root_mem_ids_graph
  ends_mem := by
    intro c hc
    rcases mem_connectors_iff.mp hc with rfl | ⟨s, hs, -, rfl⟩ | ⟨s, t, h, rfl⟩
    · exact ⟨root_mem_ids_graph, classifierId_mem_ids_graph⟩
    · exact ⟨classifierId_mem_ids_graph, stageId_mem_ids_graph hs⟩
    · exact ⟨stageId_mem_ids_graph h.fst_mem, stageId_mem_ids_graph h.snd_mem⟩
  dest_ne_root := by
    intro c hc
    rcases mem_connectors_iff.mp hc with rfl | ⟨s, hs, -, rfl⟩ | ⟨s, t, h, rfl⟩
    · exact (source_id_ne_classifierId source).symm
    · exact stageId_ne (source_id_mem source)
    · exact stageId_ne (source_id_mem source)
  reached := fun _ => reaches_block

end Plan

end PolicyGraph
