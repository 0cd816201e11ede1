import Mathlib
import PolicyGraph.Proofs.Degrees

/-!
# Statistics of compiled graphs

What the statistics of a compiled graph say can be computed from the actions that take effect
(`compiled_statistics`). The blocks of a kind are counted by the steps that run in them, of which those
of one action count once where the block is shared. How many connectors at most end at one block is
found by going through the degrees of all blocks.
-/

namespace PolicyGraph

open Plan

/-! ## Counting distinct elements -/

section Distinct

variable {α β γ : Type} [DecidableEq β] [DecidableEq γ]

theorem filter_eraseDups (p : β → Bool) (bs : List β) :
    bs.eraseDups.filter p = (bs.filter p).eraseDups := by
  induction bs using List.reverseRecOn with
  | nil => rfl
  | append_singleton bs b ih =>
    rw [eraseDups_concat, List.filter_append]
    cases hp : p b with
    | true =>
      have hmem : b ∈ bs.filter p ↔ b ∈ bs := by simp [hp]
      rw [List.filter_singleton, hp, cond_true, eraseDups_concat]
      simp only [hmem, ← ih]
      split
      · rfl
      · rw [List.filter_append, List.filter_singleton, hp, cond_true]
    | false =>
      rw [List.filter_singleton, hp, cond_false, List.append_nil, ← ih]
      split
      · rfl
      · rw [List.filter_append, List.filter_singleton, hp, cond_false, List.append_nil]

/-- Functions that tell the same elements apart have as many values. -/
theorem length_eraseDups_map {f : α → β} {g : α → γ} {as : List α}
    (h : ∀ a ∈ as, ∀ b ∈ as, f a = f b ↔ g a = g b) :
    (as.map f).eraseDups.length = (as.map g).eraseDups.length := by
  induction as using List.reverseRecOn with
  | nil => rfl
  | append_singleton as a ih =>
    have hmem : f a ∈ as.map f ↔ g a ∈ as.map g := by
      simp only [List.mem_map]
      refine exists_congr fun b => and_congr_right fun hb => ?_
      exact h b (List.mem_append_left _ hb) a (by simp)
    have hrest := ih fun a ha b hb => h a (List.mem_append_left _ ha) b (List.mem_append_left _ hb)
    simp only [List.map_append, List.map_singleton, eraseDups_concat, hmem]
    split
    · exact hrest
    · rw [List.length_append, List.length_append, hrest]
      rfl

theorem length_eraseDups (bs : List β) : bs.eraseDups.length = bs.toFinset.card := by
  rw [← List.toFinset_card_of_nodup (nodup_eraseDups bs)]
  congr 1
  ext b
  rw [List.mem_toFinset, List.mem_toFinset, List.mem_eraseDups]

end Distinct

/-! ## What is counted -/

def Action.isAlert : Action → Bool
  | .alert _ => true
  | _ => false

def Action.isLog : Action → Bool
  | .log _ => true
  | _ => false

/-- The interface that an action writes to. -/
def Action.interface? : Action → Option String
  | .output interface => some interface
  | _ => none

namespace Plan

/-- The interfaces that actions which take effect write to. -/
def interfaces (rules : List Rule) : Finset String :=
  ((effects rules).filterMap Action.interface?).toFinset

/-- The statistics of a graph by the rules that it is wired for. -/
def statistics (rules : List Rule) : Statistics where
  totalBlocks := 2 + (effects rules).countP Action.isAlert + (effects rules).countP Action.isLog +
    (interfaces rules).card + if 0 < (effects rules).count .drop then 1 else 0
  connectors := 1 + (effects rules).length
  classifierRules := rules.length
  outputSinks := (interfaces rules).card
  alertBlocks := (effects rules).countP Action.isAlert
  logBlocks := (effects rules).countP Action.isLog
  maxFanIn := max 1 (max ((effects rules).count .drop)
    ((interfaces rules).sup fun i => (effects rules).count (.output i)))

/-! ## Blocks of a kind -/

section Kinds

variable {rules : List Rule} {name : String}

/-- The stages of a kind are those of the steps of the kind. -/
theorem count_stages (rules : List Rule) (name : String) :
    ((stages rules).map (·.kind.name)).count name =
      (((steps rules).filter fun s => (stageKind s.action).name == name).map
        (stage rules)).eraseDups.length := by
  have hfilter : ((steps rules).map (stage rules)).filter (·.kind.name == name) =
      ((steps rules).filter fun s => (stageKind s.action).name == name).map (stage rules) := by
    rw [List.filter_map]
    rfl
  rw [List.count, List.countP_map, List.countP_eq_length_filter, stages, ← hfilter,
    ← filter_eraseDups]
  rfl

/-- There is a stage for each action of a kind whose blocks are not shared. -/
theorem count_stages_own {p : Action → Bool} (hp : ∀ a, p a = ((stageKind a).name == name))
    (hown : ∀ a, p a = true → a.isShared = false) :
    ((stages rules).map (·.kind.name)).count name = (effects rules).countP p := by
  have hnodup := (nodup_steps rules).filter fun s => p s.action
  simp only [count_stages, ← hp]
  rw [length_eraseDups_map (g := id), List.map_id, length_eraseDups,
    List.toFinset_card_of_nodup hnodup, ← map_action_steps, List.countP_map,
    ← List.countP_eq_length_filter]
  · rfl
  · intro s hs t ht
    rw [List.mem_filter] at hs ht
    have hiff := stageId_eq_iff_of_own ht.1 hs.1 (hown _ ht.2)
    constructor
    · intro h
      exact hiff.mp (congrArg Block.id h)
    · exact congrArg (stage rules)

/-- There is a stage for each distinct action of a kind whose blocks are shared. -/
theorem count_stages_shared
    (hshared : ∀ a ∈ effects rules, (stageKind a).name = name → a.isShared = true) :
    ((stages rules).map (·.kind.name)).count name =
      ((effects rules).filter fun a => (stageKind a).name == name).toFinset.card := by
  rw [count_stages, length_eraseDups_map (g := Step.action), length_eraseDups, ← map_action_steps,
    List.filter_map]
  · rfl
  · intro s hs t ht
    rw [List.mem_filter, beq_iff_eq] at hs ht
    have hiff := stageId_eq_iff hs.1 ht.1
    constructor
    · intro h
      rcases hiff.mp (congrArg Block.id h) with rfl | ⟨haction, -⟩
      · rfl
      · exact haction
    · intro haction
      have hself := hshared s.action (mem_effects.mpr ⟨s, hs.1, rfl⟩) hs.2
      exact stage_eq_of_id_eq hs.1 ht.1 (hiff.mpr (.inr ⟨haction, hself⟩))

theorem count_alert (rules : List Rule) :
    ((stages rules).map (·.kind.name)).count "Alert" = (effects rules).countP Action.isAlert := by
  refine count_stages_own (fun a => ?_) fun a => ?_
  · cases a <;> rfl
  · cases a <;> simp [Action.isAlert, Action.isShared]

theorem count_log (rules : List Rule) :
    ((stages rules).map (·.kind.name)).count "Log" = (effects rules).countP Action.isLog := by
  refine count_stages_own (fun a => ?_) fun a => ?_
  · cases a <;> rfl
  · cases a <;> simp [Action.isLog, Action.isShared]

theorem mem_interfaces {i : String} : i ∈ interfaces rules ↔ .output i ∈ effects rules := by
  rw [interfaces, List.mem_toFinset, List.mem_filterMap]
  constructor
  · rintro ⟨a, ha, hi⟩
    cases a <;> simp_all [Action.interface?]
  · intro h
    exact ⟨_, h, rfl⟩

theorem count_output (rules : List Rule) :
    ((stages rules).map (·.kind.name)).count "ToDevice" = (interfaces rules).card := by
  have hinj : Function.Injective Action.output := fun _ _ => Action.output.inj
  rw [count_stages_shared, ← Finset.card_image_of_injective _ hinj]
  · congr 1
    ext a
    simp only [List.mem_toFinset, List.mem_filter, Finset.mem_image, mem_interfaces]
    cases a <;> simp [stageKind, BlockKind.name]
  · intro a _
    cases a <;> simp [stageKind, BlockKind.name, Action.isShared]

theorem isKnown_of_mem_effects {a : Action} (h : a ∈ effects rules) : a.isKnown = true := by
  obtain ⟨r, -, ha⟩ := List.mem_flatMap.mp h
  exact isKnown_of_mem_effective ha

theorem count_discard (rules : List Rule) :
    ((stages rules).map (·.kind.name)).count "Discard" =
      if 0 < (effects rules).count .drop then 1 else 0 := by
  rw [count_stages_shared]
  · -- Unknown actions would have blocks of this kind, but none of them takes effect.
    have hdrop : ((effects rules).filter fun a => (stageKind a).name == "Discard") =
        (effects rules).filter (· == .drop) := by
      refine List.filter_congr fun a ha => ?_
      have hknown := isKnown_of_mem_effects ha
      cases a <;> simp_all [stageKind, BlockKind.name, Action.isKnown]
    rw [hdrop, List.filter_beq]
    split
    · next h => rw [List.toFinset_replicate_of_ne_zero (Nat.ne_of_gt h), Finset.card_singleton]
    · next h => rw [Nat.eq_zero_of_not_pos h]; rfl
  · intro a ha
    have hknown := isKnown_of_mem_effects ha
    cases a <;> simp_all [stageKind, BlockKind.name, Action.isShared, Action.isKnown]

/-- Every stage is of one of the four kinds. -/
theorem length_stages (rules : List Rule) :
    (stages rules).length = (effects rules).countP Action.isAlert +
      (effects rules).countP Action.isLog + (interfaces rules).card +
        if 0 < (effects rules).count .drop then 1 else 0 := by
  have hnames : ∀ n ∈ (stages rules).map (·.kind.name), n ∈ stageNames := by
    intro n hn
    obtain ⟨b, hb, rfl⟩ := List.mem_map.mp hn
    obtain ⟨s, -, rfl⟩ := mem_stages.mp hb
    exact stageKind_name_mem s.action
  have hnodup : stageNames.Nodup := by decide
  rw [← List.length_map (f := (·.kind.name)), ← sum_map_count hnodup hnames]
  simp only [stageNames, actionKinds, List.map_cons, List.map_nil, List.sum_cons, List.sum_nil,
    count_discard, count_alert, count_log, count_output]
  omega

/-- The source and the classifier are of none of the four kinds. -/
theorem length_blocksOfKind_graph (source : Source) (rules : List Rule) (hname : name ∈ stageNames) :
    ((graph source rules).blocksOfKind name).length =
      ((stages rules).map (·.kind.name)).count name := by
  have hsource := ne_of_mem_of_not_mem hname (source_name_not_mem source)
  have hclassifier := ne_of_mem_of_not_mem hname (classifier_name_not_mem rules)
  rw [Graph.length_blocksOfKind, graph, List.map_cons, List.count_cons_of_ne hsource.symm,
    List.map_append, List.count_append, List.map_singleton, List.count_singleton,
    if_neg (by simpa using hclassifier.symm), Nat.add_zero]

end Kinds

/-! ## The most connectors that end at one block -/

section FanIn

variable {rules : List Rule} {s : Step}

theorem stage_mem_graph (source : Source) (hs : s ∈ steps rules) :
    stage rules s ∈ (graph source rules).blocks :=
  List.mem_cons_of_mem _ (List.mem_append_left _ (mem_stages.mpr ⟨s, hs, rfl⟩))

theorem classifier_mem_graph (source : Source) (rules : List Rule) :
    classifier rules ∈ (graph source rules).blocks :=
  List.mem_cons_of_mem _ (List.mem_append_right _ List.mem_cons_self)

theorem length_inbound_shared (source : Source) (hs : s ∈ steps rules)
    (hshared : s.action.isShared = true) :
    ((graph source rules).inbound (stageId rules s)).length = (effects rules).count s.action := by
  rw [(degrees_shared source hs hshared).1, countP_action_eq]

theorem maxFanIn_graph (source : Source) (rules : List Rule) :
    (graph source rules).statistics.maxFanIn = (statistics rules).maxFanIn := by
  -- Both have the same upper bounds: each number is the degree of some block, and there are no others.
  refine eq_of_forall_ge_iff fun n => ?_
  simp only [(sound_graph source rules).maxFanIn_le_iff, statistics, max_le_iff, Finset.sup_le_iff,
    mem_interfaces]
  constructor
  · intro h
    have hshared : ∀ a ∈ effects rules, a.isShared = true → (effects rules).count a ≤ n := by
      intro a ha hshared
      obtain ⟨s, hs, rfl⟩ := mem_effects.mp ha
      rw [← length_inbound_shared source hs hshared]
      exact h (stage rules s) (stage_mem_graph source hs)
    refine ⟨?_, ?_, ?_⟩
    · rw [← length_inbound_classifier source rules]
      exact h (classifier rules) (classifier_mem_graph source rules)
    · rcases Nat.eq_zero_or_pos ((effects rules).count .drop) with hnone | hsome
      · rw [hnone]
        exact Nat.zero_le n
      · exact hshared .drop (List.count_pos_iff.mp hsome) rfl
    · intro i hi
      exact hshared (.output i) hi rfl
  · rintro ⟨hone, hdrop, houtput⟩ b hb
    rw [graph, List.mem_cons, List.mem_append, List.mem_singleton] at hb
    rcases hb with rfl | hstage | rfl
    · have hroot : (graph source rules).inbound source.block.id = [] :=
        (sound_graph source rules).inbound_root
      rw [hroot]
      exact Nat.zero_le n
    · obtain ⟨s, hs, rfl⟩ := mem_stages.mp hstage
      have hmem : s.action ∈ effects rules := mem_effects.mpr ⟨s, hs, rfl⟩
      show ((graph source rules).inbound (stageId rules s)).length ≤ n
      cases ha : s.action with
      | alert m | log m | unknown k =>
        have hown : s.action.isShared = false := by rw [ha]; rfl
        rw [(degrees_own source hs hown).1]
        exact hone
      | output i =>
        rw [length_inbound_shared source hs (by rw [ha]; rfl), ha]
        exact houtput i (ha ▸ hmem)
      | drop =>
        rw [length_inbound_shared source hs (by rw [ha]; rfl), ha]
        exact hdrop
    · show ((graph source rules).inbound classifierId).length ≤ n
      rw [length_inbound_classifier]
      exact hone

end FanIn

/-! ## All numbers -/

section Numbers

variable (source : Source) (rules : List Rule)

theorem length_blocks_graph :
    (graph source rules).blocks.length = (statistics rules).totalBlocks := by
  simp only [graph, statistics, List.length_cons, List.length_append, List.length_nil, length_stages]
  omega

theorem length_connectors_graph :
    (graph source rules).connectors.length = (statistics rules).connectors := by
  have hsteps : (steps rules).length = (effects rules).length := by
    rw [← map_action_steps, List.length_map]
  rw [← List.length_map (f := (·.dest)), dests_graph, List.length_append, List.length_map, hsteps,
    Nat.add_comm]
  rfl

theorem statistics_graph : (graph source rules).statistics = statistics rules := by
  have hentries : ((graph source rules).blocks.flatMap fun b => b.entries?.getD []).length =
      rules.length := by
    rw [entries_graph, length_entriesFrom]
  have houtput : ((graph source rules).blocksOfKind "ToDevice").length = (interfaces rules).card := by
    rw [length_blocksOfKind_graph source rules (by decide), count_output]
  have halert : ((graph source rules).blocksOfKind "Alert").length =
      (effects rules).countP Action.isAlert := by
    rw [length_blocksOfKind_graph source rules (by decide), count_alert]
  have hlog : ((graph source rules).blocksOfKind "Log").length =
      (effects rules).countP Action.isLog := by
    rw [length_blocksOfKind_graph source rules (by decide), count_log]
  have hfanIn := maxFanIn_graph source rules
  simp only [Graph.statistics] at hfanIn
  rw [Graph.statistics, length_blocks_graph, length_connectors_graph, hentries, houtput, halert, hlog,
    hfanIn]
  rfl

end Numbers

end Plan

/-- The statistics of a compiled graph follow from the actions of its rules that take effect. -/
theorem compiled_statistics (source : Source) {rules : List Rule} (hne : rules ≠ [])
    (hfew : rules.length ≤ portCount) :
    ∃ g, (compileGraph source rules).value = .ok g ∧ g.statistics = Plan.statistics rules :=
  ⟨graph source rules, compileGraph_value hne hfew, statistics_graph source rules⟩

/-- Two outputs of the sample policy go to one interface, which makes one block with two connectors
into it. -/
theorem samplePolicy_statistics :
    (samplePolicy ≠ [] ∧ samplePolicy.length ≤ portCount) ∧
      ∃ g, (compileGraph (.device "eth0") samplePolicy).value = .ok g ∧
        g.statistics =
          { totalBlocks := 7, connectors := 7, classifierRules := 4, outputSinks := 2,
            alertBlocks := 1, logBlocks := 1, maxFanIn := 2 } := by
  have hne : samplePolicy ≠ [] := by decide
  have hfew : samplePolicy.length ≤ portCount := by decide
  obtain ⟨g, hg, hstatistics⟩ := compiled_statistics (.device "eth0") hne hfew
  exact ⟨⟨hne, hfew⟩, g, hg, hstatistics.trans (by decide)⟩

end PolicyGraph
