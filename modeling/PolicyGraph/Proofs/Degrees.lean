import PolicyGraph.Proofs.Accounting
import PolicyGraph.Proofs.Compilation

/-!
# Degrees of compiled graphs

How many connectors end at each block of a compiled graph, and how many leave it (`compiled_degrees`).
One connector leads into every step, and one leads on from every step that is not the last of its rule.
So the degrees of a block count the steps that run in it: a single one for an alert or a log, and all
with the same action for an output or a drop.
-/

namespace PolicyGraph

open Plan

namespace Plan

/-- The actions of all rules that take effect, rule by rule. -/
def effects (rules : List Rule) : List Action := rules.flatMap fun r => effective r.actions

/-- Whether another step comes after a step in its rule. -/
def isFollowed (rules : List Rule) (s : Step) : Bool := s.place + 1 < (actions rules s.rule).length

/-! ## Counting actions -/

section Actions

variable {rules : List Rule}

theorem map_action_stepsFrom (rule place : Nat) (as : List Action) :
    (stepsFrom rule place as).map Step.action = as := by
  induction as generalizing place with
  | nil => rfl
  | cons a rest ih => rw [stepsFrom, List.map_cons, ih]

theorem map_actions_range (rules : List Rule) :
    (List.range rules.length).map (actions rules) = rules.map fun r => effective r.actions := by
  refine List.ext_getElem (by simp) fun i _ hi => ?_
  have hlt : i < rules.length := by simpa using hi
  simp only [List.getElem_map, List.getElem_range, actions, List.getElem?_eq_getElem hlt]

theorem map_action_steps (rules : List Rule) : (steps rules).map Step.action = effects rules := by
  have hrule : ∀ i, (ruleSteps rules i).map Step.action = actions rules i :=
    fun i => map_action_stepsFrom i 0 _
  simp only [steps, stepsBelow, List.map_flatMap, hrule]
  rw [effects, List.flatMap_def, List.flatMap_def, map_actions_range]

theorem mem_effects {a : Action} : a ∈ effects rules ↔ ∃ s ∈ steps rules, s.action = a := by
  rw [← map_action_steps, List.mem_map]

theorem countP_action_eq (rules : List Rule) (a : Action) :
    (steps rules).countP (·.action = a) = (effects rules).count a := by
  rw [← map_action_steps, List.count, List.countP_map]
  rfl

/-- A rule drops once, if it has a drop at all. -/
theorem count_drop_effective (as : List Action) :
    (effective as).count .drop = if .drop ∈ as then 1 else 0 := by
  induction as with
  | nil => rfl
  | cons a rest ih => cases a <;> simp [ih]

theorem count_drop_effects (rules : List Rule) :
    (effects rules).count .drop = rules.countP (.drop ∈ ·.actions) := by
  induction rules with
  | nil => rfl
  | cons r rest ih =>
    simp only [effects] at ih
    simp only [effects, List.flatMap_cons, List.count_append, count_drop_effective, ih,
      List.countP_cons, decide_eq_true_eq, Nat.add_comm]

end Actions

/-! ## Steps of one block -/

section Steps

variable {rules : List Rule} {s t : Step}

theorem map_place_stepsFrom (rule place : Nat) (as : List Action) :
    (stepsFrom rule place as).map Step.place = List.range' place as.length := by
  induction as generalizing place with
  | nil => rfl
  | cons a rest ih => rw [stepsFrom, List.map_cons, ih, List.length_cons, List.range'_succ]

theorem nodup_steps (rules : List Rule) : (steps rules).Nodup := by
  refine List.nodup_flatMap.mpr ⟨fun i _ => .of_map Step.place ?_, ?_⟩
  · rw [ruleSteps, map_place_stepsFrom]
    exact List.nodup_range'
  · refine List.nodup_range.imp fun {i j} hne s hi hj => hne ?_
    exact (mem_ruleSteps.mp hi).1.symm.trans (mem_ruleSteps.mp hj).1

theorem stageId_eq_iff_of_own (hs : s ∈ steps rules) (ht : t ∈ steps rules)
    (hown : s.action.isShared = false) : stageId rules t = stageId rules s ↔ t = s := by
  rw [eq_comm, stageId_eq_iff hs ht, hown]
  simp [eq_comm]

/-- Only one step runs in a block of its own. -/
theorem countP_own (hs : s ∈ steps rules) (hown : s.action.isShared = false) (p : Step → Bool) :
    (steps rules).countP (fun t => stageId rules t = stageId rules s ∧ p t) =
      if p s then 1 else 0 := by
  -- The condition on blocks picks out `s` alone, and `s` is there once.
  have halone : (steps rules).filter (· == s) = [s] := by
    rw [List.filter_beq, List.count_eq_one_of_mem (nodup_steps rules) hs]
    rfl
  rw [← List.countP_singleton, ← halone, List.countP_filter]
  refine List.countP_congr fun t ht => ?_
  simp [stageId_eq_iff_of_own hs ht hown, and_comm]

/-- All steps of one action run in a shared block. -/
theorem countP_shared (hs : s ∈ steps rules) (hshared : s.action.isShared = true)
    (p : Step → Bool) :
    (steps rules).countP (fun t => stageId rules t = stageId rules s ∧ p t) =
      (steps rules).countP fun t => t.action = s.action ∧ p t := by
  refine List.countP_congr fun t ht => ?_
  have hsame : stageId rules t = stageId rules s ↔ t.action = s.action := by
    rw [eq_comm, stageId_eq_iff hs ht, eq_comm (a := t.action)]
    refine ⟨?_, fun h => .inr ⟨h, hshared⟩⟩
    rintro (rfl | ⟨h, -⟩)
    · rfl
    · exact h
  simp only [hsame]

/-- The steps that are followed are all but the last. -/
theorem filter_stepsFrom (rule place : Nat) (as : List Action) :
    (stepsFrom rule place as).filter (fun s => s.place + 1 < place + as.length) =
      (stepsFrom rule place as).dropLast := by
  -- The bound stays the same along the list: one place more, and one action less to come.
  induction as generalizing place with
  | nil => rfl
  | cons a rest ih =>
    cases rest with
    | nil => simp [stepsFrom]
    | cons b rest =>
      have hbound : place + (a :: b :: rest).length = place + 1 + (b :: rest).length := by
        simp only [List.length_cons]
        omega
      have hrest := ih (place + 1)
      rw [hbound, stepsFrom, List.filter_cons_of_pos (by simp), hrest]
      rfl

theorem filter_ruleSteps (i : Nat) :
    (ruleSteps rules i).filter (isFollowed rules) = (ruleSteps rules i).dropLast := by
  rw [ruleSteps, ← filter_stepsFrom]
  refine List.filter_congr fun s hs => ?_
  rw [isFollowed, (mem_ruleSteps.mp hs).1, Nat.zero_add]

end Steps

/-! ## Degrees of stages -/

section Stages

variable {source : Source} {rules : List Rule} {s : Step}

/-- One connector leads into every step, and one into the classifier. -/
theorem dests_graph (source : Source) (rules : List Rule) :
    (graph source rules).connectors.map (·.dest) =
      (steps rules).map (stageId rules) ++ [classifierId] := by
  simp only [graph, chainsBelow, steps, stepsBelow, List.map_append, List.map_flatMap, map_dest_link]
  rfl

theorem map_source_link (id : BlockId) (port : Nat) (ids : List BlockId) :
    (link id port ids).map (·.source) = (id :: ids).dropLast := by
  induction ids generalizing id port with
  | nil => rfl
  | cons b rest ih =>
    rw [link, List.map_cons, ih]
    rfl

theorem count_sources_link {id head : BlockId} (hid : id ≠ head) (port : Nat) (ids : List BlockId) :
    ((link head port ids).map (·.source)).count id = ids.dropLast.count id := by
  rw [map_source_link]
  cases ids with
  | nil => rfl
  | cons b rest => rw [List.dropLast_cons_cons, List.count_cons_of_ne (Ne.symm hid)]

/-- A connector of a chain leaves a block for each step in the block that is followed. -/
theorem count_sources_chain (i : Nat) :
    ((link classifierId i (Plan.chain rules i)).map (·.source)).count (stageId rules s) =
      (ruleSteps rules i).countP fun t =>
        stageId rules t = stageId rules s ∧ isFollowed rules t := by
  rw [count_sources_link (stageId_ne List.mem_cons_self), Plan.chain, ← List.map_dropLast,
    ← filter_ruleSteps, List.count, List.countP_map, List.countP_filter]
  exact List.countP_congr fun t _ => by simp

theorem length_inbound_stage (rules : List Rule) (s : Step) :
    ((graph source rules).inbound (stageId rules s)).length =
      (steps rules).countP fun t => stageId rules t = stageId rules s := by
  have hid : stageId rules s ≠ classifierId := stageId_ne List.mem_cons_self
  rw [Graph.length_inbound, dests_graph, List.count_append, List.count_singleton,
    if_neg (by simpa using Ne.symm hid), Nat.add_zero, List.count, List.countP_map]
  rfl

theorem length_outbound_stage (rules : List Rule) (s : Step) :
    ((graph source rules).outbound (stageId rules s)).length =
      (steps rules).countP fun t => stageId rules t = stageId rules s ∧ isFollowed rules t := by
  have hid : stageId rules s ≠ source.block.id := stageId_ne (source_id_mem source)
  have hroot : [source.block.id].count (stageId rules s) = 0 :=
    List.count_eq_zero.mpr (by simpa using hid)
  simp only [Graph.length_outbound, graph, chainsBelow, List.map_append, List.map_flatMap,
    List.count_append, List.count_flatMap, steps, stepsBelow, List.countP_flatMap, Function.comp_def,
    count_sources_chain]
  simp [Connector.join, hroot]

/-- One connector ends at the block of an alert or a log, and one leaves it if a step follows. -/
theorem degrees_own (source : Source) (hs : s ∈ steps rules) (hown : s.action.isShared = false) :
    ((graph source rules).inbound (stageId rules s)).length = 1 ∧
      ((graph source rules).outbound (stageId rules s)).length =
        if isFollowed rules s then 1 else 0 := by
  rw [length_inbound_stage, length_outbound_stage, countP_own hs hown]
  exact ⟨by simpa using countP_own hs hown fun _ => true, rfl⟩

/-- A connector ends at a shared block for each of its steps, and leaves it for each that is
followed. -/
theorem degrees_shared (source : Source) (hs : s ∈ steps rules)
    (hshared : s.action.isShared = true) :
    ((graph source rules).inbound (stageId rules s)).length =
        (steps rules).countP (·.action = s.action) ∧
      ((graph source rules).outbound (stageId rules s)).length =
        (steps rules).countP fun t => t.action = s.action ∧ isFollowed rules t := by
  rw [length_inbound_stage, length_outbound_stage, countP_shared hs hshared]
  exact ⟨by simpa using countP_shared hs hshared fun _ => true, rfl⟩

/-- No step follows a drop. -/
theorem isFollowed_drop (hs : s ∈ steps rules) (ha : s.action = .drop) :
    isFollowed rules s = false := by
  have hlast := actions_drop_last (ha ▸ mem_steps.mp hs)
  rw [isFollowed, decide_eq_false_iff_not, Nat.not_lt]
  exact List.getElem?_eq_none_iff.mp hlast

end Stages

/-! ## Degrees of the source and the classifier -/

section Ends

variable {source : Source} {rules : List Rule}

theorem chain_eq_nil_iff {i : Nat} : Plan.chain rules i = [] ↔ actions rules i = [] := by
  rw [Plan.chain, List.map_eq_nil_iff, ruleSteps]
  cases actions rules i <;> simp [stepsFrom]

theorem classifierId_not_mem_map (ss : List Step) : classifierId ∉ ss.map (stageId rules) := by
  rw [List.mem_map]
  rintro ⟨s, -, hs⟩
  exact stageId_ne List.mem_cons_self hs

theorem source_mem_of_mem_link {id : BlockId} {port : Nat} {ids : List BlockId} {c : Connector}
    (hc : c ∈ link id port ids) : c.source ∈ id :: ids := by
  have hsource := List.mem_map_of_mem (f := (·.source)) hc
  rw [map_source_link] at hsource
  exact List.mem_of_mem_dropLast hsource

/-- What is in a chain leaves the classifier or the block of a step. -/
theorem source_of_mem_chainsBelow {n : Nat} {c : Connector} (hc : c ∈ chainsBelow rules n) :
    c.source = classifierId ∨ ∃ s, c.source = stageId rules s := by
  obtain ⟨i, -, hlink⟩ := List.mem_flatMap.mp hc
  rcases List.mem_cons.mp (source_mem_of_mem_link hlink) with hhead | hchain
  · exact .inl hhead
  · obtain ⟨s, -, hs⟩ := List.mem_map.mp hchain
    exact .inr ⟨s, hs.symm⟩

theorem outbound_root (source : Source) (rules : List Rule) :
    (graph source rules).outbound source.block.id = [.join source.block.id 0 classifierId] := by
  have hchains : (chainsBelow rules rules.length).filter (·.source == source.block.id) = [] := by
    rw [List.filter_eq_nil_iff]
    intro c hc
    rcases source_of_mem_chainsBelow hc with hhead | ⟨s, hs⟩
    · simpa [hhead] using (source_id_ne_classifierId source).symm
    · simpa [hs] using stageId_ne (source_id_mem source)
  rw [Graph.outbound, graph, List.filter_append, hchains]
  simp [Connector.join]

theorem length_inbound_classifier (source : Source) (rules : List Rule) :
    ((graph source rules).inbound classifierId).length = 1 := by
  have hstages : ((steps rules).map (stageId rules)).count classifierId = 0 :=
    List.count_eq_zero.mpr (classifierId_not_mem_map _)
  rw [Graph.length_inbound, dests_graph, List.count_append, hstages]
  simp

/-- A chain leaves its head by one connector, if there is anything in it. -/
theorem countP_link_port {head : BlockId} {ids : List BlockId} (hhead : head ∉ ids) (i port : Nat) :
    (link head i ids).countP (fun c => c.source = head ∧ c.sourcePort = port) =
      if i = port ∧ ids ≠ [] then 1 else 0 := by
  cases ids with
  | nil => simp [link]
  | cons b rest =>
    have hrest : (link b 0 rest).countP (fun c => c.source = head ∧ c.sourcePort = port) = 0 := by
      rw [List.countP_eq_zero]
      intro c hc
      have hne := ne_of_mem_of_not_mem (source_mem_of_mem_link hc) hhead
      simp [hne]
    rw [link, List.countP_cons, hrest]
    simp [Connector.join]

theorem countP_chain_port (i port : Nat) :
    (link classifierId i (Plan.chain rules i)).countP
        (fun c => c.source = classifierId ∧ c.sourcePort = port) =
      if i = port ∧ actions rules i ≠ [] then 1 else 0 := by
  have hhead : classifierId ∉ Plan.chain rules i := classifierId_not_mem_map _
  simp only [countP_link_port hhead, ne_eq, chain_eq_nil_iff]

theorem countP_chains_port (rules : List Rule) (port : Nat) :
    (chainsBelow rules rules.length).countP
        (fun c => c.source = classifierId ∧ c.sourcePort = port) =
      if actions rules port = [] then 0 else 1 := by
  -- Only the chain of the rule with the number of the port leaves by it.
  have hother : ∀ i, i ≠ port → i ∈ List.range rules.length →
      (if i = port ∧ actions rules i ≠ [] then 1 else 0) = 0 :=
    fun i hi _ => if_neg fun h => hi h.1
  simp only [chainsBelow, List.countP_flatMap, Function.comp_def, countP_chain_port]
  rw [List.sum_map_eq_nsmul_single port _ hother, List.nodup_range.count]
  rcases Nat.lt_or_ge port rules.length with hlt | hge
  · simp [hlt]
  · simp [actions_eq_nil hge]

/-- The classifier is left by the ports of the rules with an action that takes effect, once by each. -/
theorem countP_outbound_classifier (source : Source) (rules : List Rule) (port : Nat) :
    ((graph source rules).outbound classifierId).countP (·.sourcePort = port) =
      if actions rules port = [] then 0 else 1 := by
  have hroot := source_id_ne_classifierId source
  rw [← countP_chains_port, Graph.outbound, List.countP_filter, graph, List.countP_append,
    List.countP_singleton, if_neg (by simp [Connector.join, hroot]), Nat.add_zero]
  exact List.countP_congr fun c _ => by simp [and_comm]

end Ends

end Plan

/-! ## All blocks -/

/-- How many connectors end at the blocks of a graph, and how many leave them, by the rules that it is
wired for. -/
structure Graph.HasDegrees (g : Graph) (classifier : Block) (rules : List Rule) : Prop where
  root_inbound : g.inbound g.root = []
  root_outbound : g.outbound g.root = [.join g.root 0 classifier.id]
  classifier_inbound : (g.inbound classifier.id).length = 1
  /-- A port is used, and once, just if its rule has an action that takes effect. -/
  classifier_outbound : ∀ port, (g.outbound classifier.id).countP (·.sourcePort = port) =
    if Plan.actions rules port = [] then 0 else 1
  /-- The block of an alert or a log has one step, and leads on if another comes after it. -/
  single : ∀ b ∈ g.blocks, b.kind.name ∈ ["Alert", "Log"] →
    ∃ s ∈ steps rules, (∀ t ∈ steps rules, stage rules t = b ↔ t = s) ∧
      (g.inbound b.id).length = 1 ∧
      (g.outbound b.id).length = if isFollowed rules s then 1 else 0
  discard : ∀ b ∈ g.blocks, b.kind = .discard →
    (g.inbound b.id).length = rules.countP (.drop ∈ ·.actions) ∧ g.outbound b.id = []
  output : ∀ b ∈ g.blocks, ∀ i, b.kind = .toDevice i →
    (g.inbound b.id).length = (steps rules).countP (·.action = .output i) ∧
      (g.outbound b.id).length =
        (steps rules).countP fun s => s.action = .output i ∧ isFollowed rules s

namespace Plan

variable {source : Source} {rules : List Rule} {b : Block} {s t : Step}

theorem source_name_not_mem (source : Source) : source.block.kind.name ∉ stageNames := by
  cases source <;> simp [Source.block, BlockKind.name, stageNames, actionKinds]

theorem classifier_name_not_mem (rules : List Rule) : (classifier rules).kind.name ∉ stageNames := by
  simp [classifier, BlockKind.name, stageNames, actionKinds]

/-- The blocks of the kinds in which steps run are stages. -/
theorem exists_step (hb : b ∈ (graph source rules).blocks) (hname : b.kind.name ∈ stageNames) :
    ∃ s ∈ steps rules, stage rules s = b := by
  rw [graph, List.mem_cons, List.mem_append, List.mem_singleton] at hb
  rcases hb with rfl | hstage | rfl
  · exact absurd hname (source_name_not_mem source)
  · exact mem_stages.mp hstage
  · exact absurd hname (classifier_name_not_mem rules)

theorem isShared_eq_false (hname : (stageKind s.action).name ∈ ["Alert", "Log"]) :
    s.action.isShared = false := by
  cases ha : s.action with
  | alert m | log m => rfl
  | output i | drop | unknown k => simp [ha, stageKind, BlockKind.name] at hname

theorem action_eq_drop (hs : s ∈ steps rules) (hkind : stageKind s.action = .discard) :
    s.action = .drop := by
  have hknown := isKnown_of_mem_steps hs
  cases ha : s.action with
  | drop => rfl
  | unknown k => simp [ha, Action.isKnown] at hknown
  | alert m | log m | output i => simp [ha, stageKind] at hkind

theorem action_eq_output {i : String} (hkind : stageKind s.action = .toDevice i) :
    s.action = .output i := by
  cases ha : s.action <;> simp_all [stageKind]

theorem hasDegrees_graph (source : Source) (rules : List Rule) :
    (graph source rules).HasDegrees (classifier rules) rules where
  root_inbound := (sound_graph source rules).inbound_root
  root_outbound := outbound_root source rules
  classifier_inbound := length_inbound_classifier source rules
  classifier_outbound := countP_outbound_classifier source rules
  single := by
    intro b hb hname
    have hstep : ["Alert", "Log"] ⊆ stageNames := by decide
    obtain ⟨s, hs, rfl⟩ := exists_step hb (hstep hname)
    have hown := isShared_eq_false hname
    refine ⟨s, hs, fun t ht => ⟨fun h => ?_, fun h => h ▸ rfl⟩, degrees_own source hs hown⟩
    exact (stageId_eq_iff_of_own hs ht hown).mp (congrArg Block.id h)
  discard := by
    intro b hb hkind
    obtain ⟨s, hs, rfl⟩ := exists_step hb (by rw [hkind]; decide)
    have ha := action_eq_drop hs hkind
    obtain ⟨hin, hout⟩ := degrees_shared source hs (ha ▸ rfl)
    refine ⟨?_, ?_⟩
    · rw [← count_drop_effects, ← countP_action_eq, ← ha]
      exact hin
    · rw [← List.length_eq_zero_iff]
      -- Every step that leads on from the block would be a drop with a step after it.
      refine hout.trans (List.countP_eq_zero.mpr fun t ht => ?_)
      rw [decide_eq_true_eq]
      rintro ⟨htdrop, hfollowed⟩
      rw [isFollowed_drop ht (htdrop.trans ha)] at hfollowed
      cases hfollowed
  output := by
    intro b hb i hkind
    have hname : b.kind.name ∈ stageNames := by
      simp [hkind, BlockKind.name, stageNames, actionKinds]
    obtain ⟨s, hs, rfl⟩ := exists_step hb hname
    have ha := action_eq_output hkind
    have hdegrees := degrees_shared source hs (ha ▸ rfl)
    rw [ha] at hdegrees
    exact hdegrees

end Plan

/-- The degrees of all blocks of a compiled graph can be told from the rules. -/
theorem compiled_degrees (source : Source) {rules : List Rule} (hne : rules ≠ [])
    (hfew : rules.length ≤ portCount) :
    ∃ g c, ((compileGraph source rules).value = .ok g ∧ g.classifier? = some c) ∧
      g.HasDegrees c rules :=
  ⟨graph source rules, classifier rules, ⟨compileGraph_value hne hfew, classifier?_graph⟩,
    hasDegrees_graph source rules⟩

/-- In the sample policy an output that is shared leads on from one of its two steps. -/
theorem samplePolicy_degrees :
    (samplePolicy ≠ [] ∧ samplePolicy.length ≤ portCount) ∧
      ∃ g c, ((compileGraph (.device "eth0") samplePolicy).value = .ok g ∧
          g.classifier? = some c) ∧
        g.HasDegrees c samplePolicy ∧
        (g.blocks.map fun b => (b.kind.name, (g.inbound b.id).length, (g.outbound b.id).length)) =
          [("FromDevice", 0, 1), ("Log", 1, 1), ("ToDevice", 2, 1), ("ToDevice", 1, 1),
            ("Alert", 1, 0), ("Discard", 1, 0), ("HeaderClassifier", 1, 3)] := by
  have hne : samplePolicy ≠ [] := by decide
  have hfew : samplePolicy.length ≤ portCount := by decide
  obtain ⟨g, c, ⟨hg, hc⟩, hdegrees⟩ := compiled_degrees (.device "eth0") hne hfew
  refine ⟨⟨hne, hfew⟩, g, c, ⟨hg, hc⟩, hdegrees, ?_⟩
  obtain rfl := eq_graph_of_compiled hg
  decide

end PolicyGraph
