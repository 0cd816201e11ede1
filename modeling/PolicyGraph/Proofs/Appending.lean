import PolicyGraph.Proofs.Compilation

/-!
# Appending rules

Rules that are appended to a policy leave what the policy is wired into as it is: they only add to it, at
the end (`appended_rules_keep_graph`). The reason is that a step which is not the first output to its
interface does not name a block, and that no appended step comes before one that was there.
-/

namespace PolicyGraph

open Plan

namespace AppendingLemmas

variable {rules : List Rule} (more : List Rule) {s : Step} {i n : Nat}

/-! ## Steps -/

theorem ruleSteps_append (hi : i < rules.length) :
    ruleSteps (rules ++ more) i = ruleSteps rules i := by
  simp only [ruleSteps, Plan.actions, List.getElem?_append_left hi]

theorem steps_isPrefix (rules more : List Rule) : steps rules <+: steps (rules ++ more) := by
  -- The steps of the rules that were there are those of the first rules of the longer policy.
  have hsame : stepsBelow (rules ++ more) rules.length = steps rules :=
    List.flatMap_congr fun i hi => ruleSteps_append more (List.mem_range.mp hi)
  rw [← hsame]
  exact stepsBelow_isPrefix (by simp)

/-- The first output to an interface stays the first. -/
theorem stageId_append (hs : s ∈ steps rules) : stageId (rules ++ more) s = stageId rules s := by
  cases ha : s.action with
  | output interface =>
    obtain ⟨first, hfirst⟩ := exists_firstOutput? hs ha
    rw [stageId_output ha hfirst, stageId_output ha ((steps_isPrefix rules more).find?_eq_some hfirst)]
  | alert m | log m | drop | unknown k => simp only [stageId, ha]

/-! ## Graphs -/

theorem stages_isPrefix (rules more : List Rule) : stages rules <+: stages (rules ++ more) := by
  obtain ⟨rest, hrest⟩ := steps_isPrefix rules more
  have hold : (steps rules).map (stage (rules ++ more)) = (steps rules).map (stage rules) := by
    refine List.map_congr_left fun s hs => ?_
    rw [stage, stage, stageId_append more hs]
  rw [stages, stages, ← hrest, List.map_append, hold, List.eraseDups_append]
  exact List.prefix_append _ _

theorem chain_append (hi : i < rules.length) :
    Plan.chain (rules ++ more) i = Plan.chain rules i := by
  rw [Plan.chain, Plan.chain, ruleSteps_append more hi]
  exact List.map_congr_left fun s hs => stageId_append more (mem_steps_of_mem_ruleSteps hs)

theorem chainsBelow_isPrefix (rules more : List Rule) :
    chainsBelow rules rules.length <+: chainsBelow (rules ++ more) (rules ++ more).length := by
  have hsame : chainsBelow rules rules.length = chainsBelow (rules ++ more) rules.length := by
    refine List.flatMap_congr fun i hi => ?_
    rw [chain_append more (List.mem_range.mp hi)]
  rw [hsame]
  exact (range_isPrefix (by simp)).flatMap _

theorem entriesFrom_isPrefix (k : Nat) (rules more : List Rule) :
    entriesFrom k rules <+: entriesFrom k (rules ++ more) := by
  rw [entriesFrom, entriesFrom, List.zipIdx_append, List.map_append]
  exact List.prefix_append _ _

/-- What is not the classifier comes first among the blocks. -/
theorem erase_classifier_graph (source : Source) (rules : List Rule) :
    (graph source rules).blocks.erase (classifier rules) = source.block :: stages rules := by
  have hfresh : classifier rules ∉ source.block :: stages rules := by
    rw [List.mem_cons, not_or]
    refine ⟨fun h => ?_, fun h => ?_⟩
    · have hentries := entries?_source source
      rw [← h] at hentries
      cases hentries
    · cases entries?_of_mem_stages h
  have hblocks : (graph source rules).blocks = (source.block :: stages rules) ++ [classifier rules] := rfl
  rw [hblocks, List.erase_append_right _ hfresh, List.erase_cons_head, List.append_nil]

theorem blocks_isPrefix (source : Source) (rules more : List Rule) :
    source.block :: stages rules <+: (graph source (rules ++ more)).blocks :=
  (List.cons_prefix_cons.mpr ⟨rfl, stages_isPrefix rules more⟩).trans (List.prefix_append _ [_])

end AppendingLemmas

open AppendingLemmas

/-- Appended rules only add to a graph. Its connectors stay and others come after them, but before the last
one, which leads from the source into the classifier. Its blocks other than the classifier stay and others
come after them. The entries of the classifier stay and others come after them. So every block other than
the classifier is still the block of its id. -/
theorem appended_rules_keep_graph (source : Source) {rules more : List Rule} (hne : rules ≠ [])
    (hfew : (rules ++ more).length ≤ portCount) :
    ∃ g g', ((compileGraph source rules).value = .ok g ∧
        (compileGraph source (rules ++ more)).value = .ok g') ∧
      (g.connectors.dropLast <+: g'.connectors ∧
        g.connectors.getLast? = some (.join source.block.id 0 classifierId) ∧
        g'.connectors.getLast? = some (.join source.block.id 0 classifierId)) ∧
      (∃ c c' entries entries', (g.classifier? = some c ∧ g'.classifier? = some c') ∧
        g.blocks.erase c <+: g'.blocks ∧
        (c.entries? = some entries ∧ c'.entries? = some entries') ∧ entries <+: entries') ∧
      ∀ b ∈ g.blocks, g.classifier? ≠ some b → g'.block? b.id = some b := by
  have hfewer : rules.length ≤ portCount := Nat.le_trans (by simp) hfew
  refine ⟨graph source rules, graph source (rules ++ more), ⟨compileGraph_value hne hfewer,
    compileGraph_value (by simp [hne]) hfew⟩, ⟨?_, ?_, ?_⟩, ?_, ?_⟩
  · simp only [graph, List.dropLast_concat]
    exact (chainsBelow_isPrefix rules more).trans (List.prefix_append _ _)
  · simp [graph]
  · simp [graph]
  · refine ⟨_, _, _, _, ⟨classifier?_graph, classifier?_graph⟩, ?_,
      ⟨entries?_classifier rules, entries?_classifier (rules ++ more)⟩,
      entriesFrom_isPrefix 0 rules more⟩
    rw [erase_classifier_graph]
    exact blocks_isPrefix source rules more
  · intro b hb hother
    have hdiffers : b ≠ classifier rules := by
      rintro rfl
      exact hother classifier?_graph
    have hold := (List.mem_erase_of_ne hdiffers).mpr hb
    rw [erase_classifier_graph] at hold
    exact (sound_graph source (rules ++ more)).block?_eq_some
      ((blocks_isPrefix source rules more).subset hold)

/-- A rule that goes on with interfaces of the sample policy and with one of its own. -/
def latePolicy : List Rule := [{ actions := [.output "eth1", .output "eth3", .drop] }]

theorem latePolicy_appended :
    (samplePolicy ≠ [] ∧ (samplePolicy ++ latePolicy).length ≤ portCount) ∧
      ∃ g g', ((compileGraph (.device "eth0") samplePolicy).value = .ok g ∧
          (compileGraph (.device "eth0") (samplePolicy ++ latePolicy)).value = .ok g') ∧
        g.connectors.dropLast <+: g'.connectors ∧
        g'.block? "ToDevice_Firewall_Rule_0_UID_1" =
          some ⟨"ToDevice_Firewall_Rule_0_UID_1", .toDevice "eth1"⟩ := by
  have hne : samplePolicy ≠ [] := by decide
  have hfew : (samplePolicy ++ latePolicy).length ≤ portCount := by decide
  obtain ⟨g, g', ⟨hg, hg'⟩, ⟨hconnectors, -⟩, -, hblocks⟩ :=
    appended_rules_keep_graph (.device "eth0") hne hfew
  refine ⟨⟨hne, hfew⟩, g, g', ⟨hg, hg'⟩, hconnectors, ?_⟩
  obtain rfl := eq_graph_of_compiled hg
  exact hblocks ⟨"ToDevice_Firewall_Rule_0_UID_1", .toDevice "eth1"⟩ (by decide) (by decide)

end PolicyGraph
