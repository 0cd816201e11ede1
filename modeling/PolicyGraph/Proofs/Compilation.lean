import PolicyGraph.Proofs.Wiring

/-!
# What compilation returns

A policy is compiled unless it is empty or has more rules than the classifier has ports
(`compiles_iff_nonempty`), and the graph is the one that its plan describes (`compiled_as_planned`).
-/

namespace PolicyGraph

open Plan

/-! ## The outcome -/

section Outcome

variable {source : Source} {rules : List Rule} {g : Graph}

theorem compileGraph_nil (source : Source) : (compileGraph source []).value = .error .noRules := rfl

theorem compileGraph_value (hne : rules ≠ []) (hfew : rules.length ≤ portCount) :
    (compileGraph source rules).value = .ok (graph source rules) := by
  simp only [compileGraph, List.isEmpty_iff, hne, if_false, Nat.not_lt.mpr hfew,
    List.take_of_length_le hfew, build_draft]

theorem compileGraph_value_of_many (hmany : portCount < rules.length) :
    (compileGraph source rules).value = .error (.graph (.beyondPorts portCount)) := by
  have hne : rules ≠ [] := List.ne_nil_of_length_pos (Nat.zero_lt_of_lt hmany)
  simp only [compileGraph, List.isEmpty_iff, hne, if_false, hmany, if_true]

/-- Whatever is compiled is the graph of the plan. -/
theorem eq_graph_of_compiled (h : (compileGraph source rules).value = .ok g) :
    g = graph source rules := by
  by_cases hne : rules = []
  · rw [hne, compileGraph_nil] at h
    cases h
  · rcases Nat.lt_or_ge portCount rules.length with hmany | hfew
    · rw [compileGraph_value_of_many hmany] at h
      cases h
    · rw [compileGraph_value hne hfew] at h
      cases h
      rfl

end Outcome

/-- A policy within the number of ports is compiled just if it has rules, and it is rejected as empty
just if it has none. No check on the draft of its graph ever fails. -/
theorem compiles_iff_nonempty (source : Source) {rules : List Rule}
    (hfew : rules.length ≤ portCount) :
    ((∃ g, (compileGraph source rules).value = .ok g) ↔ rules ≠ []) ∧
      ((compileGraph source rules).value = .error .noRules ↔ rules = []) ∧
      ∀ defect, ((({} : Wiring).addRules 0 rules).draft source).build ≠ .error defect := by
  refine ⟨⟨?_, fun hne => ⟨_, compileGraph_value hne hfew⟩⟩, ⟨?_, ?_⟩, ?_⟩
  · rintro ⟨g, hg⟩ rfl
    rw [compileGraph_nil] at hg
    cases hg
  · intro herror
    by_cases hne : rules = []
    · exact hne
    · rw [compileGraph_value hne hfew] at herror
      cases herror
  · rintro rfl
    exact compileGraph_nil source
  · intro defect hbuild
    rw [build_draft] at hbuild
    cases hbuild

/-- A policy with an action of every kind, an interface that is used again, a drop before the end of its
rule and a rule without actions. -/
def samplePolicy : List Rule :=
  [{ actions := [.log "seen", .unknown "mirror", .output "eth1"] },
    { actions := [.output "eth2", .output "eth1", .alert "late"] },
    {},
    { actions := [.drop, .log "never"] }]

theorem samplePolicy_compiles :
    samplePolicy.length ≤ portCount ∧
      ∃ g, (compileGraph (.device "eth0") samplePolicy).value = .ok g :=
  ⟨by decide, (compiles_iff_nonempty (.device "eth0") (by decide)).1.mpr (by decide)⟩

/-- The graph of a policy is as planned: the chains of all rules in order and then the connector into the
classifier; the source, the blocks of all steps in the order of first use and then the classifier. -/
theorem compiled_as_planned (source : Source) {rules : List Rule} (hne : rules ≠ [])
    (hfew : rules.length ≤ portCount) :
    ∃ g, (compileGraph source rules).value = .ok g ∧
      g.connectors =
        ((List.range rules.length).flatMap fun i => link classifierId i (Plan.chain rules i)) ++
          [.join source.block.id 0 classifierId] ∧
      g.blocks =
        source.block :: (((steps rules).map (stage rules)).eraseDups ++
          [⟨classifierId, .headerClassifier
            (rules.zipIdx.map fun (rule, i) => ⟨rule.headerMatch, rule.priority, i⟩) .high true⟩]) ∧
      (g.blocks.map Block.id).Nodup ∧
      g.root = source.block.id :=
  ⟨graph source rules, compileGraph_value hne hfew, rfl, rfl, nodup_ids_graph source rules, rfl⟩

theorem samplePolicy_as_planned :
    (samplePolicy ≠ [] ∧ samplePolicy.length ≤ portCount) ∧
      ∃ g, (compileGraph (.device "eth0") samplePolicy).value = .ok g ∧
        g.connectors =
          [.join "HeaderClassifier_Snort" 0 "Log_Firewall_Rule_0_UID_0",
            .join "Log_Firewall_Rule_0_UID_0" 0 "ToDevice_Firewall_Rule_0_UID_1",
            .join "HeaderClassifier_Snort" 1 "ToDevice_Firewall_Rule_1_UID_0",
            .join "ToDevice_Firewall_Rule_1_UID_0" 0 "ToDevice_Firewall_Rule_0_UID_1",
            .join "ToDevice_Firewall_Rule_0_UID_1" 0 "Alert_Firewall_Rule_1_UID_2",
            .join "HeaderClassifier_Snort" 3 "Discard_Firewall",
            .join "FromDevice_Snort" 0 "HeaderClassifier_Snort"] := by
  refine ⟨⟨by decide, by decide⟩, ?_⟩
  have hne : samplePolicy ≠ [] := by decide
  obtain ⟨g, hg, hconnectors, -⟩ := compiled_as_planned (.device "eth0") hne (by decide)
  exact ⟨g, hg, hconnectors.trans (by decide)⟩

end PolicyGraph
