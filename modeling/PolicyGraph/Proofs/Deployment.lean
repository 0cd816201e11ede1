import PolicyGraph.Proofs.Compilation
import PolicyGraph.Proofs.RuleFile

/-!
# What is deployed

A deployment is all or nothing. `deploys_whole_or_nothing` says which contents of a rule file lead to no
statement at all, and that every other content leads to one statement, made of the complete list of rules.
-/

namespace PolicyGraph

open Plan
open Yaml (Reader Document)

/-- What is found at the path of the rule file is no text, no rule file, or a rule file without rules. -/
inductive NothingToDeploy {π σ : Type} (r : Reader π σ) : Except FileFault String → Prop
  | unreadable (fault : FileFault) : NothingToDeploy r (.error fault)
  | malformed {text : String} {failure : Failure} :
      parseRules r text = .error failure → NothingToDeploy r (.ok text)
  | noRules {text : String} : parseRules r text = .ok [] → NothingToDeploy r (.ok text)

section Statements

variable {π σ : Type} {r : Reader π σ} {s : Settings} {resolver : Resolver}
  {content : Except FileFault String} {text : String} {rules : List Rule}

/-- Either there is nothing to deploy, or the file has rules. -/
theorem exists_rules_of_not_nothing (h : ¬ NothingToDeploy r content) :
    ∃ text rules, content = .ok text ∧ parseRules r text = .ok rules ∧ rules ≠ [] := by
  cases content with
  | error fault => exact absurd (.unreadable fault) h
  | ok text =>
    cases hparse : parseRules r text with
    | error failure => exact absurd (.malformed hparse) h
    | ok rules =>
      refine ⟨text, rules, rfl, hparse, ?_⟩
      rintro rfl
      exact h (.noRules hparse)

theorem statements_of_nothing (h : NothingToDeploy r content) :
    (Deployment.statements r s resolver content).value = [] := by
  cases h with
  | unreadable fault => rfl
  | malformed hparse => simp [Deployment.statements, readRules, hparse]
  | noRules hparse => simp [Deployment.statements, readRules, hparse]

theorem compile_value {source : Source} (segment : Int) (hne : rules ≠ [])
    (hfew : rules.length ≤ portCount) :
    (compile source rules segment resolver).value = .ok ⟨resolver segment, graph source rules⟩ := by
  simp only [compile, Logged.value_bind, compileGraph_value hne hfew, Logged.value_pure]

/-- Rules are deployed as one statement. -/
theorem statements_of_rules (hparse : parseRules r text = .ok rules) (hne : rules ≠ [])
    (hfew : rules.length ≤ portCount) :
    (Deployment.statements r s resolver (.ok text)).value =
      [⟨resolver s.segmentId.value, graph s.source rules⟩] := by
  cases rules with
  | nil => exact absurd rfl hne
  | cons rule rest =>
    simp only [Deployment.statements, readRules, hparse, Deployment.ofRules, Logged.value_bind,
      compile_value s.segmentId.value hne hfew, Logged.value_pure]

theorem compile_value_of_many {source : Source} (segment : Int) (hmany : portCount < rules.length) :
    (compile source rules segment resolver).value = .error (.graph (.beyondPorts portCount)) := by
  simp only [compile, Logged.value_bind, compileGraph_value_of_many hmany, Logged.value_pure]

/-- More rules than a classifier has ports are not deployed. -/
theorem statements_of_many (hparse : parseRules r text = .ok rules) (hmany : portCount < rules.length) :
    (Deployment.statements r s resolver (.ok text)).value = [] := by
  cases rules with
  | nil => exact absurd hmany (Nat.not_lt_zero _)
  | cons rule rest =>
    simp only [Deployment.statements, readRules, hparse, Deployment.ofRules, Logged.value_bind,
      compile_value_of_many s.segmentId.value hmany, Logged.value_pure]

theorem rootBlock?_graph (source : Source) (rules : List Rule) :
    (graph source rules).rootBlock? = some source.block := by
  simp [Graph.rootBlock?, Graph.block?, graph]

/-- Whatever a rule file holds, there is at most one statement, and its graph starts at the source of the
settings. -/
theorem statements_le_one (r : Reader π σ) (s : Settings) (resolver : Resolver)
    (content : Except FileFault String) :
    (Deployment.statements r s resolver content).value.length ≤ 1 ∧
      ∀ statement ∈ (Deployment.statements r s resolver content).value,
        statement.graph.rootBlock? = some s.source.block := by
  by_cases hnothing : NothingToDeploy r content
  · simp [statements_of_nothing hnothing]
  · obtain ⟨text, rules, rfl, hparse, hne⟩ := exists_rules_of_not_nothing hnothing
    rcases Nat.lt_or_ge portCount rules.length with hmany | hfew
    · simp [statements_of_many hparse hmany]
    · simp [statements_of_rules hparse hne hfew, rootBlock?_graph]

end Statements

/-- Nothing is deployed just if the rule file is unreadable, malformed or without rules. Otherwise there
is one statement, with the graph of all rules that the file lists and the location that the resolver has
for the segment of the settings. In the topology of the settings that is the host of the segment, or the
bare segment if it has none. All this holds whatever reader of documents is used. -/
theorem deploys_whole_or_nothing {π σ : Type} (r : Reader π σ) (s : Settings) (resolver : Resolver)
    {content : Except FileFault String}
    (hfew : ∀ text rules, content = .ok text → parseRules r text = .ok rules →
      rules.length ≤ portCount) :
    ((Deployment.statements r s resolver content).value = [] ↔ NothingToDeploy r content) ∧
    (¬ NothingToDeploy r content → ∃ text rules g,
      (content = .ok text ∧ parseRules r text = .ok rules ∧ ListsRules r text rules) ∧
      (compileGraph s.source rules).value = .ok g ∧
      (Deployment.statements r s resolver content).value = [⟨resolver s.segmentId.value, g⟩]) ∧
    ∀ statement ∈ (Deployment.statements r s s.topology content).value,
      statement.location =
        (s.topology.host? s.segmentId.value).elim (.segment s.segmentId.value)
          (.host s.segmentId.value) := by
  by_cases hnothing : NothingToDeploy r content
  · have hempty : ∀ resolver, (Deployment.statements r s resolver content).value = [] :=
      fun resolver => statements_of_nothing hnothing
    refine ⟨⟨fun _ => hnothing, fun _ => hempty resolver⟩, fun h => absurd hnothing h, ?_⟩
    simp [hempty]
  · obtain ⟨text, rules, rfl, hparse, hne⟩ := exists_rules_of_not_nothing hnothing
    have hlength := hfew text rules rfl hparse
    have hone : ∀ resolver : Resolver, (Deployment.statements r s resolver (.ok text)).value =
        [⟨resolver s.segmentId.value, graph s.source rules⟩] :=
      fun resolver => statements_of_rules hparse hne hlength
    refine ⟨⟨fun h => ?_, fun h => absurd h hnothing⟩, fun _ => ?_, fun statement h => ?_⟩
    · rw [hone] at h
      cases h
    · exact ⟨text, rules, graph s.source rules,
        ⟨rfl, hparse, listsRules_of_parseRules hparse hne⟩, compileGraph_value hne hlength,
        hone resolver⟩
    · rw [hone, List.mem_singleton] at h
      subst h
      show s.topology.resolve s.segmentId.value = _
      unfold Topology.resolve
      cases s.topology.host? s.segmentId.value <;> rfl

/-- Settings with a host for their segment. -/
def sampleSettings : Settings := { segment := " +9", topology := .ofList [(220, "a"), (9, "b")] }

theorem sampleText_deployed :
    (∀ text rules, (.ok sampleText : Except FileFault String) = .ok text →
        parseRules Document.reader text = .ok rules → rules.length ≤ portCount) ∧
      ∃ g, (compileGraph (.device "eth0") sampleRules).value = .ok g ∧
        (Deployment.statements Document.reader sampleSettings sampleSettings.topology
          (.ok sampleText)).value = [⟨.host 9 "b", g⟩] := by
  have hfew : ∀ text rules, (.ok sampleText : Except FileFault String) = .ok text →
      parseRules Document.reader text = .ok rules → rules.length ≤ portCount := by
    intro text rules htext hparse
    rw [eq_of_parseRules parseRules_sampleText htext hparse]
    decide
  have hsome : ¬ NothingToDeploy Document.reader (.ok sampleText) := by
    intro h
    cases h with
    | malformed hparse => simp [parseRules_sampleText] at hparse
    | noRules hparse => simp [parseRules_sampleText, sampleRules] at hparse
  obtain ⟨text, rules, g, ⟨htext, hparse, -⟩, hg, hone⟩ :=
    (deploys_whole_or_nothing Document.reader sampleSettings sampleSettings.topology hfew).2.1 hsome
  rw [eq_of_parseRules parseRules_sampleText htext hparse] at hg
  have hsource : sampleSettings.source = .device "eth0" := by cbv
  have hlocation : sampleSettings.topology.resolve sampleSettings.segmentId.value = .host 9 "b" := by
    decide
  refine ⟨hfew, g, ?_, ?_⟩
  · rw [← hsource]
    exact hg
  · rw [hone, hlocation]

end PolicyGraph
