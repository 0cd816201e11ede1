import PolicyGraph.Proofs.Deployment
import PolicyGraph.Proofs.Segment
import PolicyGraph.Proofs.Statistics

/-!
# What a run reports

The events of a run follow from what it is given: first the settings, and then either the one thing that
is wrong with the rule file or the course of a compilation (`Transcript`). No event is missing, and none
is reported twice or in another place (`reports_as_transcribed`).

The wiring only ever appends to its events, so the events of each part of a run are found by themselves.
-/

namespace PolicyGraph

open Plan Yaml

/-! ## Actions that are reported -/

/-- What is reported of an action when it is passed over. -/
def Action.report? (rule : Nat) : Action → Option Event
  | .unknown kind => some (.unknownAction rule kind)
  | _ => none

/-- What is reported of the actions of a rule: the unknown ones before the first drop. -/
def unknownsOf (rule : Nat) (as : List Action) : List Event :=
  (upToDrop as).filterMap (Action.report? rule)

/-- What is reported of rules that are numbered from `index` on, rule by rule. -/
def unknowns (index : Nat) (rules : List Rule) : List Event :=
  (rules.zipIdx index).flatMap fun (rule, i) => unknownsOf i rule.actions

theorem unknowns_cons (index : Nat) (rule : Rule) (rest : List Rule) :
    unknowns index (rule :: rest) = unknownsOf index rule.actions ++ unknowns (index + 1) rest := by
  rw [unknowns, List.zipIdx_cons, List.flatMap_cons, unknowns]

theorem mem_upToDrop {as : List Action} {a : Action} (ha : a ≠ .drop) :
    a ∈ upToDrop as ↔ ∃ before after, as = before ++ a :: after ∧ .drop ∉ before := by
  induction as with
  | nil => simp [upToDrop]
  | cons b rest ih =>
    by_cases hb : b = .drop
    · subst hb
      constructor
      · intro h
        exact absurd (List.mem_singleton.mp h) ha
      · rintro ⟨before, after, has, hbefore⟩
        cases before with
        | nil => exact absurd (List.cons.inj has).1.symm ha
        | cons c before =>
          rw [← (List.cons.inj has).1] at hbefore
          exact absurd List.mem_cons_self hbefore
    · rw [upToDrop.eq_3 _ _ hb, List.mem_cons, ih]
      constructor
      · rintro (rfl | ⟨before, after, rfl, hbefore⟩)
        · exact ⟨[], rest, rfl, List.not_mem_nil⟩
        · exact ⟨b :: before, after, rfl, List.not_mem_cons_of_ne_of_not_mem (Ne.symm hb) hbefore⟩
      · rintro ⟨before, after, has, hbefore⟩
        cases before with
        | nil => exact .inl (List.cons.inj has).1.symm
        | cons c before =>
          exact .inr ⟨before, after, (List.cons.inj has).2, fun h => hbefore (List.mem_cons_of_mem c h)⟩

theorem mem_unknownsOf {rule i : Nat} {as : List Action} {kind : String} :
    .unknownAction i kind ∈ unknownsOf rule as ↔
      i = rule ∧ ∃ before after, as = before ++ .unknown kind :: after ∧ .drop ∉ before := by
  have hreport : ∀ a : Action,
      a.report? rule = some (.unknownAction i kind) ↔ a = .unknown kind ∧ i = rule := by
    intro a
    cases a <;> simp [Action.report?, eq_comm, and_comm]
  simp only [unknownsOf, List.mem_filterMap, hreport]
  constructor
  · rintro ⟨a, ha, rfl, rfl⟩
    exact ⟨rfl, (mem_upToDrop (by simp)).mp ha⟩
  · rintro ⟨rfl, h⟩
    exact ⟨_, (mem_upToDrop (by simp)).mpr h, rfl, rfl⟩

/-- The unknown actions that are reported are just those before the first drop of their rule. -/
theorem mem_unknowns {rules : List Rule} {i : Nat} {kind : String} :
    .unknownAction i kind ∈ unknowns 0 rules ↔
      ∃ rule before after, rules[i]? = some rule ∧
        rule.actions = before ++ .unknown kind :: after ∧ .drop ∉ before := by
  simp only [unknowns, List.mem_flatMap, mem_unknownsOf, Prod.exists, List.mk_mem_zipIdx_iff_getElem?]
  constructor
  · rintro ⟨rule, j, hrule, rfl, before, after, h⟩
    exact ⟨rule, before, after, hrule, h⟩
  · rintro ⟨rule, before, after, hrule, h⟩
    exact ⟨rule, i, hrule, rfl, before, after, h⟩

/-! ## Events of a compilation -/

namespace Wiring

/-- Wiring the actions of a rule appends what is reported of them. -/
theorem events_chain (rule : Nat) (as : List Action) (tail : ChainEnd) (w : Wiring) :
    (w.chain rule tail as).events = w.events ++ unknownsOf rule as := by
  induction as generalizing tail w with
  | nil => exact (List.append_nil _).symm
  | cons a rest ih =>
    cases a with
    | alert message | log message => exact ih _ _
    | output interface => exact ih _ _
    | drop => exact (List.append_nil _).symm
    | unknown kind =>
      have h := ih tail { w with events := w.events ++ [.unknownAction rule kind] }
      rw [List.append_assoc] at h
      exact h

theorem events_addRule (w : Wiring) (rule : Rule) (index : Nat) :
    (w.addRule rule index).events = w.events ++ unknownsOf index rule.actions :=
  events_chain _ _ _ _

theorem events_addRules (w : Wiring) (index : Nat) (rules : List Rule) :
    (w.addRules index rules).events = w.events ++ unknowns index rules := by
  induction rules generalizing w index with
  | nil => exact (List.append_nil _).symm
  | cons rule rest ih =>
    rw [addRules, ih, events_addRule, unknowns_cons, List.append_assoc]

end Wiring

section Compilation

variable {source : Source} {rules : List Rule} {resolver : Resolver}

theorem compileGraph_events (hne : rules ≠ []) (hfew : rules.length ≤ portCount) :
    (compileGraph source rules).events =
      unknowns 0 rules ++ [.compiled (graph source rules).statistics] := by
  simp only [compileGraph, List.isEmpty_iff, hne, if_false, Nat.not_lt.mpr hfew,
    List.take_of_length_le hfew, build_draft, Wiring.events_addRules, List.nil_append]

theorem compile_events (segment : Int) (hne : rules ≠ []) (hfew : rules.length ≤ portCount) :
    (compile source rules segment resolver).events =
      unknowns 0 rules ++
        [.compiled (graph source rules).statistics, .located (resolver segment)] := by
  simp only [compile, Logged.events_bind, compileGraph_value hne hfew, compileGraph_events hne hfew,
    Logged.report, Logged.events_pure, List.append_assoc, List.cons_append, List.nil_append]

end Compilation

/-! ## Events of a run -/

theorem Deployment.events_announce (s : Settings) :
    (Deployment.announce s).events =
      [.segmentSetting s.segment, .inputSetting s.source.describe, .ruleFileSetting s.ruleFile] := rfl

/-- An event with its level. -/
def Event.leveled (e : Event) : Level × Event := (e.level, e)

theorem leveled_unknowns (index : Nat) (rules : List Rule) :
    (unknowns index rules).map Event.leveled = (unknowns index rules).map fun e => (.warn, e) := by
  apply List.map_congr_left
  intro e he
  obtain ⟨⟨rule, i⟩, -, he⟩ := List.mem_flatMap.mp he
  obtain ⟨a, -, he⟩ := List.mem_filterMap.mp he
  cases a with
  | unknown kind =>
    rw [← Option.some.inj he]
    rfl
  | alert m | log m | output o | drop => cases he

/-- What is reported when a text is read as a segment: one warning if it names none. -/
inductive SegmentReport (text : String) : List (Level × Event) → Prop
  | read {z : Int} : Segment.Names text z → SegmentReport text []
  | rejected : (¬ ∃ z, Segment.Names text z) →
      SegmentReport text [(.warn, .segmentRejected text 220)]

theorem segmentReport (text : String) :
    SegmentReport text ((Segment.parse text).events.map Event.leveled) := by
  by_cases h : ∃ z, Segment.Names text z
  · obtain ⟨z, hz⟩ := h
    rw [Segment.parse_of_names hz]
    exact .read hz
  · rw [Segment.parse_of_not_names h]
    exact .rejected h

theorem unknownAction_not_mem_parse {i : Nat} {kind : String} (text : String) :
    .unknownAction i kind ∉ (Segment.parse text).events := by
  by_cases h : ∃ z, Segment.Names text z
  · obtain ⟨z, hz⟩ := h
    simp [Segment.parse_of_names hz]
  · simp [Segment.parse_of_not_names h]

/-- What a run reports once its settings are announced, given what was found at the path of the rule file
and the statements that it returns. -/
inductive Transcript {π σ : Type} (r : Reader π σ) (s : Settings) :
    Except FileFault String → List Statement → List (Level × Event) → Prop
  | unreadable (fault : FileFault) :
      Transcript r s (.error fault) []
        [(.warn, .ruleFileRejected s.ruleFile (.ruleFile s.ruleFile fault))]
  | malformed {text : String} {failure : Failure} : parseRules r text = .error failure →
      Transcript r s (.ok text) [] [(.warn, .ruleFileRejected s.ruleFile failure)]
  | noRules {text : String} : parseRules r text = .ok [] →
      Transcript r s (.ok text) [] [(.warn, .ruleFileEmpty s.ruleFile)]
  /-- The counts of the last event are those of the statement. -/
  | deployed {text : String} {rules : List Rule} {segment : List (Level × Event)}
      {statement : Statement} : parseRules r text = .ok rules → rules ≠ [] →
      SegmentReport s.segment segment →
      statement.graph.statistics.classifierRules = rules.length →
      Transcript r s (.ok text) [statement]
        (segment ++ ((unknowns 0 rules).map fun e => (.warn, e)) ++
          ([(.debug, .compiled statement.graph.statistics), (.debug, .located statement.location),
            (.info, .deployed rules.length statement.graph.blocks.length statement.location)] :
              List (Level × Event)))

section Statements

variable {π σ : Type} {r : Reader π σ} {s : Settings} {resolver : Resolver}
  {content : Except FileFault String} {text : String} {rules : List Rule}

theorem statements_events_of_rules (hparse : parseRules r text = .ok rules) (hne : rules ≠ [])
    (hfew : rules.length ≤ portCount) :
    (Deployment.statements r s resolver (.ok text)).events =
      (Deployment.announce s).events ++ (s.segmentId.events ++ (unknowns 0 rules ++
        [.compiled (graph s.source rules).statistics, .located (resolver s.segmentId.value),
          .deployed rules.length (graph s.source rules).blocks.length
            (resolver s.segmentId.value)])) := by
  cases rules with
  | nil => exact absurd rfl hne
  | cons rule rest =>
    simp only [Deployment.statements, readRules, hparse, Deployment.ofRules, Logged.events_bind,
      compile_value s.segmentId.value hne hfew, compile_events s.segmentId.value hne hfew,
      Logged.events_pure, Logged.report, List.append_assoc, List.cons_append, List.nil_append]

/-- A run announces its settings and goes on as transcribed. -/
theorem exists_transcript (s : Settings) (resolver : Resolver)
    (hfew : ∀ text rules, content = .ok text → parseRules r text = .ok rules →
      rules.length ≤ portCount) :
    ∃ rest,
      (Deployment.statements r s resolver content).events = (Deployment.announce s).events ++ rest ∧
      Transcript r s content (Deployment.statements r s resolver content).value
        (rest.map Event.leveled) := by
  cases content with
  | error fault => exact ⟨_, rfl, .unreadable fault⟩
  | ok text =>
    cases hparse : parseRules r text with
    | error failure =>
      simp only [Deployment.statements, readRules, hparse]
      exact ⟨_, rfl, .malformed hparse⟩
    | ok rules =>
      by_cases hne : rules = []
      · subst hne
        simp only [Deployment.statements, readRules, hparse]
        exact ⟨_, rfl, .noRules hparse⟩
      · have hlength := hfew text rules rfl hparse
        refine ⟨_, statements_events_of_rules hparse hne hlength, ?_⟩
        rw [statements_of_rules hparse hne hlength, List.map_append, List.map_append,
          leveled_unknowns, ← List.append_assoc]
        exact .deployed hparse hne (segmentReport s.segment)
          (congrArg Statistics.classifierRules (statistics_graph s.source rules))

theorem unknownAction_mem_events {i : Nat} {kind : String} (hparse : parseRules r text = .ok rules)
    (hfew : rules.length ≤ portCount) :
    .unknownAction i kind ∈ (Deployment.statements r s resolver (.ok text)).events ↔
      .unknownAction i kind ∈ unknowns 0 rules := by
  by_cases hne : rules = []
  · subst hne
    simp [Deployment.statements, readRules, hparse, Deployment.events_announce, Logged.report,
      unknowns]
  · have hsegment : .unknownAction i kind ∉ s.segmentId.events :=
      unknownAction_not_mem_parse s.segment
    rw [statements_events_of_rules hparse hne hfew]
    simp [Deployment.events_announce, hsegment]

end Statements

/-- The events of a run are those for its settings and then the ones of the transcript, each in its place
and with its level. In particular the unknown actions that it reports are just those that come before the
first drop of their rule. All this holds whatever reader of documents is used. -/
theorem reports_as_transcribed {π σ : Type} (r : Reader π σ) (s : Settings) (resolver : Resolver)
    {content : Except FileFault String}
    (hfew : ∀ text rules, content = .ok text → parseRules r text = .ok rules →
      rules.length ≤ portCount) :
    (∃ rest, (Deployment.statements r s resolver content).events.map Event.leveled =
      [(.info, .segmentSetting s.segment), (.info, .inputSetting s.source.describe),
        (.info, .ruleFileSetting s.ruleFile)] ++ rest ∧
      Transcript r s content (Deployment.statements r s resolver content).value rest) ∧
    ∀ text rules, content = .ok text → parseRules r text = .ok rules → ∀ i kind,
      .unknownAction i kind ∈ (Deployment.statements r s resolver content).events ↔
        ∃ rule before after, rules[i]? = some rule ∧
          rule.actions = before ++ .unknown kind :: after ∧ .drop ∉ before := by
  constructor
  · obtain ⟨rest, hevents, htranscript⟩ := exists_transcript s resolver hfew
    refine ⟨_, ?_, htranscript⟩
    rw [hevents, List.map_append]
    rfl
  · rintro text rules rfl hparse i kind
    rw [unknownAction_mem_events hparse (hfew text rules rfl hparse), mem_unknowns]

/-! ## A rule file with unknown actions -/

/-- One rule, with an unknown action on either side of its drop. -/
def noticeText : String := "rules: [{actions: [{type: tee}, {type: drop}, {type: mirror}]}]"

def noticeRules : List Rule := [{ actions := [.unknown "tee", .drop, .unknown "mirror"] }]

/-- The statistics of their graph, which has the source, the drop and the classifier. -/
def noticeStatistics : Statistics where
  totalBlocks := 3
  connectors := 2
  classifierRules := 1
  outputSinks := 0
  alertBlocks := 0
  logBlocks := 0
  maxFanIn := 1

def noticeDocument : Document :=
  let typed (kind : String) : Node := .mapping {} [(.scalar {} .plain "type", .scalar {} .plain kind)]
  .ofRoot (.mapping {} [(.scalar {} .plain "rules", .sequence {} [.mapping {}
    [(.scalar {} .plain "actions", .sequence {} [typed "tee", typed "drop", typed "mirror"])]])])

theorem parseRules_noticeText : parseRules Document.reader noticeText = .ok noticeRules := by
  have hdoc : Document.ofText? noticeText = some noticeDocument :=
    Document.ofText?_of_tokens (by cbv) (by cbv)
  exact parseRules_of_document (by decide) hdoc (by cbv)

/-- Settings with a segment that is none. -/
def noticeSettings : Settings := { segment := "abc" }

/-- Only the unknown action before the drop is reported, after the segment that is none. -/
theorem noticeText_reported :
    (∀ text rules, (.ok noticeText : Except FileFault String) = .ok text →
        parseRules Document.reader text = .ok rules → rules.length ≤ portCount) ∧
      (Deployment.statements Document.reader noticeSettings .segment (.ok noticeText)).events.map
          Event.leveled =
        [(.info, .segmentSetting "abc"), (.info, .inputSetting "eth0"),
          (.info, .ruleFileSetting "firewall_rules.yml"), (.warn, .segmentRejected "abc" 220),
          (.warn, .unknownAction 0 "tee"),
          (.debug, .compiled noticeStatistics), (.debug, .located (.segment 220)),
          (.info, .deployed 1 3 (.segment 220))] := by
  have hfew : ∀ text rules, (.ok noticeText : Except FileFault String) = .ok text →
      parseRules Document.reader text = .ok rules → rules.length ≤ portCount := by
    intro text rules htext hparse
    rw [eq_of_parseRules parseRules_noticeText htext hparse]
    decide
  have hsource : noticeSettings.source = .device "eth0" := by cbv
  have hsegment : noticeSettings.segmentId.value = 220 := by decide
  have hstatistics : Plan.statistics noticeRules = noticeStatistics := by decide
  refine ⟨hfew, ?_⟩
  have hvalue : (Deployment.statements Document.reader noticeSettings .segment (.ok noticeText)).value =
      [⟨.segment noticeSettings.segmentId.value, graph noticeSettings.source noticeRules⟩] :=
    statements_of_rules parseRules_noticeText (by decide) (by decide)
  obtain ⟨⟨rest, hevents, htranscript⟩, -⟩ :=
    reports_as_transcribed Document.reader noticeSettings .segment hfew
  rw [hvalue] at htranscript
  rw [hevents]
  cases htranscript with
  | deployed hparse hne hreport hcount =>
    obtain rfl := eq_of_parseRules parseRules_noticeText rfl hparse
    cases hreport with
    | read hz =>
      have hread : Segment.read? noticeSettings.segment = none := by decide
      rw [Segment.read?_eq_some_iff.mpr hz] at hread
      cases hread
    | rejected =>
      rw [length_blocks_graph, statistics_graph, hstatistics, hsource, hsegment]
      rfl

end PolicyGraph
