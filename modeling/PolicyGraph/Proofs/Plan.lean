import Mathlib.Data.List.Forall2
import Mathlib.Data.List.Infix
import PolicyGraph.Proofs.Ids

/-!
# The plan of a policy

What a list of rules is wired into, said of the whole list at once: which actions take effect, in which
block each of them runs, and how the blocks are joined. There is no state here. That the wiring carries
out the plan is shown in `Proofs/Wiring`.

The block of an output to an interface is named for the first output to that interface in the whole
policy; that of an alert or a log is named for the action itself.
-/

namespace PolicyGraph

/-! ## Actions that take effect -/

/-- Whether an action is of a kind that is known. -/
def Action.isKnown : Action → Bool
  | .unknown _ => false
  | _ => true

/-- Whether all actions that are equal to this one run in one block. -/
def Action.isShared : Action → Bool
  | .output _ | .drop => true
  | _ => false

/-- The actions up to and including the first drop. -/
def upToDrop : List Action → List Action
  | [] => []
  | .drop :: _ => [.drop]
  | a :: rest => a :: upToDrop rest

/-- The actions that take effect: the known ones up to and including the first drop. -/
def effective (actions : List Action) : List Action := (upToDrop actions).filter Action.isKnown

@[simp] theorem effective_nil : effective [] = [] := rfl

@[simp] theorem effective_alert (m : String) (rest : List Action) :
    effective (.alert m :: rest) = .alert m :: effective rest := rfl

@[simp] theorem effective_log (m : String) (rest : List Action) :
    effective (.log m :: rest) = .log m :: effective rest := rfl

@[simp] theorem effective_output (i : String) (rest : List Action) :
    effective (.output i :: rest) = .output i :: effective rest := rfl

@[simp] theorem effective_drop (rest : List Action) : effective (.drop :: rest) = [.drop] := rfl

@[simp] theorem effective_unknown (k : String) (rest : List Action) :
    effective (.unknown k :: rest) = effective rest := rfl

theorem isKnown_of_mem_effective {actions : List Action} {a : Action} (h : a ∈ effective actions) :
    a.isKnown = true :=
  (List.mem_filter.mp h).2

theorem mem_of_mem_effective {actions : List Action} {a : Action} (h : a ∈ effective actions) :
    a ∈ actions := by
  induction actions with
  | nil => exact h
  | cons b rest ih =>
    cases b with
    | drop =>
      rw [effective_drop, List.mem_singleton] at h
      exact h ▸ List.mem_cons_self
    | unknown k => exact List.mem_cons_of_mem _ (ih h)
    | alert m | log m | output i =>
      rcases List.mem_cons.mp h with rfl | hrest
      · exact List.mem_cons_self
      · exact List.mem_cons_of_mem _ (ih hrest)

/-- A drop is the last action that takes effect. -/
theorem effective_drop_last {actions : List Action} {j : Nat}
    (h : (effective actions)[j]? = some .drop) : (effective actions)[j + 1]? = none := by
  induction actions generalizing j with
  | nil => rfl
  | cons a rest ih =>
    cases a with
    | drop =>
      cases j with
      | zero => rfl
      | succ j => simp at h
    | unknown k => exact ih h
    | alert m | log m | output i =>
      cases j with
      | zero => simp at h
      | succ j => exact ih h

/-! ## Steps -/

/-- An action that takes effect, with the index of its rule and its place among the actions of the rule
that take effect. -/
structure Step where
  rule : Nat
  place : Nat
  action : Action
  deriving DecidableEq, Repr

/-- The steps of a rule that carry out actions, numbered from `place` on. -/
def stepsFrom (rule place : Nat) : List Action → List Step
  | [] => []
  | a :: rest => ⟨rule, place, a⟩ :: stepsFrom rule (place + 1) rest

namespace Plan

/-- The actions of the rule with an index that take effect. -/
def actions (rules : List Rule) (i : Nat) : List Action :=
  match rules[i]? with
  | some rule => effective rule.actions
  | none => []

/-- The steps of the rule with an index. -/
def ruleSteps (rules : List Rule) (i : Nat) : List Step := stepsFrom i 0 (actions rules i)

/-- The steps of the first `n` rules, rule by rule. -/
def stepsBelow (rules : List Rule) (n : Nat) : List Step := (List.range n).flatMap (ruleSteps rules)

/-- The steps of all rules, rule by rule. -/
def steps (rules : List Rule) : List Step := stepsBelow rules rules.length

/-! ## The plan -/

/-- The first step that writes to an interface. -/
def firstOutput? (rules : List Rule) (interface : String) : Option Step :=
  (steps rules).find? (·.action = .output interface)

/-- The id of the block that is made for an output in a step. -/
def outputId (s : Step) : BlockId := actionId "ToDevice" s.rule s.place

/-- The id of the block in which a step runs. -/
def stageId (rules : List Rule) (s : Step) : BlockId :=
  match s.action with
  | .alert _ => actionId "Alert" s.rule s.place
  | .log _ => actionId "Log" s.rule s.place
  | .output interface => outputId ((firstOutput? rules interface).getD s)
  | .drop | .unknown _ => discardId

/-- The kind of block in which an action runs. No step has an unknown action. -/
def stageKind : Action → BlockKind
  | .alert message => .alert message
  | .log message => .log message
  | .output interface => .toDevice interface
  | .drop | .unknown _ => .discard

/-- The block in which a step runs. -/
def stage (rules : List Rule) (s : Step) : Block := ⟨stageId rules s, stageKind s.action⟩

/-- The blocks in which the steps run, in the order of first use. -/
def stages (rules : List Rule) : List Block := ((steps rules).map (stage rules)).eraseDups

/-- The blocks that packets which a rule matched are to pass through, in the order of its actions. -/
def chain (rules : List Rule) (i : Nat) : List BlockId := (ruleSteps rules i).map (stageId rules)

/-- Connectors from a port through blocks in a row. -/
def link (source : BlockId) (port : Nat) : List BlockId → List Connector
  | [] => []
  | id :: rest => .join source port id :: link id 0 rest

/-- The connectors of the first `n` chains. -/
def chainsBelow (rules : List Rule) (n : Nat) : List Connector :=
  (List.range n).flatMap fun i => link classifierId i (chain rules i)

/-- The classifier's entries from number `k` on. -/
def entriesFrom (k : Nat) (rules : List Rule) : List ClassifierEntry :=
  (rules.zipIdx k).map fun (rule, i) => ⟨rule.headerMatch, rule.priority, i⟩

/-- The classifier, with an entry for each rule. -/
def classifier (rules : List Rule) : Block :=
  ⟨classifierId, .headerClassifier (entriesFrom 0 rules) .high true⟩

/-- The graph that a policy is wired into. -/
def graph (source : Source) (rules : List Rule) : Graph where
  blocks := source.block :: (stages rules ++ [classifier rules])
  connectors := chainsBelow rules rules.length ++ [.join source.block.id 0 classifierId]
  root := source.block.id

/-! ## Which steps there are -/

section Steps

variable {rules : List Rule} {s t : Step}

theorem getElem?_stepsFrom (rule place : Nat) (as : List Action) (j : Nat) :
    (stepsFrom rule place as)[j]? = as[j]?.map fun a => ⟨rule, place + j, a⟩ := by
  induction as generalizing place j with
  | nil => rfl
  | cons a rest ih =>
    cases j with
    | zero => rfl
    | succ j =>
      simp only [stepsFrom, List.getElem?_cons_succ]
      rw [ih, Nat.add_right_comm, Nat.add_assoc]

theorem getElem?_ruleSteps (i j : Nat) :
    (ruleSteps rules i)[j]? = (actions rules i)[j]?.map fun a => ⟨i, j, a⟩ := by
  simp only [ruleSteps, getElem?_stepsFrom, Nat.zero_add]

/-- The steps of a rule are its actions that take effect, each at its place. -/
theorem mem_ruleSteps {i : Nat} :
    s ∈ ruleSteps rules i ↔ s.rule = i ∧ (actions rules i)[s.place]? = some s.action := by
  rw [List.mem_iff_getElem?]
  constructor
  · rintro ⟨j, hj⟩
    rw [getElem?_ruleSteps, Option.map_eq_some_iff] at hj
    obtain ⟨a, ha, rfl⟩ := hj
    exact ⟨rfl, ha⟩
  · rintro ⟨rfl, ha⟩
    exact ⟨s.place, by rw [getElem?_ruleSteps, ha]; rfl⟩

theorem actions_eq_nil {i : Nat} (hi : rules.length ≤ i) : actions rules i = [] := by
  simp only [actions, List.getElem?_eq_none hi]

/-- What holds of two policies rule by rule, and of no actions, holds at every index. -/
theorem actions_of_forall₂ {R : List Action → List Action → Prop} {a b : List Rule} (hnil : R [] [])
    (h : List.Forall₂ (fun r r' => R (effective r.actions) (effective r'.actions)) a b) (i : Nat) :
    R (actions a i) (actions b i) := by
  induction h generalizing i with
  | nil => exact hnil
  | cons hrule _ ih =>
    cases i with
    | zero => exact hrule
    | succ i => exact ih i

theorem lt_length_of_getElem?_actions {i j : Nat} {a : Action}
    (h : (actions rules i)[j]? = some a) : i < rules.length := by
  rcases Nat.lt_or_ge i rules.length with hlt | hge
  · exact hlt
  · rw [actions_eq_nil hge] at h
    simp at h

/-- The steps are the actions that take effect, each in its rule and at its place. -/
theorem mem_steps : s ∈ steps rules ↔ (actions rules s.rule)[s.place]? = some s.action := by
  simp only [steps, stepsBelow, List.mem_flatMap, List.mem_range, mem_ruleSteps]
  constructor
  · rintro ⟨_, _, rfl, ha⟩
    exact ha
  · intro ha
    exact ⟨s.rule, lt_length_of_getElem?_actions ha, rfl, ha⟩

theorem rule_lt_of_mem_steps (hs : s ∈ steps rules) : s.rule < rules.length :=
  lt_length_of_getElem?_actions (mem_steps.mp hs)

theorem mem_steps_of_mem_ruleSteps {i : Nat} (hs : s ∈ ruleSteps rules i) : s ∈ steps rules := by
  obtain ⟨rfl, ha⟩ := mem_ruleSteps.mp hs
  exact mem_steps.mpr ha

/-- A step is known by its rule and its place. -/
theorem step_ext (hs : s ∈ steps rules) (ht : t ∈ steps rules) (hrule : s.rule = t.rule)
    (hplace : s.place = t.place) : s = t := by
  rw [mem_steps] at hs ht
  rw [hrule, hplace, ht, Option.some.injEq] at hs
  cases s
  cases t
  simp_all only

/-- The action of a step takes effect in some rule. -/
theorem exists_rule_of_mem_steps (hs : s ∈ steps rules) :
    ∃ rule ∈ rules, s.action ∈ effective rule.actions := by
  rw [mem_steps, actions] at hs
  split at hs
  · next rule hrule => exact ⟨rule, List.mem_of_getElem? hrule, List.mem_of_getElem? hs⟩
  · simp at hs

theorem isKnown_of_mem_steps (hs : s ∈ steps rules) : s.action.isKnown = true := by
  obtain ⟨rule, -, ha⟩ := exists_rule_of_mem_steps hs
  exact isKnown_of_mem_effective ha

/-- No step of a rule comes after a drop. -/
theorem actions_drop_last {i j : Nat} (h : (actions rules i)[j]? = some .drop) :
    (actions rules i)[j + 1]? = none := by
  unfold actions at h ⊢
  split at h
  · exact effective_drop_last h
  · rfl

theorem stepsBelow_succ (n : Nat) :
    stepsBelow rules (n + 1) = stepsBelow rules n ++ ruleSteps rules n := by
  simp only [stepsBelow, List.range_succ, List.flatMap_append, List.flatMap_singleton]

theorem range_isPrefix {m n : Nat} (h : m ≤ n) : List.range m <+: List.range n := by
  obtain ⟨k, rfl⟩ := Nat.exists_eq_add_of_le h
  rw [List.range_add]
  exact List.prefix_append _ _

theorem stepsBelow_isPrefix {n : Nat} (hn : n ≤ rules.length) :
    stepsBelow rules n <+: steps rules :=
  (range_isPrefix hn).flatMap _

end Steps

/-! ## Which steps share a block -/

section Stages

variable {rules : List Rule} {s t : Step}

theorem firstOutput?_mem {interface : String} {first : Step}
    (h : firstOutput? rules interface = some first) :
    first ∈ steps rules ∧ first.action = .output interface :=
  ⟨List.mem_of_find?_eq_some h, by simpa using List.find?_some h⟩

/-- An interface that a step writes to has a first output. -/
theorem exists_firstOutput? {interface : String} (hs : s ∈ steps rules)
    (ha : s.action = .output interface) : ∃ first, firstOutput? rules interface = some first := by
  rw [← Option.isSome_iff_exists, firstOutput?, List.find?_isSome]
  exact ⟨s, hs, by simpa using ha⟩

/-- The names of the kinds in which steps run. -/
def stageNames : List String := "Discard" :: actionKinds

theorem stageKind_name_mem (a : Action) : (stageKind a).name ∈ stageNames := by
  cases a with
  | alert m | log m | output i =>
    exact List.mem_cons_of_mem _ (by simp [stageKind, actionKinds, BlockKind.name])
  | drop | unknown k => exact List.mem_cons_self

/-- The id of the block of a step begins with the name of its kind. -/
theorem stem_stageId (rules : List Rule) (s : Step) :
    stem (stageId rules s) = (stageKind s.action).name.toList := by
  have hdiscard : stem discardId = "Discard".toList := by decide
  unfold stageId
  cases s.action with
  | alert m | log m | output i => exact stem_actionId (by decide) _ _
  | drop | unknown k => exact hdiscard

theorem mem_stages {b : Block} : b ∈ stages rules ↔ ∃ s ∈ steps rules, stage rules s = b := by
  rw [stages, List.mem_eraseDups, List.mem_map]

/-- The id of a stage tells the name of its kind. -/
theorem kind_name_of_mem_stages {b : Block} (hb : b ∈ stages rules) :
    b.kind.name = String.ofList (stem b.id) := by
  obtain ⟨s, -, rfl⟩ := mem_stages.mp hb
  rw [stage, stem_stageId, String.ofList_toList]

/-- The id of the block of a step is none of the ids outside the chains. -/
theorem stageId_ne {id : BlockId} (hid : id ∈ [classifierId, deviceId, dumpId]) :
    stageId rules s ≠ id := by
  have apart : ∀ name ∈ stageNames, ∀ id ∈ [classifierId, deviceId, dumpId],
      name.toList ≠ stem id := by
    decide
  intro h
  exact apart _ (stageKind_name_mem s.action) _ hid (by rw [← h, stem_stageId])

/-- Steps with blocks of their own do not share them. -/
theorem step_eq_of_actionId_eq {kind : String} (hk : kind ∈ actionKinds) (hs : s ∈ steps rules)
    (ht : t ∈ steps rules) (h : actionId kind s.rule s.place = actionId kind t.rule t.place) :
    s = t := by
  obtain ⟨-, hrule, hplace⟩ := actionId_inj hk hk h
  exact step_ext hs ht hrule hplace

theorem stageId_output {interface : String} {first : Step} (hs : s.action = .output interface)
    (hf : firstOutput? rules interface = some first) : stageId rules s = outputId first := by
  simp only [stageId, hs, hf, Option.getD_some]

/-- Outputs share a block just if they write to the same interface. -/
theorem output_eq_of_stageId_eq {i j : String} (hs : s ∈ steps rules) (ht : t ∈ steps rules)
    (hi : s.action = .output i) (hj : t.action = .output j)
    (h : stageId rules s = stageId rules t) : i = j := by
  obtain ⟨first, hfirst⟩ := exists_firstOutput? hs hi
  obtain ⟨first', hfirst'⟩ := exists_firstOutput? ht hj
  rw [stageId_output hi hfirst, stageId_output hj hfirst'] at h
  obtain ⟨hmem, haction⟩ := firstOutput?_mem hfirst
  obtain ⟨hmem', haction'⟩ := firstOutput?_mem hfirst'
  have hsame := step_eq_of_actionId_eq (by decide) hmem hmem' h
  rw [hsame, haction', Action.output.injEq] at haction
  exact haction.symm

/-- Steps share a block just if they are the same, or have the same action and it is shared. -/
theorem stageId_eq_iff (hs : s ∈ steps rules) (ht : t ∈ steps rules) :
    stageId rules s = stageId rules t ↔
      s = t ∨ (s.action = t.action ∧ s.action.isShared = true) := by
  constructor
  · intro h
    have hname : (stageKind s.action).name = (stageKind t.action).name := by
      rw [← String.toList_inj, ← stem_stageId rules s, ← stem_stageId rules t, h]
    have hks := isKnown_of_mem_steps hs
    have hkt := isKnown_of_mem_steps ht
    -- Blocks of one id are of one kind, so only equal kinds of actions are left.
    cases ha : s.action with
    | unknown k => simp [ha, Action.isKnown] at hks
    | alert m =>
      cases hb : t.action with
      | alert m' =>
        simp only [stageId, ha, hb] at h
        exact .inl (step_eq_of_actionId_eq (by decide) hs ht h)
      | _ => simp [ha, hb, stageKind, BlockKind.name] at hname
    | log m =>
      cases hb : t.action with
      | log m' =>
        simp only [stageId, ha, hb] at h
        exact .inl (step_eq_of_actionId_eq (by decide) hs ht h)
      | _ => simp [ha, hb, stageKind, BlockKind.name] at hname
    | output i =>
      cases hb : t.action with
      | output j => exact .inr ⟨by rw [output_eq_of_stageId_eq hs ht ha hb h], rfl⟩
      | _ => simp [ha, hb, stageKind, BlockKind.name] at hname
    | drop =>
      cases hb : t.action with
      | drop => exact .inr ⟨rfl, rfl⟩
      | unknown k => simp [hb, Action.isKnown] at hkt
      | _ => simp [ha, hb, stageKind, BlockKind.name] at hname
  · rintro (rfl | ⟨ha, hshared⟩)
    · rfl
    · unfold stageId
      rw [ha] at hshared ⊢
      cases hb : t.action with
      | output i =>
        obtain ⟨first, hfirst⟩ := exists_firstOutput? ht hb
        simp only [hfirst, Option.getD_some]
      | drop => rfl
      | alert m | log m | unknown k => simp [hb, Action.isShared] at hshared

theorem stage_eq_of_id_eq (hs : s ∈ steps rules) (ht : t ∈ steps rules)
    (h : stageId rules s = stageId rules t) : stage rules s = stage rules t := by
  rcases (stageId_eq_iff hs ht).mp h with rfl | ⟨ha, -⟩
  · rfl
  · simp only [stage, h, ha]

theorem outputInterface?_stage (i : String) :
    (stage rules s).outputInterface? = some i ↔ s.action = .output i := by
  cases h : s.action <;> simp [stage, stageKind, Block.outputInterface?, h]

/-- Outputs to one interface share a block. -/
theorem stageId_eq_of_output {i : String} (hs : s ∈ steps rules) (ht : t ∈ steps rules)
    (hsi : s.action = .output i) (hti : t.action = .output i) :
    stageId rules s = stageId rules t := by
  refine (stageId_eq_iff hs ht).mpr (.inr ⟨hsi.trans hti.symm, ?_⟩)
  rw [hsi]
  rfl

/-- The ids of the blocks in which some steps run. -/
theorem mem_ids_stages_iff {done : List Step} {id : BlockId} :
    id ∈ ((done.map (stage rules)).eraseDups).map Block.id ↔
      ∃ s ∈ done, stageId rules s = id := by
  simp only [List.mem_map, List.mem_eraseDups]
  constructor
  · rintro ⟨_, ⟨s, hs, rfl⟩, rfl⟩
    exact ⟨s, hs, rfl⟩
  · rintro ⟨s, hs, rfl⟩
    exact ⟨stage rules s, ⟨s, hs, rfl⟩, rfl⟩

end Stages

/-! ## The classifier -/

section Classifier

variable {source : Source} {rules : List Rule} {s : Step}

theorem getElem?_entriesFrom (k i : Nat) (rules : List Rule) :
    (entriesFrom k rules)[i]? = rules[i]?.map fun r => ⟨r.headerMatch, r.priority, k + i⟩ := by
  simp only [entriesFrom, List.getElem?_map, List.getElem?_zipIdx, Option.map_map]
  rfl

theorem length_entriesFrom (k : Nat) (rules : List Rule) :
    (entriesFrom k rules).length = rules.length := by
  rw [entriesFrom, List.length_map, List.length_zipIdx]

theorem entries?_of_mem_stages {b : Block} (hb : b ∈ stages rules) : b.entries? = none := by
  obtain ⟨s, -, rfl⟩ := mem_stages.mp hb
  simp only [stage, Block.entries?]
  cases s.action <;> rfl

theorem entries?_source (source : Source) : source.block.entries? = none := by
  cases source <;> rfl

theorem entries?_classifier (rules : List Rule) :
    (classifier rules).entries? = some (entriesFrom 0 rules) := rfl

/-- The entries in the blocks of a graph are those of its classifier. -/
theorem entries_graph (source : Source) (rules : List Rule) :
    ((graph source rules).blocks.flatMap fun b => b.entries?.getD []) = entriesFrom 0 rules := by
  have hstages : ((stages rules).flatMap fun b => b.entries?.getD []) = [] := by
    rw [List.flatMap_eq_nil_iff]
    intro b hb
    rw [entries?_of_mem_stages hb]
    rfl
  simp [graph, hstages, entries?_source, entries?_classifier]

/-- The classifier is the only block with entries. -/
theorem classifier?_graph : (graph source rules).classifier? = some (classifier rules) := by
  have hstages : (stages rules).find? (·.entries?.isSome) = none := by
    rw [List.find?_eq_none]
    intro b hb
    simp [entries?_of_mem_stages hb]
  simp [Graph.classifier?, graph, List.find?_append, hstages, entries?_source, entries?_classifier]

end Classifier

/-! ## Which connectors there are -/

/-- Step `t` comes right after step `s` in their rule. -/
structure Next (rules : List Rule) (s t : Step) : Prop where
  fst_mem : s ∈ steps rules
  snd_mem : t ∈ steps rules
  rule_eq : t.rule = s.rule
  place_eq : t.place = s.place + 1

section Connectors

variable {source : Source} {rules : List Rule} {s t : Step} {c : Connector}

theorem Next.getElem?_actions (h : Next rules s t) :
    (actions rules s.rule)[s.place + 1]? = some t.action := by
  rw [← h.rule_eq, ← h.place_eq]
  exact mem_steps.mp h.snd_mem

/-- Of the blocks that steps share, only those of outputs lead on. -/
theorem Next.exists_output (h : Next rules s t) (hshared : s.action.isShared = true) :
    ∃ i, s.action = .output i := by
  cases ha : s.action with
  | output i => exact ⟨i, rfl⟩
  | drop =>
    have hlast := actions_drop_last (ha ▸ mem_steps.mp h.fst_mem)
    rw [h.getElem?_actions] at hlast
    cases hlast
  | alert m | log m | unknown k => simp [ha, Action.isShared] at hshared

theorem map_dest_link (id : BlockId) (port : Nat) (ids : List BlockId) :
    (link id port ids).map (·.dest) = ids := by
  induction ids generalizing id port with
  | nil => rfl
  | cons b rest ih =>
    rw [link, List.map_cons, ih]
    rfl

theorem mem_link {id : BlockId} {port : Nat} {ids : List BlockId} :
    c ∈ link id port ids ↔
      (∃ b, ids[0]? = some b ∧ c = .join id port b) ∨
        ∃ (j : Nat) (a b : BlockId), (ids[j]? = some a ∧ ids[j + 1]? = some b) ∧ c = .join a 0 b := by
  induction ids generalizing id port with
  | nil => simp [link]
  | cons b rest ih =>
    simp only [link, List.mem_cons]
    rw [ih]
    constructor
    · rintro (rfl | ⟨b', hb', rfl⟩ | ⟨j, a, b', hab, rfl⟩)
      · exact .inl ⟨b, rfl, rfl⟩
      · exact .inr ⟨0, b, b', ⟨rfl, hb'⟩, rfl⟩
      · exact .inr ⟨j + 1, a, b', hab, rfl⟩
    · rintro (⟨b', hb', rfl⟩ | ⟨j, a, b', ⟨ha, hb'⟩, rfl⟩)
      · cases hb'
        exact .inl rfl
      · cases j with
        | zero =>
          cases ha
          exact .inr (.inl ⟨b', hb', rfl⟩)
        | succ j => exact .inr (.inr ⟨j, a, b', ⟨ha, hb'⟩, rfl⟩)

theorem getElem?_chain (i j : Nat) {id : BlockId} :
    (chain rules i)[j]? = some id ↔
      ∃ s ∈ steps rules, (s.rule = i ∧ s.place = j) ∧ stageId rules s = id := by
  rw [chain, List.getElem?_map, getElem?_ruleSteps, Option.map_eq_some_iff]
  constructor
  · rintro ⟨s, hs, rfl⟩
    obtain ⟨a, ha, rfl⟩ := Option.map_eq_some_iff.mp hs
    exact ⟨⟨i, j, a⟩, mem_steps.mpr ha, ⟨rfl, rfl⟩, rfl⟩
  · rintro ⟨s, hs, ⟨rfl, rfl⟩, rfl⟩
    exact ⟨s, by rw [mem_steps.mp hs]; rfl, rfl⟩

theorem source_id_mem (source : Source) : source.block.id ∈ [classifierId, deviceId, dumpId] := by
  cases source <;> simp [Source.block]

theorem source_id_ne_classifierId (source : Source) : source.block.id ≠ classifierId := by
  cases source <;> simp only [Source.block] <;> decide

/-- The connectors lead from the source to the classifier, from there to the first step of each rule,
and from each step to the next. -/
theorem mem_connectors_iff :
    c ∈ (graph source rules).connectors ↔
      c = .join source.block.id 0 classifierId ∨
      (∃ s ∈ steps rules, s.place = 0 ∧ c = .join classifierId s.rule (stageId rules s)) ∨
      ∃ s t, Next rules s t ∧ c = .join (stageId rules s) 0 (stageId rules t) := by
  simp only [graph, chainsBelow, List.mem_append, List.mem_flatMap, List.mem_range, mem_link,
    getElem?_chain, List.mem_singleton]
  constructor
  · rintro (⟨i, -, h⟩ | rfl)
    · rcases h with ⟨b, ⟨s, hs, ⟨rfl, hplace⟩, rfl⟩, rfl⟩ | ⟨j, a, b, ⟨hs, ht⟩, rfl⟩
      · exact .inr (.inl ⟨s, hs, hplace, rfl⟩)
      · obtain ⟨s, hs, ⟨rfl, rfl⟩, rfl⟩ := hs
        obtain ⟨t, ht, ⟨hrule, hplace⟩, rfl⟩ := ht
        exact .inr (.inr ⟨s, t, ⟨hs, ht, hrule, hplace⟩, rfl⟩)
    · exact .inl rfl
  · rintro (rfl | ⟨s, hs, hplace, rfl⟩ | ⟨s, t, h, rfl⟩)
    · exact .inr rfl
    · exact .inl ⟨s.rule, rule_lt_of_mem_steps hs, .inl ⟨_, ⟨s, hs, ⟨rfl, hplace⟩, rfl⟩, rfl⟩⟩
    · exact .inl ⟨s.rule, rule_lt_of_mem_steps h.fst_mem, .inr ⟨s.place, _, _,
        ⟨⟨s, h.fst_mem, ⟨rfl, rfl⟩, rfl⟩, ⟨t, h.snd_mem, ⟨h.rule_eq, h.place_eq⟩, rfl⟩⟩, rfl⟩⟩

/-- What leaves the block of a step leads from some step that shares the block to the next. -/
theorem exists_next_of_source_eq (hc : c ∈ (graph source rules).connectors)
    (h : c.source = stageId rules s) :
    ∃ u t, Next rules u t ∧ stageId rules u = stageId rules s ∧
      c = .join (stageId rules u) 0 (stageId rules t) := by
  rcases mem_connectors_iff.mp hc with rfl | ⟨u, -, -, rfl⟩ | ⟨u, t, hnext, rfl⟩
  · exact absurd h.symm (stageId_ne (source_id_mem source))
  · exact absurd h.symm (stageId_ne List.mem_cons_self)
  · exact ⟨u, t, hnext, h, rfl⟩

end Connectors

end Plan

end PolicyGraph
