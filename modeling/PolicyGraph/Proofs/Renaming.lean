import Mathlib.Data.List.Forall2
import Mathlib.Data.Set.Function
import PolicyGraph.Proofs.Accounting
import PolicyGraph.Proofs.Compilation

/-!
# Renaming interfaces

How a policy is wired depends on the variants of its actions and on which of its outputs go to one
interface, and on nothing else: policies of one shape are wired alike when the interfaces of one are
those of the other under a renaming that keeps them apart (`same_shape_same_wiring`). The relation
between two policies is carried from their actions to their steps and from there to the ids of stages.
The ids then settle the rest, as the id of a stage tells the kind of its block.
-/

namespace PolicyGraph

open Plan

/-! ## Policies of one shape -/

/-- Actions of one variant, of which outputs correspond by a renaming of interfaces. -/
inductive Action.SameShape (rename : String → String) : Action → Action → Prop
  | alert (message message' : String) : SameShape rename (.alert message) (.alert message')
  | output (interface : String) : SameShape rename (.output interface) (.output (rename interface))
  | drop : SameShape rename .drop .drop
  | log (message message' : String) : SameShape rename (.log message) (.log message')
  | unknown (kind kind' : String) : SameShape rename (.unknown kind) (.unknown kind')

/-- Policies with the same number of rules, and in each rule with actions of one shape. -/
def SameShape (rename : String → String) (a b : List Rule) : Prop :=
  List.Forall₂ (fun r r' => List.Forall₂ (Action.SameShape rename) r.actions r'.actions) a b

/-- The interfaces that a policy writes to. -/
def outputInterfaces (rules : List Rule) : Set String := {i | ∃ r ∈ rules, .output i ∈ r.actions}

/-- Sources of the same kind. -/
inductive Source.SameKind : Source → Source → Prop
  | device (interface interface' : String) : SameKind (.device interface) (.device interface')
  | dump (path path' : String) : SameKind (.dump path) (.dump path')

namespace RenamingLemmas

/-! ## Lists in a relation -/

section Lists

variable {α β γ : Type} {R : α → β → Prop} {as : List α} {bs : List β}

theorem map_eq_of_forall₂ {f : α → γ} {g : β → γ} (h : List.Forall₂ R as bs)
    (hfg : ∀ a ∈ as, ∀ b, R a b → f a = g b) : as.map f = bs.map g := by
  induction h with
  | nil => rfl
  | cons hab _ ih =>
    rw [List.map_cons, List.map_cons, hfg _ List.mem_cons_self _ hab,
      ih fun a ha => hfg a (List.mem_cons_of_mem _ ha)]

/-- Where one search finds an element, the other finds a corresponding one. -/
theorem exists_find?_of_forall₂ {p : α → Bool} {q : β → Bool} (h : List.Forall₂ R as bs)
    (hpq : ∀ a ∈ as, ∀ b, R a b → p a = q b) {found : α} (hfound : as.find? p = some found) :
    ∃ found', bs.find? q = some found' ∧ R found found' := by
  induction h with
  | nil => cases hfound
  | @cons a b _ _ hab _ ih =>
    have hhead := hpq a List.mem_cons_self b hab
    rw [List.find?_cons] at hfound ⊢
    rw [← hhead]
    cases hp : p a with
    | true =>
      rw [hp] at hfound
      cases hfound
      exact ⟨b, rfl, hab⟩
    | false =>
      rw [hp] at hfound
      exact ih (fun a ha => hpq a (List.mem_cons_of_mem _ ha)) hfound

end Lists

variable {rename : String → String} {a b : List Rule} {s t : Step}

/-! ## Steps -/

/-- Steps at the same place of two policies, with actions of one shape. -/
structure StepShape (rename : String → String) (s t : Step) : Prop where
  rule_eq : s.rule = t.rule
  place_eq : s.place = t.place
  action : Action.SameShape rename s.action t.action

theorem effective_sameShape {as bs : List Action} (h : List.Forall₂ (Action.SameShape rename) as bs) :
    List.Forall₂ (Action.SameShape rename) (effective as) (effective bs) := by
  -- Unknown actions are left out on both sides, and a drop ends both.
  induction h with
  | nil => exact .nil
  | cons hab _ ih =>
    cases hab with
    | alert m m' => exact .cons (.alert m m') ih
    | output i => exact .cons (.output i) ih
    | drop => exact .cons .drop .nil
    | log m m' => exact .cons (.log m m') ih
    | unknown k k' => exact ih

theorem actions_sameShape (h : SameShape rename a b) (i : Nat) :
    List.Forall₂ (Action.SameShape rename) (Plan.actions a i) (Plan.actions b i) :=
  actions_of_forall₂ .nil (h.imp fun _ _ => effective_sameShape) i

theorem stepsFrom_sameShape {as bs : List Action} (h : List.Forall₂ (Action.SameShape rename) as bs)
    (rule place : Nat) :
    List.Forall₂ (StepShape rename) (stepsFrom rule place as) (stepsFrom rule place bs) := by
  induction h generalizing place with
  | nil => exact .nil
  | cons hab _ ih => exact .cons ⟨rfl, rfl, hab⟩ (ih (place + 1))

theorem ruleSteps_sameShape (h : SameShape rename a b) (i : Nat) :
    List.Forall₂ (StepShape rename) (ruleSteps a i) (ruleSteps b i) :=
  stepsFrom_sameShape (actions_sameShape h i) i 0

theorem steps_sameShape (h : SameShape rename a b) :
    List.Forall₂ (StepShape rename) (steps a) (steps b) := by
  rw [steps, steps, ← h.length_eq]
  have hrange : List.Forall₂ Eq (List.range a.length) (List.range a.length) := List.forall₂_refl _
  refine List.rel_flatMap hrange ?_
  rintro i _ rfl
  exact ruleSteps_sameShape h i

/-! ## Outputs -/

theorem mem_outputInterfaces {rules : List Rule} {i : String} (hs : s ∈ steps rules)
    (ha : s.action = .output i) : i ∈ outputInterfaces rules := by
  obtain ⟨rule, hrule, haction⟩ := exists_rule_of_mem_steps hs
  exact ⟨rule, hrule, ha ▸ mem_of_mem_effective haction⟩

theorem output_iff_of_stepShape (hinj : Set.InjOn rename (outputInterfaces a)) {i : String}
    (hi : i ∈ outputInterfaces a) (hs : s ∈ steps a) (hst : StepShape rename s t) :
    s.action = .output i ↔ t.action = .output (rename i) := by
  have haction := hst.action
  generalize hx : s.action = x, hy : t.action = y at haction
  cases haction with
  | output j =>
    rw [Action.output.injEq, Action.output.injEq]
    exact (hinj.eq_iff (mem_outputInterfaces hs hx) hi).symm
  | _ => simp

/-- First outputs to corresponding interfaces correspond. -/
theorem exists_firstOutput?_sameShape (h : SameShape rename a b)
    (hinj : Set.InjOn rename (outputInterfaces a)) {i : String} (hi : i ∈ outputInterfaces a)
    {first : Step} (hfirst : firstOutput? a i = some first) :
    ∃ first', firstOutput? b (rename i) = some first' ∧ StepShape rename first first' := by
  refine exists_find?_of_forall₂ (steps_sameShape h) (fun s hs t hst => ?_) hfirst
  rw [decide_eq_decide]
  exact output_iff_of_stepShape hinj hi hs hst

/-! ## Stages and chains -/

/-- Corresponding steps run in blocks of the same id. -/
theorem stageId_sameShape (h : SameShape rename a b) (hinj : Set.InjOn rename (outputInterfaces a))
    (hs : s ∈ steps a) (hst : StepShape rename s t) : stageId a s = stageId b t := by
  obtain ⟨hrule, hplace, haction⟩ := hst
  generalize hx : s.action = x, hy : t.action = y at haction
  -- Only the id for an output looks at other steps, at the first one that writes to the interface.
  cases haction with
  | alert m m' | log m m' | drop | unknown k k' => simp only [stageId, hx, hy, hrule, hplace]
  | output i =>
    obtain ⟨first, hfirst⟩ := exists_firstOutput? hs hx
    obtain ⟨first', hfirst', hshape⟩ :=
      exists_firstOutput?_sameShape h hinj (mem_outputInterfaces hs hx) hfirst
    rw [stageId_output hx hfirst, stageId_output hy hfirst', outputId, outputId, hshape.rule_eq,
      hshape.place_eq]

theorem chain_sameShape (h : SameShape rename a b) (hinj : Set.InjOn rename (outputInterfaces a))
    (i : Nat) : Plan.chain a i = Plan.chain b i :=
  map_eq_of_forall₂ (ruleSteps_sameShape h i) fun _ hs _ =>
    stageId_sameShape h hinj (mem_steps_of_mem_ruleSteps hs)

theorem ids_stages_sameShape (h : SameShape rename a b)
    (hinj : Set.InjOn rename (outputInterfaces a)) :
    (stages a).map Block.id = (stages b).map Block.id := by
  rw [ids_stages, ids_stages]
  congr 1
  exact map_eq_of_forall₂ (steps_sameShape h) fun _ hs _ => stageId_sameShape h hinj hs

/-! ## Graphs -/

theorem tags_graph (source : Source) (rules : List Rule) :
    ((graph source rules).blocks.map fun b => (b.id, b.kind.name)) =
      (source.block.id, source.block.kind.name) ::
        (((stages rules).map Block.id).map (fun id => (id, String.ofList (stem id))) ++
          [(classifierId, "HeaderClassifier")]) := by
  have hstages : ((stages rules).map fun b => (b.id, b.kind.name)) =
      ((stages rules).map Block.id).map fun id => (id, String.ofList (stem id)) := by
    rw [List.map_map]
    refine List.map_congr_left fun b hb => ?_
    rw [kind_name_of_mem_stages hb]
    rfl
  rw [graph, List.map_cons, List.map_append, hstages]
  rfl

/-- Statistics look at the kinds of blocks, at the number of entries and at connectors. -/
theorem statistics_congr {g g' : Graph}
    (hnames : g.blocks.map (·.kind.name) = g'.blocks.map (·.kind.name))
    (hentries : (g.blocks.flatMap fun b => b.entries?.getD []).length =
      (g'.blocks.flatMap fun b => b.entries?.getD []).length)
    (hconnectors : g.connectors = g'.connectors) : g.statistics = g'.statistics := by
  have hcount : ∀ name, (g.blocksOfKind name).length = (g'.blocksOfKind name).length := by
    intro name
    rw [Graph.length_blocksOfKind, Graph.length_blocksOfKind, hnames]
  have htotal : g.blocks.length = g'.blocks.length := by simpa using congrArg List.length hnames
  simp only [Graph.statistics, hcount, htotal, hentries, hconnectors]

end RenamingLemmas

open RenamingLemmas

/-- Policies of one shape, whose interfaces correspond by a renaming that keeps them apart, are compiled
from sources of one kind into graphs with the same root, the same ids and kinds of blocks in the same
order, the same connectors and the same statistics. Matches, priorities, messages, the names of unknown
actions, of devices and of dumps do not count. -/
theorem same_shape_same_wiring {source source' : Source} {rename : String → String} {a b : List Rule}
    (hsource : source.SameKind source') (hshape : SameShape rename a b)
    (hinj : Set.InjOn rename (outputInterfaces a)) (hne : a ≠ []) (hfew : a.length ≤ portCount) :
    ∃ g g', ((compileGraph source a).value = .ok g ∧ (compileGraph source' b).value = .ok g') ∧
      g.root = g'.root ∧
      (g.blocks.map fun b => (b.id, b.kind.name)) = (g'.blocks.map fun b => (b.id, b.kind.name)) ∧
      g.connectors = g'.connectors ∧
      g.statistics = g'.statistics := by
  have hlen : a.length = b.length := hshape.length_eq
  have hne' : b ≠ [] := by
    rw [← List.length_pos_iff, ← hlen]
    exact List.length_pos_iff.mpr hne
  have hroot : source.block.id = source'.block.id := by cases hsource <;> rfl
  have hrootName : source.block.kind.name = source'.block.kind.name := by cases hsource <;> rfl
  have htags : ((graph source a).blocks.map fun b => (b.id, b.kind.name)) =
      (graph source' b).blocks.map fun b => (b.id, b.kind.name) := by
    rw [tags_graph, tags_graph, hroot, hrootName, ids_stages_sameShape hshape hinj]
  have hconnectors : (graph source a).connectors = (graph source' b).connectors := by
    have hchains : Plan.chain a = Plan.chain b := funext (chain_sameShape hshape hinj)
    simp only [graph, chainsBelow, hchains, hlen, hroot]
  refine ⟨graph source a, graph source' b,
    ⟨compileGraph_value hne hfew, compileGraph_value hne' (hlen ▸ hfew)⟩, hroot, htags, hconnectors,
    statistics_congr ?_ ?_ hconnectors⟩
  · have hnames := congrArg (List.map Prod.snd) htags
    rw [List.map_map, List.map_map] at hnames
    exact hnames
  · rw [entries_graph, entries_graph, length_entriesFrom, length_entriesFrom, hlen]

/-- The sample policy with other interfaces, and with other settings in every rule. -/
def renamedPolicy : List Rule :=
  [{ priority := .high, actions := [.log "found", .unknown "copy", .output ("port-" ++ "eth1")] },
    { actions := [.output ("port-" ++ "eth2"), .output ("port-" ++ "eth1"), .alert "soon"] },
    { headerMatch := HeaderMatch.any.require .tcpDst "22" },
    { actions := [.drop, .log "lost"] }]

theorem renamedPolicy_same_wiring :
    (Source.SameKind (.device "eth0") (.device "tap") ∧
      SameShape ("port-" ++ ·) samplePolicy renamedPolicy ∧
      Set.InjOn ("port-" ++ ·) (outputInterfaces samplePolicy) ∧
      samplePolicy ≠ [] ∧ samplePolicy.length ≤ portCount) ∧
    ∃ g g', ((compileGraph (.device "eth0") samplePolicy).value = .ok g ∧
        (compileGraph (.device "tap") renamedPolicy).value = .ok g') ∧
      g.connectors = g'.connectors ∧ g.statistics = g'.statistics ∧ g ≠ g' := by
  have hsource : Source.SameKind (.device "eth0") (.device "tap") := .device _ _
  have hshape : SameShape ("port-" ++ ·) samplePolicy renamedPolicy :=
    .cons (.cons (.log _ _) (.cons (.unknown _ _) (.cons (.output "eth1") .nil)))
      (.cons (.cons (.output "eth2") (.cons (.output "eth1") (.cons (.alert _ _) .nil)))
        (.cons .nil (.cons (.cons .drop (.cons (.log _ _) .nil)) .nil)))
  have hinj : Set.InjOn ("port-" ++ ·) (outputInterfaces samplePolicy) :=
    fun _ _ _ _ h => (String.append_right_inj _).mp h
  have hne : samplePolicy ≠ [] := by decide
  have hfew : samplePolicy.length ≤ portCount := by decide
  obtain ⟨g, g', ⟨hg, hg'⟩, -, -, hconnectors, hstatistics⟩ :=
    same_shape_same_wiring hsource hshape hinj hne hfew
  refine ⟨⟨hsource, hshape, hinj, hne, hfew⟩, g, g', ⟨hg, hg'⟩, hconnectors, hstatistics, ?_⟩
  obtain rfl := eq_graph_of_compiled hg
  obtain rfl := eq_graph_of_compiled hg'
  decide

end PolicyGraph
