import Mathlib.Data.List.Forall2
import Mathlib.Logic.Relation
import PolicyGraph.Proofs.Compilation

/-!
# What a graph tells of its policy

A compiled graph holds the source of its packets and, rule by rule, what is matched, the priority and
the actions that take effect, and it holds nothing else (`compiled_eq_iff`). To read a policy off its
graph, the connectors are cut into chains in front of those that leave the classifier, and the actions
of a chain are looked up in the blocks of its ids. This works although chains share blocks.
-/

namespace PolicyGraph

open Plan Relation

/-! ## Rules of the same effect -/

/-- Two rules that match the same packets, rank alike and do the same to what they match. -/
structure SameEffect (r r' : Rule) : Prop where
  headerMatch_eq : r.headerMatch = r'.headerMatch
  priority_eq : r.priority = r'.priority
  effective_eq : effective r.actions = effective r'.actions

/-- One change to a list of actions that has no effect: an unknown action is taken out, or what comes
after a drop is replaced. -/
inductive InertChange : List Action → List Action → Prop
  | unknown (before after : List Action) (kind : String) :
      InertChange (before ++ .unknown kind :: after) (before ++ after)
  | afterDrop (before rest rest' : List Action) :
      InertChange (before ++ .drop :: rest) (before ++ .drop :: rest')

namespace FaithfulLemmas

/-! ## Inert changes -/

section Inert

variable {as bs : List Action}

theorem effective_append_congr (before : List Action) (h : effective as = effective bs) :
    effective (before ++ as) = effective (before ++ bs) := by
  induction before with
  | nil => exact h
  | cons a rest ih => cases a <;> simp [ih]

theorem effective_eq_of_inertChange (h : InertChange as bs) : effective as = effective bs := by
  cases h with
  | unknown before after kind => exact effective_append_congr before (effective_unknown kind after)
  | afterDrop before rest rest' => exact effective_append_congr before rfl

theorem inertChange_cons (a : Action) (h : InertChange as bs) : InertChange (a :: as) (a :: bs) := by
  cases h with
  | unknown before after kind => exact .unknown (a :: before) after kind
  | afterDrop before rest rest' => exact .afterDrop (a :: before) rest rest'

theorem eqvGen_cons (a : Action) (h : EqvGen InertChange as bs) :
    EqvGen InertChange (a :: as) (a :: bs) := by
  induction h with
  | rel as bs h => exact .rel _ _ (inertChange_cons a h)
  | refl as => exact .refl _
  | symm as bs _ ih => exact .symm _ _ ih
  | trans as bs cs _ _ ih ih' => exact .trans _ _ _ ih ih'

/-- Inert changes lead from any actions to those of them that take effect. -/
theorem eqvGen_effective (as : List Action) : EqvGen InertChange as (effective as) := by
  induction as with
  | nil => exact .refl _
  | cons a rest ih =>
    cases a with
    | alert m | log m | output i => exact eqvGen_cons _ ih
    | drop => exact .rel _ _ (.afterDrop [] rest [])
    | unknown k => exact .trans _ _ _ (.rel _ _ (.unknown [] rest k)) ih

/-- Actions have the same effect just if inert changes lead from one to the other. -/
theorem effective_eq_iff : effective as = effective bs ↔ EqvGen InertChange as bs := by
  constructor
  · intro h
    have hbs := (eqvGen_effective bs).symm
    rw [← h] at hbs
    exact (eqvGen_effective as).trans _ _ _ hbs
  · intro h
    induction h with
    | rel as bs h => exact effective_eq_of_inertChange h
    | refl as => rfl
    | symm as bs _ ih => exact ih.symm
    | trans as bs cs _ _ ih ih' => exact ih.trans ih'

end Inert

/-! ## Graphs of policies of the same effect -/

variable {source source' : Source} {a b rules : List Rule} {s t : Step} {i n : Nat}

theorem actions_congr (h : List.Forall₂ SameEffect a b) (i : Nat) :
    Plan.actions a i = Plan.actions b i :=
  actions_of_forall₂ rfl (h.imp fun _ _ hrule => hrule.effective_eq) i

theorem entriesFrom_congr (h : List.Forall₂ SameEffect a b) (k : Nat) :
    entriesFrom k a = entriesFrom k b := by
  induction h generalizing k with
  | nil => rfl
  | cons hrule _ ih =>
    have hrest := ih (k + 1)
    simp only [entriesFrom] at hrest
    simp only [entriesFrom, List.zipIdx_cons, List.map_cons, hrule.headerMatch_eq,
      hrule.priority_eq, hrest]

/-- The plan of a policy looks at its rules through their actions that take effect. -/
theorem graph_congr (source : Source) (h : List.Forall₂ SameEffect a b) :
    graph source a = graph source b := by
  have hactions : Plan.actions a = Plan.actions b := funext (actions_congr h)
  have hruleSteps : ruleSteps a = ruleSteps b := by
    funext i
    rw [ruleSteps, ruleSteps, hactions]
  have hsteps : steps a = steps b := by
    rw [steps, steps, stepsBelow, stepsBelow, hruleSteps, h.length_eq]
  have hstageId : stageId a = stageId b := by
    funext s
    simp only [stageId, firstOutput?, hsteps]
  have hstages : stages a = stages b := by
    have hstage : stage a = stage b := by
      funext s
      rw [stage, stage, hstageId]
    rw [stages, stages, hsteps, hstage]
  have hchain : Plan.chain a = Plan.chain b := by
    funext i
    rw [Plan.chain, Plan.chain, hruleSteps, hstageId]
  simp only [graph, classifier, chainsBelow, hstages, hchain, entriesFrom_congr h 0, h.length_eq]

/-! ## Cutting connectors into chains -/

/-- Lists that are put together in front of marked elements come apart there. -/
theorem append_inj_of_marked {α : Type} {p : α → Prop} {xs ys us vs : List α}
    (hxs : ∀ x ∈ xs, ¬ p x) (hys : ∀ y ∈ ys, ¬ p y) (hus : ∀ u ∈ us.head?, p u)
    (hvs : ∀ v ∈ vs.head?, p v) (h : xs ++ us = ys ++ vs) : xs = ys ∧ us = vs := by
  induction xs generalizing ys with
  | nil =>
    cases ys with
    | nil => exact ⟨rfl, h⟩
    | cons y ys =>
      rw [List.nil_append] at h
      exact absurd (hus y (by rw [h]; rfl)) (hys y List.mem_cons_self)
  | cons x xs ih =>
    cases ys with
    | nil =>
      rw [List.nil_append] at h
      exact absurd (hvs x (by rw [← h]; rfl)) (hxs x List.mem_cons_self)
    | cons y ys =>
      rw [List.cons_append, List.cons_append, List.cons.injEq] at h
      obtain ⟨rfl, hrest⟩ := h
      obtain ⟨rfl, hus⟩ := ih (fun x hx => hxs x (List.mem_cons_of_mem _ hx))
        (fun y hy => hys y (List.mem_cons_of_mem _ hy)) hrest
      exact ⟨rfl, hus⟩

/-- No connector of an earlier chain leaves the classifier by port `n`. -/
theorem not_at_port_of_mem_chainsBelow {c : Connector} (hc : c ∈ chainsBelow rules n) :
    ¬ (c.source = classifierId ∧ c.sourcePort = n) := by
  obtain ⟨i, hi, hlink⟩ := List.mem_flatMap.mp hc
  rcases mem_link.mp hlink with ⟨b, -, rfl⟩ | ⟨j, a, b, ⟨ha, -⟩, rfl⟩
  · rintro ⟨-, hport⟩
    exact absurd hport (Nat.ne_of_lt (List.mem_range.mp hi))
  · rintro ⟨hsource, -⟩
    obtain ⟨s, -, -, rfl⟩ := (getElem?_chain i j).mp ha
    exact stageId_ne List.mem_cons_self hsource

theorem head?_link {c : Connector} {id : BlockId} {port : Nat} {ids : List BlockId}
    (hc : c ∈ (link id port ids).head?) : c.source = id ∧ c.sourcePort = port := by
  cases ids with
  | nil => cases hc
  | cons b rest =>
    cases hc
    exact ⟨rfl, rfl⟩

/-- The chains can be read off their connectors. -/
theorem chain_eq_of_chainsBelow_eq (h : chainsBelow a n = chainsBelow b n) (hi : i < n) :
    Plan.chain a i = Plan.chain b i := by
  induction n with
  | zero => exact absurd hi (Nat.not_lt_zero i)
  | succ n ih =>
    rw [chainsBelow_succ, chainsBelow_succ] at h
    obtain ⟨hbelow, hlink⟩ := append_inj_of_marked (fun _ => not_at_port_of_mem_chainsBelow)
      (fun _ => not_at_port_of_mem_chainsBelow) (fun _ => head?_link) (fun _ => head?_link) h
    rcases Nat.lt_succ_iff_lt_or_eq.mp hi with hlt | rfl
    · exact ih hbelow hlt
    · rw [← map_dest_link classifierId i (Plan.chain a i), hlink, map_dest_link]

/-! ## Looking up actions -/

theorem stageKind_inj {x y : Action} (hx : x.isKnown = true) (hy : y.isKnown = true)
    (h : stageKind x = stageKind y) : x = y := by
  cases x <;> cases y <;> simp_all [stageKind, Action.isKnown]

/-- Steps of two policies that run in blocks of one id have the same action, if the policies have the
same blocks. -/
theorem action_eq_of_stageId_eq (hstages : stages a = stages b) (hs : s ∈ steps a) (ht : t ∈ steps b)
    (h : stageId a s = stageId b t) : s.action = t.action := by
  have hmem : stage a s ∈ stages b := by
    rw [← hstages]
    exact mem_stages.mpr ⟨s, hs, rfl⟩
  obtain ⟨u, hu, hstage⟩ := mem_stages.mp hmem
  have hid : stageId b u = stageId b t := (congrArg Block.id hstage).trans h
  have hsame : stage a s = stage b t := hstage.symm.trans (stage_eq_of_id_eq hu ht hid)
  exact stageKind_inj (isKnown_of_mem_steps hs) (isKnown_of_mem_steps ht) (congrArg Block.kind hsame)

theorem actions_eq_of_chain_eq (hstages : stages a = stages b)
    (hchain : Plan.chain a i = Plan.chain b i) : Plan.actions a i = Plan.actions b i := by
  refine List.ext_getElem? fun j => ?_
  have hj : (Plan.chain a i)[j]? = (Plan.chain b i)[j]? := by rw [hchain]
  simp only [Plan.chain, List.getElem?_map, getElem?_ruleSteps, Option.map_map] at hj
  cases hx : (Plan.actions a i)[j]? with
  | none =>
    rw [hx, Option.map_none, eq_comm, Option.map_eq_none_iff] at hj
    exact hj.symm
  | some x =>
    rw [hx, Option.map_some, eq_comm, Option.map_eq_some_iff] at hj
    obtain ⟨y, hy, hid⟩ := hj
    have hs : (⟨i, j, x⟩ : Step) ∈ steps a := mem_steps.mpr hx
    have ht : (⟨i, j, y⟩ : Step) ∈ steps b := mem_steps.mpr hy
    have hxy : x = y := action_eq_of_stageId_eq hstages hs ht hid.symm
    rw [hy, hxy]

/-! ## Reading a policy off its graph -/

theorem source_eq_of_block_eq (h : source.block = source'.block) : source = source' := by
  cases source <;> cases source' <;> simp_all [Source.block]

/-- Policies of one graph have the same source, and rules of the same effect. -/
theorem sameEffect_of_graph_eq (h : graph source a = graph source' b) :
    source = source' ∧ List.Forall₂ SameEffect a b := by
  have hblocks := congrArg Graph.blocks h
  have hconnectors := congrArg Graph.connectors h
  simp only [graph, List.cons.injEq] at hblocks hconnectors
  obtain ⟨hsource, hrest⟩ := hblocks
  obtain ⟨hstages, hclassifier⟩ := List.append_inj' hrest rfl
  have hchains := (List.append_inj' hconnectors rfl).1
  have hentries : entriesFrom 0 a = entriesFrom 0 b := by simpa [classifier] using hclassifier
  have hlen : a.length = b.length := by
    rw [← length_entriesFrom 0 a, hentries, length_entriesFrom]
  rw [← hlen] at hchains
  refine ⟨source_eq_of_block_eq hsource, List.forall₂_iff_get.mpr ⟨hlen, fun i ha hb => ?_⟩⟩
  have hentry := congrArg (·[i]?) hentries
  simp only [getElem?_entriesFrom, List.getElem?_eq_getElem ha, List.getElem?_eq_getElem hb,
    Option.map_some, Option.some.injEq, ClassifierEntry.mk.injEq] at hentry
  have hactions := actions_eq_of_chain_eq hstages (chain_eq_of_chainsBelow_eq hchains ha)
  simp only [Plan.actions, List.getElem?_eq_getElem ha, List.getElem?_eq_getElem hb] at hactions
  exact ⟨hentry.1, hentry.2.1, hactions⟩

theorem graph_eq_iff :
    graph source a = graph source' b ↔ source = source' ∧ List.Forall₂ SameEffect a b := by
  constructor
  · exact sameEffect_of_graph_eq
  · rintro ⟨rfl, h⟩
    exact graph_congr source h

end FaithfulLemmas

open FaithfulLemmas

/-! ## Which policies have one graph -/

/-- Two policies are compiled into the same graph just if their packets come from the same source and
they agree, rule by rule, in the match, the priority and the actions that take effect; that is, just if
inert changes to the actions of rules lead from one to the other. -/
theorem compiled_eq_iff (source source' : Source) {a b : List Rule} (ha : a ≠ []) (hb : b ≠ [])
    (hfew : a.length ≤ portCount) (hfew' : b.length ≤ portCount) :
    ∃ g g', ((compileGraph source a).value = .ok g ∧ (compileGraph source' b).value = .ok g') ∧
      (g = g' ↔ source = source' ∧ List.Forall₂ SameEffect a b) ∧
      (g = g' ↔ source = source' ∧ List.Forall₂ (fun r r' => r.headerMatch = r'.headerMatch ∧
        r.priority = r'.priority ∧ EqvGen InertChange r.actions r'.actions) a b) := by
  refine ⟨graph source a, graph source' b,
    ⟨compileGraph_value ha hfew, compileGraph_value hb hfew'⟩, graph_eq_iff, ?_⟩
  have hrules : ∀ r r', SameEffect r r' ↔ r.headerMatch = r'.headerMatch ∧
      r.priority = r'.priority ∧ EqvGen InertChange r.actions r'.actions := by
    intro r r'
    rw [← effective_eq_iff]
    exact ⟨fun h => ⟨h.1, h.2, h.3⟩, fun h => ⟨h.1, h.2.1, h.2.2⟩⟩
  simp only [← hrules]
  exact graph_eq_iff

/-- The sample policy without its unknown action, and with another end after its drop. -/
def trimmedPolicy : List Rule :=
  [{ actions := [.log "seen", .output "eth1"] },
    { actions := [.output "eth2", .output "eth1", .alert "late"] },
    {},
    { actions := [.drop, .output "eth9"] }]

theorem trimmedPolicy_same_graph :
    (samplePolicy ≠ [] ∧ trimmedPolicy ≠ [] ∧ samplePolicy.length ≤ portCount ∧
        trimmedPolicy.length ≤ portCount) ∧
      (compileGraph (.device "eth0") samplePolicy).value =
        (compileGraph (.device "eth0") trimmedPolicy).value ∧
      (compileGraph (.device "eth0") samplePolicy).value ≠
        (compileGraph (.device "eth7") trimmedPolicy).value := by
  have hne : samplePolicy ≠ [] ∧ trimmedPolicy ≠ [] := by decide
  have hfew : samplePolicy.length ≤ portCount ∧ trimmedPolicy.length ≤ portCount := by decide
  have hsame : List.Forall₂ SameEffect samplePolicy trimmedPolicy := by
    refine .cons ?_ (.cons ?_ (.cons ?_ (.cons ?_ .nil))) <;> exact ⟨rfl, rfl, rfl⟩
  obtain ⟨g, g', ⟨hg, hg'⟩, hiff, -⟩ :=
    compiled_eq_iff (.device "eth0") (.device "eth0") hne.1 hne.2 hfew.1 hfew.2
  obtain ⟨k, k', ⟨hk, hk'⟩, hiff', -⟩ :=
    compiled_eq_iff (.device "eth0") (.device "eth7") hne.1 hne.2 hfew.1 hfew.2
  refine ⟨⟨hne.1, hne.2, hfew⟩, ?_, ?_⟩
  · rw [hg, hg', hiff.mpr ⟨rfl, hsame⟩]
  · rw [hk, hk']
    intro h
    exact absurd (hiff'.mp (Except.ok.inj h)).1 (by decide)

end PolicyGraph
