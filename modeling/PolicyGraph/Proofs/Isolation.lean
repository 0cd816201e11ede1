import Mathlib.Data.List.Chain
import PolicyGraph.Proofs.Compilation

/-!
# Isolation of rules

Outputs to one interface share a block, and an output need not end its chain. So packets of one rule may
go on into the chain of another. `isolated_iff_continuesAlike` says for which rules they do not.
-/

namespace PolicyGraph

open Plan

/-! ## Walks -/

/-- A walk through a graph: connectors, each of which leaves the block that the one before ends at. -/
structure Graph.IsWalk (g : Graph) (w : List Connector) : Prop where
  mem : ∀ c ∈ w, c ∈ g.connectors
  linked : w.IsChain fun c d => c.dest = d.source

/-- A walk that begins at a port of the classifier. -/
def LeavesBy (port : Nat) (w : List Connector) : Prop :=
  ∃ c ∈ w.head?, c.source = classifierId ∧ c.sourcePort = port

/-- Packets that leave the classifier by the port of a rule pass through the chain of the rule only, and
in its order. -/
def Graph.Isolated (g : Graph) (rules : List Rule) (i : Nat) : Prop :=
  ∀ w, g.IsWalk w → LeavesBy i w → w.map (·.dest) <+: Plan.chain rules i

/-- Wherever a step that shares its block with one of rule `i` is followed by another action, it is that
step of rule `i` itself, or the action runs in a shared block too and rule `i` goes on with the same. -/
def ContinuesAlike (rules : List Rule) (i : Nat) : Prop :=
  ∀ s ∈ ruleSteps rules i, ∀ u ∈ steps rules, u.action = s.action → u.action.isShared = true →
    ∀ next ∈ (actions rules u.rule)[u.place + 1]?,
      u = s ∨ (next.isShared = true ∧ (actions rules i)[s.place + 1]? = some next)

instance (rules : List Rule) (i : Nat) : Decidable (ContinuesAlike rules i) :=
  inferInstanceAs (Decidable (∀ _ ∈ _, ∀ _ ∈ _, _ → _ → ∀ _ ∈ _, _))

namespace IsolationLemmas

variable {source : Source} {rules : List Rule} {i : Nat} {w : List Connector}

/-! ## Walks that stay -/

/-- What leaves the classifier by the port of a rule leads to the first step of the rule. -/
theorem chain_head {c : Connector} (hc : c ∈ (graph source rules).connectors)
    (hsource : c.source = classifierId) (hport : c.sourcePort = i) :
    (Plan.chain rules i)[0]? = some c.dest := by
  rcases mem_connectors_iff.mp hc with rfl | ⟨s, hs, hplace, rfl⟩ | ⟨s, t, hnext, rfl⟩
  · exact absurd hsource (source_id_ne_classifierId source)
  · exact (getElem?_chain i 0).mpr ⟨s, hs, ⟨hport, hplace⟩, rfl⟩
  · exact absurd hsource (stageId_ne List.mem_cons_self)

/-- What leaves the block at a place of a chain leads to the block at the next place. -/
theorem chain_next (h : ContinuesAlike rules i) {j : Nat} {c : Connector}
    (hc : c ∈ (graph source rules).connectors)
    (hj : (Plan.chain rules i)[j]? = some c.source) :
    (Plan.chain rules i)[j + 1]? = some c.dest := by
  obtain ⟨s, hs, ⟨rfl, rfl⟩, hsource⟩ := (getElem?_chain i j).mp hj
  obtain ⟨u, t, hnext, hshare, rfl⟩ := exists_next_of_source_eq hc hsource.symm
  rw [getElem?_chain]
  rcases (stageId_eq_iff hnext.fst_mem hs).mp hshare with rfl | ⟨haction, hshared⟩
  · exact ⟨t, hnext.snd_mem, ⟨hnext.rule_eq, hnext.place_eq⟩, rfl⟩
  · have hrule := mem_ruleSteps.mpr ⟨rfl, mem_steps.mp hs⟩
    rcases h s hrule u hnext.fst_mem haction hshared _ hnext.getElem?_actions with
      rfl | ⟨hnextShared, hgoes⟩
    · exact ⟨t, hnext.snd_mem, ⟨hnext.rule_eq, hnext.place_eq⟩, rfl⟩
    · have hv : (⟨s.rule, s.place + 1, t.action⟩ : Step) ∈ steps rules := mem_steps.mpr hgoes
      exact ⟨_, hv, ⟨rfl, rfl⟩, (stageId_eq_iff hv hnext.snd_mem).mpr (.inr ⟨rfl, hnextShared⟩)⟩

theorem chain_getElem (h : ContinuesAlike rules i) (hw : (graph source rules).IsWalk w)
    (hleaves : LeavesBy i w) (k : Nat) (hk : k < w.length) :
    (Plan.chain rules i)[k]? = some w[k].dest := by
  -- Along the walk: each connector takes it from one block of the chain to the next.
  induction k with
  | zero =>
    obtain ⟨c, hc, hsource, hport⟩ := hleaves
    rw [List.head?_eq_getElem?, List.getElem?_eq_getElem hk, Option.mem_some] at hc
    subst hc
    exact chain_head (hw.mem _ (List.getElem_mem hk)) hsource hport
  | succ k ih =>
    have hlink := List.isChain_iff_getElem.mp hw.linked k hk
    refine chain_next h (hw.mem _ (List.getElem_mem hk)) ?_
    rw [← hlink]
    exact ih (Nat.lt_of_succ_lt hk)

theorem isolated_of_continuesAlike (h : ContinuesAlike rules i) :
    (graph source rules).Isolated rules i := by
  intro w hw hleaves
  rw [List.prefix_iff_getElem?]
  intro k hk
  rw [List.getElem_map]
  exact chain_getElem h hw hleaves k (by simpa using hk)

/-! ## Walks that stray -/

theorem link_isChain (id : BlockId) (port : Nat) (ids : List BlockId) :
    (link id port ids).IsChain fun c d => c.dest = d.source := by
  induction ids generalizing id port with
  | nil => exact .nil
  | cons b rest ih =>
    cases rest with
    | nil => exact .singleton _
    | cons b' rest => exact .cons_cons rfl (ih b 0)

theorem mem_connectors_of_mem_link {c : Connector} (hi : i < rules.length)
    (hc : c ∈ link classifierId i (Plan.chain rules i)) : c ∈ (graph source rules).connectors :=
  List.mem_append_left _ (List.mem_flatMap.mpr ⟨i, List.mem_range.mpr hi, hc⟩)

/-- The walk along the chain of a rule up to a place, and then over one more connector. -/
theorem isWalk_link_take {j : Nat} {d : Connector} (hd : d ∈ (graph source rules).connectors)
    (hj : (Plan.chain rules i)[j]? = some d.source) :
    (graph source rules).IsWalk
      ((link classifierId i (Plan.chain rules i)).take (j + 1) ++ [d]) where
  mem := by
    obtain ⟨s, hs, ⟨rfl, -⟩, -⟩ := (getElem?_chain i j).mp hj
    intro c hc
    rcases List.mem_append.mp hc with hc | hc
    · exact mem_connectors_of_mem_link (rule_lt_of_mem_steps hs) (List.mem_of_mem_take hc)
    · rw [List.mem_singleton] at hc
      exact hc ▸ hd
  linked := by
    rw [← map_dest_link classifierId i (Plan.chain rules i), List.getElem?_map,
      Option.map_eq_some_iff] at hj
    obtain ⟨c, hc, hdest⟩ := hj
    refine List.isChain_append.mpr ⟨(link_isChain _ _ _).take _, .singleton d, ?_⟩
    intro x hx y hy
    rw [List.getLast?_take, if_neg (Nat.succ_ne_zero j), Nat.add_sub_cancel, hc] at hx
    cases hx
    cases hy
    exact hdest

theorem leavesBy_link_take {j : Nat} {d : Connector} {id : BlockId}
    (hj : (Plan.chain rules i)[j]? = some id) :
    LeavesBy i ((link classifierId i (Plan.chain rules i)).take (j + 1) ++ [d]) := by
  cases hchain : Plan.chain rules i with
  | nil => simp [hchain] at hj
  | cons b rest => exact ⟨.join classifierId i b, rfl, rfl, rfl⟩

theorem getElem?_of_take_isPrefix {ids : List BlockId} {j : Nat} {id : BlockId} (hj : j < ids.length)
    (h : ids.take (j + 1) ++ [id] <+: ids) : ids[j + 1]? = some id := by
  have hlen : (ids.take (j + 1)).length = j + 1 := by
    rw [List.length_take, Nat.min_eq_left hj]
  obtain ⟨rest, hrest⟩ := h
  rw [← hrest, List.append_assoc, List.getElem?_append_right (Nat.le_of_eq hlen), hlen, Nat.sub_self]
  rfl

theorem continuesAlike_of_isolated (h : (graph source rules).Isolated rules i) :
    ContinuesAlike rules i := by
  intro s hs u hu haction hshared next hnext
  have ht : (⟨u.rule, u.place + 1, next⟩ : Step) ∈ steps rules := mem_steps.mpr hnext
  have hsteps := mem_steps_of_mem_ruleSteps hs
  obtain ⟨rfl, -⟩ := mem_ruleSteps.mp hs
  have hd : (.join (stageId rules u) 0 (stageId rules ⟨u.rule, u.place + 1, next⟩) : Connector) ∈
      (graph source rules).connectors :=
    mem_connectors_iff.mpr (.inr (.inr ⟨_, _, ⟨hu, ht, rfl, rfl⟩, rfl⟩))
  have hchain : (Plan.chain rules s.rule)[s.place]? = some (stageId rules u) :=
    (getElem?_chain _ _).mpr ⟨s, hsteps, ⟨rfl, rfl⟩,
      ((stageId_eq_iff hu hsteps).mpr (.inr ⟨haction, hshared⟩)).symm⟩
  have hprefix := h _ (isWalk_link_take hd hchain) (leavesBy_link_take hchain)
  rw [List.map_append, List.map_take, map_dest_link] at hprefix
  -- The chain goes on into the block of `next`, so the step after `s` shares that block.
  have hgoes := getElem?_of_take_isPrefix (List.getElem?_eq_some_iff.mp hchain).1 hprefix
  obtain ⟨v, hv, ⟨hrule, hplace⟩, hid⟩ := (getElem?_chain _ _).mp hgoes
  rcases (stageId_eq_iff hv ht).mp hid with rfl | ⟨hvt, hvshared⟩
  · exact .inl (step_ext hu hsteps hrule (Nat.succ.inj hplace))
  · have hact := mem_steps.mp hv
    rw [hvt, hrule, hplace] at hact
    rw [hvt] at hvshared
    exact .inr ⟨hvshared, hact⟩

/-- Packets of a rule keep to its chain just if all rules that share an output with it go on alike. -/
theorem isolated_graph_iff : (graph source rules).Isolated rules i ↔ ContinuesAlike rules i :=
  ⟨continuesAlike_of_isolated, isolated_of_continuesAlike⟩

end IsolationLemmas

open IsolationLemmas

/-! ## Which rules are isolated -/

/-- Packets that only one rule matched keep to the chain of the rule just if every step that shares a
block with one of the rule continues alike. -/
theorem isolated_iff_continuesAlike {source : Source} {rules : List Rule} {g : Graph}
    (h : (compileGraph source rules).value = .ok g) (i : Nat) :
    g.Isolated rules i ↔ ContinuesAlike rules i := by
  rw [eq_graph_of_compiled h]
  exact isolated_graph_iff

/-- Two rules that share their last output, and a drop. -/
def sharedLastPolicy : List Rule :=
  [{ actions := [.log "x", .output "eth1"] }, { actions := [.output "eth1"] },
    { actions := [.drop, .log "y"] }]

theorem sharedLastPolicy_isolated :
    (compileGraph (.device "eth0") sharedLastPolicy).value =
        .ok (graph (.device "eth0") sharedLastPolicy) ∧
      (graph (.device "eth0") sharedLastPolicy).Isolated sharedLastPolicy 1 :=
  have hvalue := compileGraph_value (by decide) (by decide)
  ⟨hvalue, (isolated_iff_continuesAlike hvalue 1).mpr (by decide)⟩

/-- An output with a log behind it, and a rule that only writes to the same interface. -/
def sharedEarlyPolicy : List Rule :=
  [{ actions := [.output "eth1", .log "a"] }, { actions := [.output "eth1"] }]

/-- Packets that only the second rule matched reach the log of the first. -/
theorem sharedEarlyPolicy_not_isolated :
    ∃ g, (compileGraph (.device "eth0") sharedEarlyPolicy).value = .ok g ∧
      ¬ g.Isolated sharedEarlyPolicy 1 :=
  ⟨_, compileGraph_value (by decide) (by decide), mt isolated_graph_iff.mp (by decide)⟩

end PolicyGraph
