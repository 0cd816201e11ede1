import PolicyGraph.Proofs.Isolation

/-!
# Packet loops

A path through a compiled graph follows the chain of a rule, and at the block of an output it may change
to another rule that writes to the same interface. `Trail` is such a path seen in the rules.
`acyclic_iff_no_rewrite` says when no path leads back to where it began: no interface is written to,
step by step through any rules, before itself.
-/

namespace PolicyGraph

open Plan Relation

/-! ## Loops in graphs and in policies -/

/-- No block has a path of connectors back to itself. -/
def Graph.Acyclic (g : Graph) : Prop := ∀ id, ¬ TransGen (Joined g.connectors) id id

/-- Step `s` comes before step `t` in their rule. -/
structure Before (rules : List Rule) (s t : Step) : Prop where
  fst_mem : s ∈ steps rules
  snd_mem : t ∈ steps rules
  rule_eq : t.rule = s.rule
  place_lt : s.place < t.place

/-- Some rule writes to interface `x` and later to interface `y`. -/
def WritesBefore (rules : List Rule) (x y : String) : Prop :=
  ∃ s t, Before rules s t ∧ s.action = .output x ∧ t.action = .output y

/-- A path seen in the rules: along a rule, and from any output on along a rule that writes to the same
interface. -/
inductive Trail (rules : List Rule) : Step → Step → Prop
  | stay {s t : Step} : Before rules s t → Trail rules s t
  | change {s p q t : Step} {x : String} :
      Trail rules s p → p.action = .output x → q.action = .output x → Before rules q t →
      Trail rules s t

namespace LoopLemmas

variable {source : Source} {rules : List Rule} {s t u v : Step} {x y : String}

/-! ## Steps of one rule -/

theorem before_of_next (h : Next rules s t) : Before rules s t :=
  ⟨h.fst_mem, h.snd_mem, h.rule_eq, by rw [h.place_eq]; exact Nat.lt_succ_self _⟩

theorem before_trans (h : Before rules s t) (h' : Before rules t u) : Before rules s u :=
  ⟨h.fst_mem, h'.snd_mem, h'.rule_eq.trans h.rule_eq, Nat.lt_trans h.place_lt h'.place_lt⟩

/-- The chain of a rule leads from each step to all later ones. -/
theorem transGen_of_before (h : Before rules s t) :
    TransGen (Joined (graph source rules).connectors) (stageId rules s) (stageId rules t) := by
  obtain ⟨k, hk⟩ := Nat.exists_eq_add_of_lt h.place_lt
  induction k generalizing t with
  | zero => exact .single (joined_next ⟨h.fst_mem, h.snd_mem, h.rule_eq, hk⟩)
  | succ k ih =>
    obtain ⟨u, hnext, hplace⟩ := exists_next_before h.snd_mem hk
    have hbefore : Before rules s u :=
      ⟨h.fst_mem, hnext.fst_mem, hnext.rule_eq.symm.trans h.rule_eq, by omega⟩
    exact (ih hbefore (by omega)).tail (joined_next hnext)

theorem exists_next_of_before (h : Before rules s t) : ∃ u, Next rules s u := by
  have hlt : s.place + 1 < (actions rules s.rule).length := by
    have hmem := mem_steps.mp h.snd_mem
    rw [h.rule_eq] at hmem
    exact Nat.lt_of_le_of_lt h.place_lt (List.getElem?_eq_some_iff.mp hmem).1
  refine ⟨⟨s.rule, s.place + 1, (actions rules s.rule)[s.place + 1]⟩, h.fst_mem, ?_, rfl, rfl⟩
  exact mem_steps.mpr (List.getElem?_eq_getElem _)

/-! ## Loops of interfaces -/

/-- Interfaces that are written to one before the other have blocks with a path between them. -/
theorem transGen_of_writesBefore (source : Source) (h : TransGen (WritesBefore rules) x y) :
    ∃ s ∈ steps rules, ∃ t ∈ steps rules, (s.action = .output x ∧ t.action = .output y) ∧
      TransGen (Joined (graph source rules).connectors) (stageId rules s) (stageId rules t) := by
  induction h with
  | single hxy =>
    obtain ⟨s, t, hbefore, hactions⟩ := hxy
    exact ⟨s, hbefore.fst_mem, t, hbefore.snd_mem, hactions, transGen_of_before hbefore⟩
  | tail _ hyz ih =>
    obtain ⟨s, hs, t, ht, ⟨hx, hy⟩, hpath⟩ := ih
    obtain ⟨u, v, hbefore, hu, hv⟩ := hyz
    rw [stageId_eq_of_output ht hbefore.fst_mem hy hu] at hpath
    exact ⟨s, hs, v, hbefore.snd_mem, ⟨hx, hv⟩, hpath.trans (transGen_of_before hbefore)⟩

theorem not_acyclic_of_writesBefore (h : TransGen (WritesBefore rules) x x) :
    ¬ (graph source rules).Acyclic := by
  obtain ⟨s, hs, t, ht, ⟨hx, hy⟩, hpath⟩ := transGen_of_writesBefore source h
  rw [stageId_eq_of_output ht hs hy hx] at hpath
  exact fun hacyclic => hacyclic _ hpath

/-! ## Trails -/

theorem trail_fst_mem (h : Trail rules s t) : s ∈ steps rules := by
  induction h with
  | stay hbefore => exact hbefore.fst_mem
  | change _ _ _ _ ih => exact ih

theorem trail_snd_mem (h : Trail rules s t) : t ∈ steps rules := by
  cases h with
  | stay hbefore => exact hbefore.snd_mem
  | change _ _ _ hbefore => exact hbefore.snd_mem

theorem exists_before_of_trail (h : Trail rules s t) : ∃ u, Before rules s u := by
  induction h with
  | stay hbefore => exact ⟨_, hbefore⟩
  | change _ _ _ _ ih => exact ih

/-- A trail begins earlier where a step comes before its first. -/
theorem trail_prepend (h : Before rules u s) (htrail : Trail rules s t) : Trail rules u t := by
  induction htrail with
  | stay hbefore => exact .stay (before_trans h hbefore)
  | change _ hp hq hbefore ih => exact .change ih hp hq hbefore

/-- A trail goes on from the block of its last step to any next step. -/
theorem trail_extend (h : Trail rules s t) (hid : stageId rules u = stageId rules t)
    (hnext : Next rules u v) : Trail rules s v := by
  rcases (stageId_eq_iff hnext.fst_mem (trail_snd_mem h)).mp hid with rfl | ⟨haction, hshared⟩
  · cases h with
    | stay hbefore => exact .stay (before_trans hbefore (before_of_next hnext))
    | change htrail hp hq hbefore =>
      exact .change htrail hp hq (before_trans hbefore (before_of_next hnext))
  · obtain ⟨x, hu⟩ := hnext.exists_output hshared
    exact .change h (haction.symm.trans hu) hu (before_of_next hnext)

/-- A trail between outputs writes to their interfaces one before the other. -/
theorem writesBefore_of_trail (h : Trail rules s t) (hs : s.action = .output x)
    (ht : t.action = .output y) : TransGen (WritesBefore rules) x y := by
  induction h generalizing y with
  | stay hbefore => exact .single ⟨_, _, hbefore, hs, ht⟩
  | change _ hp hq hbefore ih => exact (ih hp).tail ⟨_, _, hbefore, hq, ht⟩

/-- A path from the block of a step is a trail. -/
theorem trail_of_transGen {id : BlockId}
    (h : TransGen (Joined (graph source rules).connectors) (stageId rules s) id) :
    ∃ u t, stageId rules u = stageId rules s ∧ Trail rules u t ∧ stageId rules t = id := by
  induction h with
  | single hjoined =>
    obtain ⟨c, hc, hsource, rfl⟩ := hjoined
    obtain ⟨u, t, hnext, hid, rfl⟩ := exists_next_of_source_eq hc hsource
    exact ⟨u, t, hid, .stay (before_of_next hnext), rfl⟩
  | tail _ hjoined ih =>
    obtain ⟨u, t, hid, htrail, rfl⟩ := ih
    obtain ⟨c, hc, hsource, rfl⟩ := hjoined
    obtain ⟨p, q, hnext, hpt, rfl⟩ := exists_next_of_source_eq hc hsource
    exact ⟨u, q, hid, trail_extend htrail hpt hnext, rfl⟩

/-- A trail back to the block where it began comes from a loop of interfaces. -/
theorem exists_loop_of_trail (h : Trail rules s t) (hid : stageId rules t = stageId rules s) :
    ∃ x, TransGen (WritesBefore rules) x x := by
  rcases (stageId_eq_iff (trail_snd_mem h) (trail_fst_mem h)).mp hid with rfl | ⟨haction, hshared⟩
  · cases h with
    | stay hbefore => exact absurd hbefore.place_lt (Nat.lt_irrefl _)
    | change htrail hp hq hbefore =>
      -- The rule where the trail ends is the one where it begins, so it may begin at its last change.
      exact ⟨_, writesBefore_of_trail (trail_prepend hbefore htrail) hq hp⟩
  · -- The trail begins and ends with outputs to one interface.
    obtain ⟨u, hbefore⟩ := exists_before_of_trail h
    obtain ⟨v, hnext⟩ := exists_next_of_before hbefore
    rw [haction] at hshared
    obtain ⟨x, hx⟩ := hnext.exists_output hshared
    exact ⟨x, writesBefore_of_trail h hx (haction.trans hx)⟩

theorem exists_step_of_cycle {id : BlockId}
    (h : TransGen (Joined (graph source rules).connectors) id id) :
    ∃ s, stageId rules s = id := by
  have hsound := sound_graph source rules
  obtain ⟨a, hpath, c, hc, rfl, rfl⟩ := TransGen.tail'_iff.mp h
  rcases mem_connectors_iff.mp hc with rfl | ⟨s, -, -, rfl⟩ | ⟨-, t, -, rfl⟩
  · -- Nothing leads into the root, so the classifier is on no loop.
    rcases ReflTransGen.cases_tail hpath with heq | ⟨b, -, d, hd, -, hroot⟩
    · exact absurd heq (source_id_ne_classifierId source)
    · exact absurd hroot (hsound.dest_ne_root d hd)
  · exact ⟨s, rfl⟩
  · exact ⟨t, rfl⟩

theorem acyclic_graph_iff :
    (graph source rules).Acyclic ↔ ∀ x, ¬ TransGen (WritesBefore rules) x x := by
  constructor
  · exact fun h x hx => not_acyclic_of_writesBefore hx h
  · intro h id hcycle
    obtain ⟨s, rfl⟩ := exists_step_of_cycle hcycle
    obtain ⟨u, t, hus, htrail, hts⟩ := trail_of_transGen hcycle
    obtain ⟨x, hx⟩ := exists_loop_of_trail htrail (hts.trans hus.symm)
    exact h x hx

end LoopLemmas

open LoopLemmas

/-! ## Which policies have loops -/

/-- A compiled graph has no packet loops just if no interface is written to before itself, step by step
through any rules. -/
theorem acyclic_iff_no_rewrite {source : Source} {rules : List Rule} {g : Graph}
    (h : (compileGraph source rules).value = .ok g) :
    g.Acyclic ↔ ∀ x, ¬ TransGen (WritesBefore rules) x x := by
  rw [eq_graph_of_compiled h]
  exact acyclic_graph_iff

/-- Three rules that share outputs in the middle of their chains, always `eth1` before `eth2`. -/
def orderedPolicy : List Rule :=
  [{ actions := [.output "eth1", .output "eth2", .log "both"] },
    { actions := [.output "eth1", .drop] },
    { actions := [.alert "one", .output "eth2"] }]

theorem orderedPolicy_acyclic :
    (compileGraph (.dump "in.pcap") orderedPolicy).value =
        .ok (graph (.dump "in.pcap") orderedPolicy) ∧
      (graph (.dump "in.pcap") orderedPolicy).Acyclic := by
  have hvalue : (compileGraph (.dump "in.pcap") orderedPolicy).value = .ok _ :=
    compileGraph_value (by decide) (by decide)
  refine ⟨hvalue, (acyclic_iff_no_rewrite hvalue).mpr ?_⟩
  have hpairs : ∀ s ∈ steps orderedPolicy, ∀ t ∈ steps orderedPolicy, t.rule = s.rule →
      s.place < t.place → s.action.isShared = true → t.action.isShared = true →
        s.action = .output "eth1" ∧ (t.action = .output "eth2" ∨ t.action = .drop) := by
    decide
  have hwrites : ∀ x y, WritesBefore orderedPolicy x y → x = "eth1" ∧ y = "eth2" := by
    rintro x y ⟨s, t, h, hs, ht⟩
    have hst := hpairs s h.fst_mem t h.snd_mem h.rule_eq h.place_lt (by rw [hs]; rfl)
      (by rw [ht]; rfl)
    simpa [hs, ht] using hst
  intro x hx
  obtain ⟨a, -, hax⟩ := TransGen.tail'_iff.mp hx
  obtain ⟨b, hxb, -⟩ := TransGen.head'_iff.mp hx
  have hsame := (hwrites x b hxb).1.symm.trans (hwrites a x hax).2
  exact absurd hsame (by decide)

/-- One rule that writes to an interface twice. -/
def rewritingPolicy : List Rule := [{ actions := [.output "eth1", .output "eth1"] }]

/-- The block of an output that is used twice in a rule is joined to itself. -/
theorem rewritingPolicy_not_acyclic :
    ∃ g, (compileGraph (.device "eth0") rewritingPolicy).value = .ok g ∧
      ¬ g.Acyclic ∧ ∃ c ∈ g.connectors, c.source = c.dest := by
  refine ⟨_, compileGraph_value (by decide) (by decide), ?_, by decide⟩
  refine not_acyclic_of_writesBefore (x := "eth1") (.single ?_)
  exact ⟨⟨0, 0, .output "eth1"⟩, ⟨0, 1, .output "eth1"⟩,
    ⟨by decide, by decide, rfl, by decide⟩, rfl, rfl⟩

end PolicyGraph
