import PolicyGraph.Proofs.Pool
import PolicyGraph.Proofs.Soundness

/-!
# The wiring carries out the plan

The wiring keeps a pool and the end of a chain while it goes through the rules, and the plan knows
neither. `Carried` says what the pool holds after some of the steps, `Extends` what wiring a few more
steps does, and `WiredBelow` where a compilation stands after the first `n` rules. The outcome is
`build_draft`: every policy is built, and into the graph of its plan.
-/

namespace PolicyGraph

open Plan

/-! ## The pool after some steps -/

/-- A pool in which the blocks of the steps in `done` are registered, and no others. -/
structure Carried (rules : List Rule) (done : List Step) (p : Pool) : Prop where
  indexed : p.Indexed
  blocks_eq : p.blocks = (done.map (stage rules)).eraseDups
  sink?_eq : ∀ interface, p.sink? interface =
    (done.find? (·.action = .output interface)).map outputId

theorem output_ne_of_ne {a : Action} {i j : String} (ha : a = .output i) (h : j ≠ i) :
    a ≠ .output j := by
  rintro rfl
  exact h (Action.output.inj ha)

namespace Carried

variable {rules : List Rule} {done : List Step} {p : Pool} {s : Step}

theorem empty (rules : List Rule) : Carried rules [] {} :=
  ⟨Pool.indexed_empty, rfl, fun _ => rfl⟩

theorem mem_ids_iff (h : Carried rules done p) {id : BlockId} :
    id ∈ p.blocks.map Block.id ↔ ∃ t ∈ done, stageId rules t = id := by
  rw [h.blocks_eq]
  exact mem_ids_stages_iff

/-- The id of a step is taken just if its block is there already. -/
theorem stage_mem_iff (h : Carried rules done p) (hdone : ∀ t ∈ done, t ∈ steps rules)
    (hs : s ∈ steps rules) :
    (stage rules s).id ∈ p.blocks.map Block.id ↔ stage rules s ∈ done.map (stage rules) := by
  rw [h.mem_ids_iff, List.mem_map]
  constructor
  · rintro ⟨t, ht, heq⟩
    exact ⟨t, ht, stage_eq_of_id_eq (hdone t ht) hs heq⟩
  · rintro ⟨t, ht, heq⟩
    exact ⟨t, ht, congrArg Block.id heq⟩

theorem blocks_register (h : Carried rules done p) (hdone : ∀ t ∈ done, t ∈ steps rules)
    (hs : s ∈ steps rules) :
    (p.register (stage rules s)).blocks = ((done ++ [s]).map (stage rules)).eraseDups := by
  rw [List.map_append, List.map_singleton, eraseDups_concat, ← h.blocks_eq]
  have hiff := h.stage_mem_iff hdone hs
  split
  · next hmem => rw [Pool.register_old h.indexed (hiff.mpr hmem)]
  · next hmem => exact Pool.blocks_register_new h.indexed (mt hiff.mp hmem)

/-- Registering the block of an alert, a log or a drop. -/
theorem register (h : Carried rules done p) (hdone : ∀ t ∈ done, t ∈ steps rules)
    (hs : s ∈ steps rules) (hout : ∀ i, s.action ≠ .output i) :
    Carried rules (done ++ [s]) (p.register (stage rules s)) where
  indexed := Pool.indexed_register h.indexed
  blocks_eq := h.blocks_register hdone hs
  sink?_eq := by
    intro interface
    have hsame : (p.register (stage rules s)).sink? interface = p.sink? interface := by
      by_cases hmem : (stage rules s).id ∈ p.blocks.map Block.id
      · rw [Pool.register_old h.indexed hmem]
      · rw [Pool.sink?_register_new h.indexed hmem, if_neg]
        exact mt (outputInterface?_stage interface).mp (hout interface)
    rw [hsame, h.sink?_eq, List.find?_append]
    simp [hout interface]

/-- An output to an interface that has a block already. -/
theorem output_old (h : Carried rules done p) (hdone : ∀ t ∈ done, t ∈ steps rules)
    (hs : s ∈ steps rules) {interface : String} (ha : s.action = .output interface) {first : Step}
    (hfirst : done.find? (·.action = .output interface) = some first) :
    Carried rules (done ++ [s]) p where
  indexed := h.indexed
  blocks_eq := by
    have hmem := List.mem_of_find?_eq_some hfirst
    have haction : first.action = .output interface := by simpa using List.find?_some hfirst
    have hid := stageId_eq_of_output (hdone first hmem) hs haction ha
    have hstage : stage rules s ∈ done.map (stage rules) :=
      List.mem_map.mpr ⟨first, hmem, stage_eq_of_id_eq (hdone first hmem) hs hid⟩
    rw [h.blocks_eq, List.map_append, List.map_singleton, eraseDups_concat, if_pos hstage]
  sink?_eq := by
    intro other
    rw [h.sink?_eq, List.find?_append]
    by_cases hother : other = interface
    · rw [hother, hfirst, Option.some_or]
    · simp [output_ne_of_ne ha hother]

/-- The block of the first output to an interface has an id of its own: one that is taken would be that of
an earlier output to the interface. -/
theorem output_fresh (h : Carried rules done p) (hdone : ∀ t ∈ done, t ∈ steps rules)
    (hs : s ∈ steps rules) {interface : String} (ha : s.action = .output interface)
    (hnone : done.find? (·.action = .output interface) = none) :
    stageId rules s ∉ p.blocks.map Block.id := by
  rw [h.mem_ids_iff]
  rintro ⟨t, ht, heq⟩
  have haction : t.action = .output interface := by
    rcases (stageId_eq_iff (hdone t ht) hs).mp heq with rfl | ⟨hta, -⟩
    · exact ha
    · rw [hta, ha]
  exact absurd haction (by simpa using List.find?_eq_none.mp hnone t ht)

/-- The first output to an interface. -/
theorem output_new (h : Carried rules done p) (hdone : ∀ t ∈ done, t ∈ steps rules)
    (hs : s ∈ steps rules) {interface : String} (ha : s.action = .output interface)
    (hnone : done.find? (·.action = .output interface) = none)
    (hid : stageId rules s = outputId s) :
    Carried rules (done ++ [s]) ((p.register (stage rules s)).serve interface (outputId s)) where
  indexed := Pool.indexed_serve (Pool.indexed_register h.indexed)
  blocks_eq := by
    rw [Pool.blocks_serve]
    exact h.blocks_register hdone hs
  sink?_eq := by
    have hfresh : (stage rules s).id ∉ p.blocks.map Block.id := h.output_fresh hdone hs ha hnone
    intro other
    rw [List.find?_append, Pool.sink?_serve]
    split
    · next heq =>
      rw [heq, hnone, Option.none_or, Pool.sink?_register_new h.indexed hfresh,
        if_pos ((outputInterface?_stage interface).mpr ha), h.sink?_eq, hnone]
      simp [ha, stage, hid]
    · next hne =>
      have hother := output_ne_of_ne ha hne
      rw [Pool.sink?_register_new h.indexed hfresh,
        if_neg (mt (outputInterface?_stage other).mp hother), h.sink?_eq]
      simp [hother]

/-- The block of the first output to an interface is named for it. -/
theorem stageId_first (hpre : done ++ [s] <+: steps rules) {interface : String}
    (ha : s.action = .output interface) (hnone : done.find? (·.action = .output interface) = none) :
    stageId rules s = outputId s := by
  have hfirst : firstOutput? rules interface = some s := by
    refine hpre.find?_eq_some ?_
    rw [List.find?_append, hnone]
    simp [ha]
  exact stageId_output ha hfirst

/-- An output runs in the block that the pool gives out for its interface. -/
theorem output (h : Carried rules done p) (hpre : done ++ [s] <+: steps rules)
    {interface : String} (ha : s.action = .output interface) :
    (p.output interface ⟨outputId s, .toDevice interface⟩).1 = stageId rules s ∧
      Carried rules (done ++ [s]) (p.output interface ⟨outputId s, .toDevice interface⟩).2 := by
  have hdone : ∀ t ∈ done, t ∈ steps rules := fun t ht => hpre.subset (List.mem_append_left _ ht)
  have hs : s ∈ steps rules := hpre.subset (List.mem_append_right _ List.mem_cons_self)
  cases hfind : done.find? (·.action = .output interface) with
  | some first =>
    have hfirst : firstOutput? rules interface = some first :=
      ((List.prefix_append done [s]).trans hpre).find?_eq_some hfind
    have hsink : p.sink? interface = some (outputId first) := by rw [h.sink?_eq, hfind]; rfl
    rw [Pool.output_of_sink hsink]
    exact ⟨(stageId_output ha hfirst).symm, h.output_old hdone hs ha hfind⟩
  | none =>
    have hid := stageId_first hpre ha hfind
    have hstage : stage rules s = ⟨outputId s, .toDevice interface⟩ := by
      simp only [stage, hid, ha, stageKind]
    have hsink : p.sink? interface = none := by rw [h.sink?_eq, hfind]; rfl
    have hnew := h.output_new hdone hs ha hfind hid
    rw [hstage] at hnew
    rw [Pool.output_of_none hsink]
    exact ⟨hid.symm, hnew⟩

end Carried

/-! ## Chains -/

/-- What wiring the steps in `more` after those in `done` does, from the end of a chain on. -/
structure Extends (rules : List Rule) (done more : List Step) (tail : ChainEnd) (w w' : Wiring) :
    Prop where
  carried : Carried rules (done ++ more) w'.pool
  connectors_eq :
    w'.connectors = w.connectors ++ link tail.block tail.port (more.map (stageId rules))
  entries_eq : w'.entries = w.entries

namespace Extends

variable {rules : List Rule} {done more : List Step} {s : Step} {tail : ChainEnd} {w w₁ w₂ : Wiring}

theorem nil (h : Carried rules done w.pool) : Extends rules done [] tail w w where
  carried := by
    rw [List.append_nil]
    exact h
  connectors_eq := (List.append_nil _).symm
  entries_eq := rfl

/-- One more step, and then others from its block on. -/
theorem cons (h₁ : Extends rules done [s] tail w w₁)
    (h₂ : Extends rules (done ++ [s]) more (Wiring.advance tail (stageId rules s)) w₁ w₂) :
    Extends rules done (s :: more) tail w w₂ where
  carried := by
    rw [List.append_cons]
    exact h₂.carried
  connectors_eq := by
    rw [h₂.connectors_eq, h₁.connectors_eq, List.append_assoc]
    rfl
  entries_eq := h₂.entries_eq.trans h₁.entries_eq

theorem joinBlock (tail : ChainEnd) (h : Carried rules done w.pool)
    (hpre : done ++ [s] <+: steps rules) (hout : ∀ i, s.action ≠ .output i) :
    Extends rules done [s] tail w (w.joinBlock tail (stage rules s)) where
  carried := h.register (fun _ ht => hpre.subset (List.mem_append_left _ ht))
    (hpre.subset (List.mem_append_right _ List.mem_cons_self)) hout
  connectors_eq := rfl
  entries_eq := rfl

theorem joinOutput (tail : ChainEnd) (h : Carried rules done w.pool)
    (hpre : done ++ [s] <+: steps rules) {interface : String} (ha : s.action = .output interface) :
    Extends rules done [s] tail w
      (({ w with pool := (w.pool.output interface ⟨outputId s, .toDevice interface⟩).2 } :
        Wiring).join tail (stageId rules s)) where
  carried := (h.output hpre ha).2
  connectors_eq := rfl
  entries_eq := rfl

end Extends

theorem isPrefix_of_cons {all done more : List Step} {s : Step} (h : done ++ s :: more <+: all) :
    done ++ [s] <+: all ∧ done ++ [s] ++ more <+: all := by
  rw [List.append_cons] at h
  exact ⟨(List.prefix_append _ more).trans h, h⟩

/-- Wiring the actions of a rule carries out its steps. -/
theorem chain_extends {rules : List Rule} {rule : Nat} {as : List Action} {done : List Step}
    (tail : ChainEnd) {w : Wiring} (h : Carried rules done w.pool)
    (hpre : done ++ stepsFrom rule tail.step (effective as) <+: steps rules) :
    Extends rules done (stepsFrom rule tail.step (effective as)) tail w
      (Wiring.chain rule tail w as) := by
  -- Over the actions. After each step the pool is `Carried` again, for one step more.
  induction as generalizing done tail w with
  | nil => exact .nil h
  | cons a rest ih =>
    cases a with
    | alert m | log m =>
      obtain ⟨hstep, hrest⟩ := isPrefix_of_cons (s := ⟨rule, tail.step, _⟩) hpre
      have h₁ := Extends.joinBlock tail h hstep (fun _ => by simp)
      exact h₁.cons (ih (Wiring.advance tail _) h₁.carried hrest)
    | output i =>
      obtain ⟨hstep, hrest⟩ := isPrefix_of_cons (s := ⟨rule, tail.step, .output i⟩) hpre
      have h₁ := Extends.joinOutput tail h hstep rfl
      -- The pool gives out the id that the plan has for the step.
      have hchain := h₁.cons (ih (Wiring.advance tail _) h₁.carried hrest)
      rw [← (h.output hstep rfl).1] at hchain
      exact hchain
    | drop => exact .joinBlock (s := ⟨rule, tail.step, .drop⟩) tail h hpre (fun _ => by simp)
    | unknown k =>
      have hrest := ih tail (w := { w with events := w.events ++ [.unknownAction rule k] }) h hpre
      exact ⟨hrest.carried, hrest.connectors_eq, hrest.entries_eq⟩

/-! ## Rules -/

/-- The first `n` rules are wired as planned, and nothing else is. -/
structure WiredBelow (rules : List Rule) (n : Nat) (w : Wiring) : Prop where
  carried : Carried rules (stepsBelow rules n) w.pool
  connectors_eq : w.connectors = chainsBelow rules n
  entries_eq : w.entries = entriesFrom 0 (rules.take n)

theorem wiredBelow_zero (rules : List Rule) : WiredBelow rules 0 {} :=
  ⟨.empty rules, rfl, rfl⟩

theorem entriesFrom_take_succ {rules : List Rule} {n : Nat} {rule : Rule}
    (hrule : rules[n]? = some rule) :
    entriesFrom 0 (rules.take (n + 1)) =
      entriesFrom 0 (rules.take n) ++ [⟨rule.headerMatch, rule.priority, n⟩] := by
  have hlt : n < rules.length := (List.getElem?_eq_some_iff.mp hrule).1
  have hlen : (rules.take n).length = n := by
    rw [List.length_take, Nat.min_eq_left (Nat.le_of_lt hlt)]
  simp [entriesFrom, List.take_add_one, hrule, List.zipIdx_append, hlen]

theorem chainsBelow_succ (rules : List Rule) (n : Nat) :
    chainsBelow rules (n + 1) =
      chainsBelow rules n ++ link classifierId n (Plan.chain rules n) := by
  simp only [chainsBelow, List.range_succ, List.flatMap_append, List.flatMap_singleton]

/-- Adding the next rule keeps to the plan. -/
theorem WiredBelow.addRule {rules : List Rule} {n : Nat} {rule : Rule} {w : Wiring}
    (h : WiredBelow rules n w) (hrule : rules[n]? = some rule) :
    WiredBelow rules (n + 1) (w.addRule rule n) := by
  have hlt : n < rules.length := (List.getElem?_eq_some_iff.mp hrule).1
  have hactions : ruleSteps rules n = stepsFrom n 0 (effective rule.actions) := by
    simp only [ruleSteps, actions, hrule]
  have hpre : stepsBelow rules n ++ stepsFrom n 0 (effective rule.actions) <+: steps rules := by
    rw [← hactions, ← stepsBelow_succ]
    exact stepsBelow_isPrefix hlt
  have hchain := chain_extends ⟨classifierId, n, 0⟩
    (w := { w with entries := w.entries ++ [⟨rule.headerMatch, rule.priority, n⟩] }) h.carried hpre
  refine ⟨?_, ?_, ?_⟩
  · rw [stepsBelow_succ, hactions]
    exact hchain.carried
  · rw [chainsBelow_succ, Plan.chain, hactions, ← h.connectors_eq]
    exact hchain.connectors_eq
  · rw [entriesFrom_take_succ hrule, ← h.entries_eq]
    exact hchain.entries_eq

/-- Adding all rules that are left does what is planned for the whole policy. -/
theorem WiredBelow.addRules {rules rest : List Rule} {n : Nat} {w : Wiring}
    (h : WiredBelow rules n w) (hrest : rules.drop n = rest) (hn : n ≤ rules.length) :
    WiredBelow rules rules.length (w.addRules n rest) := by
  induction rest generalizing n w with
  | nil =>
    have hlen : rules.length = n := Nat.le_antisymm (List.drop_eq_nil_iff.mp hrest) hn
    rw [hlen]
    exact h
  | cons rule rest ih =>
    have hrule : rules[n]? = some rule := by
      rw [← List.head?_drop, hrest]
      rfl
    have hlt : n < rules.length := (List.getElem?_eq_some_iff.mp hrule).1
    refine ih (h.addRule hrule) ?_ hlt
    rw [← List.drop_drop, hrest]
    rfl

theorem wiredBelow_addRules (rules : List Rule) :
    WiredBelow rules rules.length (({} : Wiring).addRules 0 rules) :=
  (wiredBelow_zero rules).addRules rfl (Nat.zero_le _)

/-! ## Graphs -/

/-- The draft of a compilation is the plan of its rules. -/
theorem draft_addRules (source : Source) (rules : List Rule) :
    (({} : Wiring).addRules 0 rules).draft source =
      ⟨(graph source rules).blocks, (graph source rules).connectors,
        some (graph source rules).root⟩ := by
  have h := wiredBelow_addRules rules
  generalize ({} : Wiring).addRules 0 rules = w at h
  have hclassifier : w.classifier = Plan.classifier rules := by
    rw [Wiring.classifier, Plan.classifier, h.entries_eq, List.take_length]
  have hfresh : (Plan.classifier rules).id ∉ w.pool.blocks.map Block.id := by
    rw [h.carried.mem_ids_iff]
    rintro ⟨s, -, hs⟩
    exact stageId_ne (by simp [Plan.classifier]) hs
  have hblocks : (w.pool.register w.classifier).blocks = stages rules ++ [Plan.classifier rules] := by
    rw [hclassifier, Pool.blocks_register_new h.carried.indexed hfresh, h.carried.blocks_eq]
    rfl
  simp only [Wiring.draft, Draft.addBlock, Draft.addBlocks, Draft.addConnectors, Draft.setRoot,
    hblocks, h.connectors_eq, graph, List.nil_append, List.singleton_append]

/-- Every policy is built, and into the graph of its plan. -/
theorem build_draft (source : Source) (rules : List Rule) :
    ((({} : Wiring).addRules 0 rules).draft source).build = .ok (graph source rules) := by
  rw [draft_addRules]
  exact Draft.build_eq_ok_iff.mpr ⟨⟨rfl, rfl, rfl⟩, sound_graph source rules⟩

end PolicyGraph
