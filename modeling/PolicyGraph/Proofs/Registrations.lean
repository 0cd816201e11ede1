import PolicyGraph.Proofs.Degrees
import PolicyGraph.Proofs.Growth

/-!
# What a compilation registers

A compilation makes one call on its pool for each step, and nothing else changes the pool
(`Wiring.pool_chain`). The ids of alerts, of logs and of new outputs are never taken when their blocks
come to be registered, so that every one of these calls adds its block (`registrations_never_clash`).
-/

namespace PolicyGraph

open Plan Pool

/-! ## The calls of a compilation -/

/-- The call on the pool that a step makes. No step has an unknown action. -/
def Step.call (s : Step) : PoolCall :=
  match s.action with
  | .alert message => .register ⟨actionId "Alert" s.rule s.place, .alert message⟩
  | .log message => .register ⟨actionId "Log" s.rule s.place, .log message⟩
  | .output interface =>
    .output interface ⟨actionId "ToDevice" s.rule s.place, .toDevice interface⟩
  | .drop | .unknown _ => .register ⟨discardId, .discard⟩

/-- The calls that the rules of a policy make, in their order. -/
def Plan.calls (rules : List Rule) : List PoolCall := (steps rules).map Step.call

/-- The call is there to add the block: it registers an alert or a log, or it makes the block for an
interface that has none. -/
inductive PoolCall.Brings (p : Pool) : PoolCall → Block → Prop
  | alert {id : BlockId} {message : String} : Brings p (.register ⟨id, .alert message⟩) ⟨id, .alert message⟩
  | log {id : BlockId} {message : String} : Brings p (.register ⟨id, .log message⟩) ⟨id, .log message⟩
  | output {interface : String} {fresh : Block} : p.sink? interface = none →
      Brings p (.output interface fresh) fresh

namespace Wiring

/-- Wiring the actions of a rule makes the calls of its steps on whatever pool there is. -/
theorem pool_chain (rule : Nat) (as : List Action) (tail : ChainEnd) (w : Wiring) :
    (w.chain rule tail as).pool =
      w.pool.after ((stepsFrom rule tail.step (effective as)).map Step.call) := by
  induction as generalizing tail w with
  | nil => rfl
  | cons a rest ih =>
    cases a with
    | alert message | log message | output interface => exact ih _ _
    | drop => rfl
    | unknown kind => exact ih _ _

/-- Adding the rules that are left makes the calls that are left. -/
theorem pool_addRules_drop {rules rest : List Rule} {n : Nat} {w : Wiring}
    (hw : w.pool = ofCalls ((stepsBelow rules n).map Step.call)) (hrest : rules.drop n = rest)
    (hn : n ≤ rules.length) : (w.addRules n rest).pool = ofCalls (calls rules) := by
  induction rest generalizing n w with
  | nil =>
    have hlen : rules.length = n := Nat.le_antisymm (List.drop_eq_nil_iff.mp hrest) hn
    rw [calls, steps, hlen]
    exact hw
  | cons rule rest ih =>
    have hrule : rules[n]? = some rule := by
      rw [← List.head?_drop, hrest]
      rfl
    have hlt : n < rules.length := (List.getElem?_eq_some_iff.mp hrule).1
    refine ih ?_ ?_ hlt
    · have hactions : ruleSteps rules n = stepsFrom n 0 (effective rule.actions) := by
        simp only [ruleSteps, actions, hrule]
      rw [addRule, pool_chain, hw, stepsBelow_succ, hactions, List.map_append]
      exact after_ofCalls _ _
    · rw [← List.drop_drop, hrest]
      rfl

theorem pool_addRules (rules : List Rule) :
    (({} : Wiring).addRules 0 rules).pool = ofCalls (calls rules) :=
  pool_addRules_drop rfl rfl (Nat.zero_le _)

end Wiring

/-! ## No id is taken -/

namespace Carried

variable {rules : List Rule} {done : List Step} {p : Pool} {s : Step}

/-- The id of a step with a block of its own is not that of an earlier step. -/
theorem own_fresh (h : Carried rules done p) (hpre : done ++ [s] <+: steps rules)
    (hown : s.action.isShared = false) : stageId rules s ∉ p.blocks.map Block.id := by
  rw [h.mem_ids_iff]
  rintro ⟨t, ht, heq⟩
  have hs : s ∈ steps rules := hpre.subset (List.mem_append_right _ List.mem_cons_self)
  have hsame : t = s :=
    (stageId_eq_iff_of_own hs (hpre.subset (List.mem_append_left _ ht)) hown).mp heq
  have hnodup : (done ++ [s]).Nodup := hpre.sublist.nodup (nodup_steps rules)
  exact List.disjoint_of_nodup_append hnodup ht (List.mem_singleton.mpr hsame)

/-- What the call of the next step is there to add has an id that is free. -/
theorem fresh_of_brings (h : Carried rules done p) (hpre : done ++ [s] <+: steps rules) {b : Block}
    (hb : s.call.Brings p b) : b.id ∉ p.blocks.map Block.id := by
  have hown := h.own_fresh hpre
  unfold Step.call at hb
  cases ha : s.action with
  | alert message | log message =>
    simp only [ha] at hb
    simp only [stageId, ha, Action.isShared] at hown
    cases hb
    exact hown trivial
  | output interface =>
    have hdone : ∀ t ∈ done, t ∈ steps rules := fun t ht => hpre.subset (List.mem_append_left _ ht)
    have hs : s ∈ steps rules := hpre.subset (List.mem_append_right _ List.mem_cons_self)
    simp only [ha] at hb
    cases hb with
    | output hsink =>
      have hnone : done.find? (·.action = .output interface) = none := by
        rwa [h.sink?_eq, Option.map_eq_none_iff] at hsink
      have hfresh := h.output_fresh hdone hs ha hnone
      rwa [stageId_first hpre ha hnone] at hfresh
  | drop | unknown kind =>
    simp only [ha] at hb
    cases hb

/-- The call of the next step carries it out. -/
theorem call (h : Carried rules done p) (hpre : done ++ [s] <+: steps rules) :
    Carried rules (done ++ [s]) (s.call.apply p) := by
  have hdone : ∀ t ∈ done, t ∈ steps rules := fun t ht => hpre.subset (List.mem_append_left _ ht)
  have hs : s ∈ steps rules := hpre.subset (List.mem_append_right _ List.mem_cons_self)
  have hregister := h.register hdone hs
  unfold Step.call
  cases ha : s.action with
  | alert message | log message | drop | unknown kind =>
    have hnext := hregister (by simp [ha])
    simp only [stage, stageId, stageKind, ha] at hnext
    exact hnext
  | output interface => exact (h.output hpre ha).2

end Carried

/-- The calls of the first steps leave a pool with the blocks of these steps. -/
theorem carried_ofCalls {rules : List Rule} {done : List Step} (hpre : done <+: steps rules) :
    Carried rules done (ofCalls (done.map Step.call)) := by
  induction done using List.reverseRecOn with
  | nil => exact .empty rules
  | append_singleton done s ih =>
    rw [List.map_append, List.map_singleton, ofCalls_concat]
    exact (ih ((List.prefix_append _ _).trans hpre)).call hpre

/-- A call adds the block that it brings if its id is free. -/
theorem PoolCall.Brings.blocks_apply {p : Pool} {call : PoolCall} {b : Block} (hb : call.Brings p b)
    (hp : p.Indexed) (hfresh : b.id ∉ p.blocks.map Block.id) :
    (call.apply p).blocks = p.blocks ++ [b] := by
  cases hb with
  | alert | log => exact blocks_register_new hp hfresh
  | output hsink =>
    show (p.output _ b).2.blocks = _
    rw [output_of_none hsink, blocks_serve]
    exact blocks_register_new hp hfresh

/-- Ids that are made for actions are the same only for the same kind, rule and step, and none is a fixed
one. A compilation calls its pool once for each step, and every call that registers an alert or a log, or
makes the block for an interface, adds that block: its id is never taken. -/
theorem registrations_never_clash :
    (∀ kind ∈ actionKinds, ∀ kind' ∈ actionKinds, ∀ i j i' j' : Nat,
      actionId kind i j = actionId kind' i' j' ↔ kind = kind' ∧ i = i' ∧ j = j') ∧
    (∀ kind ∈ actionKinds, ∀ i j : Nat, actionId kind i j ∉ fixedIds) ∧
    (∀ (w : Wiring) (rule : Nat) (tail : ChainEnd) (as : List Action),
      (w.chain rule tail as).pool =
        w.pool.after ((stepsFrom rule tail.step (effective as)).map Step.call)) ∧
    ∀ rules : List Rule,
      (({} : Wiring).addRules 0 rules).pool = ofCalls (calls rules) ∧
      ∀ before call rest b, calls rules = before ++ call :: rest → call.Brings (ofCalls before) b →
        (call.apply (ofCalls before)).blocks = (ofCalls before).blocks ++ [b] := by
  refine ⟨fun kind hk kind' hk' i j i' j' => ⟨actionId_inj hk hk', ?_⟩,
    fun kind hk i j hid => actionId_ne_fixed hk hid i j rfl,
    fun w rule tail as => Wiring.pool_chain rule as tail w,
    fun rules => ⟨Wiring.pool_addRules rules, fun before call rest b hcalls hb => ?_⟩⟩
  · rintro ⟨rfl, rfl, rfl⟩
    rfl
  · -- The calls before this one are those of the steps before its step.
    obtain ⟨done, more, hsteps, rfl, hmore⟩ := List.map_eq_append_iff.mp hcalls
    obtain ⟨s, later, rfl, rfl, -⟩ := List.map_eq_cons_iff.mp hmore
    have hpre : done ++ [s] <+: steps rules := ⟨later, by rw [hsteps, List.append_assoc]; rfl⟩
    have h := carried_ofCalls ((List.prefix_append _ _).trans hpre)
    exact hb.blocks_apply h.indexed (h.fresh_of_brings hpre hb)

end PolicyGraph
