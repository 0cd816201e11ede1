import PolicyGraph.Wiring

/-!
# Ids of blocks

An id that is made for an action tells the kind of its block, the rule and the step, and it is none of
the fixed ids (`actionId_inj`, `actionId_ne_fixed`). The proofs read an id up to its first underscore:
neither the name of a kind nor a decimal numeral holds one.
-/

namespace PolicyGraph

/-- The kinds whose blocks are made for single actions. -/
def actionKinds : List String := ["Alert", "Log", "ToDevice"]

/-- The ids that do not depend on the policy. -/
def fixedIds : List BlockId := [classifierId, discardId, deviceId, dumpId]

/-- The part of an id before its first underscore. -/
def stem (id : BlockId) : List Char := id.toList.takeWhile (· != '_')

namespace IdLemmas

theorem stem_append {s t : String} (hs : '_' ∉ s.toList) (ht : stem t = []) :
    stem (s ++ t) = s.toList := by
  unfold stem at ht ⊢
  rw [String.toList_append, List.takeWhile_append_of_pos, ht, List.append_nil]
  intro c hc
  simpa using ne_of_mem_of_not_mem hc hs

theorem underscore_not_mem_numeral (n : Nat) : '_' ∉ (toString n).toList := by
  intro h
  rw [Nat.toString_eq_repr, Nat.toList_repr] at h
  exact absurd (Nat.isDigit_of_mem_toDigits (by decide) (by decide) h) (by decide)

theorem toString_inj {m n : Nat} (h : toString m = toString n) : m = n := by
  have digits : Nat.toDigits 10 m = Nat.toDigits 10 n := by
    simpa only [Nat.toString_eq_repr, Nat.toList_repr] using congrArg String.toList h
  have read := congrArg (Nat.ofDigitChars 10 · 0) digits
  simpa only [Nat.ofDigitChars_ten_toDigits] using read

/-- The end of an id that is made for an action. -/
def numbers (rule step : Nat) : String := toString rule ++ ("_UID_" ++ toString step)

theorem actionId_eq (kind : String) (rule step : Nat) :
    actionId kind rule step = kind ++ ("_Firewall_Rule_" ++ numbers rule step) := by
  simp only [actionId, numbers, String.append_assoc]

theorem numbers_inj {i j i' j' : Nat} (h : numbers i j = numbers i' j') : i = i' ∧ j = j' := by
  have hi : i = i' := by
    apply toString_inj
    rw [← String.toList_inj]
    rw [← stem_append (t := "_UID_" ++ toString j) (underscore_not_mem_numeral i) (by simp [stem]),
      ← stem_append (t := "_UID_" ++ toString j') (underscore_not_mem_numeral i') (by simp [stem])]
    exact congrArg stem h
  subst hi
  unfold numbers at h
  rw [String.append_right_inj, String.append_right_inj] at h
  exact ⟨rfl, toString_inj h⟩

end IdLemmas

open IdLemmas

/-- An id that is made for an action begins with the kind. -/
theorem stem_actionId {kind : String} (hk : kind ∈ actionKinds) (rule step : Nat) :
    stem (actionId kind rule step) = kind.toList := by
  have hkind : '_' ∉ kind.toList := by
    revert kind
    decide
  rw [actionId_eq]
  exact stem_append hkind (by simp [stem])

/-- An id that is made for an action tells the kind, the rule and the step. -/
theorem actionId_inj {kind kind' : String} (hk : kind ∈ actionKinds) (hk' : kind' ∈ actionKinds)
    {i j i' j' : Nat} (h : actionId kind i j = actionId kind' i' j') :
    kind = kind' ∧ i = i' ∧ j = j' := by
  have hkind : kind = kind' := by
    rw [← String.toList_inj, ← stem_actionId hk i j, ← stem_actionId hk' i' j', h]
  subst hkind
  rw [actionId_eq, actionId_eq, String.append_right_inj, String.append_right_inj] at h
  exact ⟨rfl, numbers_inj h⟩

/-- An id that is made for an action is none of the fixed ones. -/
theorem actionId_ne_fixed {kind : String} (hk : kind ∈ actionKinds) {id : BlockId}
    (hid : id ∈ fixedIds) (i j : Nat) : actionId kind i j ≠ id := by
  intro h
  have hstem : kind.toList = stem id := by rw [← stem_actionId hk i j, h]
  clear h
  revert kind id
  decide

end PolicyGraph
