import PolicyGraph.Proofs.RuleFile

/-!
# Writing rules and reading them back

The actions that come back from their trees are the readable ones, and readers give no others. So a list
of rules that was read, from a tree or from a rule file, is what its own tree is read as
(`comes_back_iff_readable`).
-/

namespace PolicyGraph

open Yaml (Reader Document)
open Yaml.Reading (Yields)

/-! ## Actions -/

namespace Action

/-- The kinds of the actions that have an effect. -/
def knownKinds : List String := ["alert", "log", "drop", "output"]

/-- An output names an interface, and a kind that is not known is not the name of a known one in
whatever ASCII case. -/
def Readable : Action → Prop
  | .output interface => interface ≠ ""
  | .unknown kind => kind.toLower ∉ knownKinds
  | .alert _ | .log _ | .drop => True

end Action

namespace ActionParts

variable {p : ActionParts} {a : Action}

/-- No parts stand for an action that is not readable. -/
theorem readable_of_toAction (h : p.toAction = .ok a) : a.Readable := by
  unfold toAction at h
  split at h
  · cases h
  · -- The four known kinds, and then any other.
    split at h
    · cases h
      trivial
    · cases h
      trivial
    · cases h
      trivial
    · split at h
      · split at h
        · cases h
        · next hnamed =>
          cases h
          simpa [Action.Readable] using hnamed
      · cases h
    · next halert hlog hdrop houtput =>
      cases h
      simp only [Action.Readable, Action.knownKinds, List.mem_cons, List.not_mem_nil, or_false, not_or]
      exact ⟨halert, hlog, hdrop, houtput⟩

theorem toAction_of_not_known {kind : String} (hkind : p.kind = some kind)
    (h : kind.toLower ∉ Action.knownKinds) : p.toAction = .ok (.unknown kind) := by
  simp only [Action.knownKinds, List.mem_cons, List.not_mem_nil, or_false, not_or] at h
  obtain ⟨halert, hlog, hdrop, houtput⟩ := h
  unfold toAction
  -- With none of the four kinds at hand, the match takes its last branch.
  simp only [hkind]

/-- The parts of an action stand for it just if it is readable. -/
theorem toAction_ofAction_iff : (ofAction a).toAction = .ok a ↔ a.Readable := by
  refine ⟨readable_of_toAction, fun h => ?_⟩
  cases a with
  | alert message => cbv
  | log message => cbv
  | drop => cbv
  | output interface =>
    have hkind : "output".toLower = "output" := by cbv
    have hnamed : interface ≠ "" := h
    simp [ofAction, toAction, Action.kind, hkind, hnamed]
  | unknown kind => exact toAction_of_not_known rfl h

theorem ofTree_toTree (h : p.kind.isSome) : ofTree p.toTree = .ok p := by
  obtain ⟨kind, message, interface⟩ := p
  cases kind with
  | none => cases h
  | some kind => cases message <;> cases interface <;> rfl

end ActionParts

namespace Action

variable {π σ : Type} {r : Reader π σ} {a : Action} {t : Tree} {p : π} {actions : List Action}

theorem ofTree_toTree_iff : ofTree a.toTree = .ok a ↔ a.Readable := by
  have hparts : ActionParts.ofTree a.toTree = .ok (.ofAction a) :=
    ActionParts.ofTree_toTree (by cases a <;> rfl)
  rw [ofTree, hparts]
  exact ActionParts.toAction_ofAction_iff

theorem readable_of_ofTree (h : ofTree t = .ok a) : a.Readable := by
  obtain ⟨parts, -, haction⟩ := bind_eq_ok_iff.mp h
  exact ActionParts.readable_of_toAction haction

theorem readable_of_listOfPlace (h : Yields (listOfPlace r p) actions) :
    ∀ a ∈ actions, a.Readable := by
  obtain ⟨items, -, hread⟩ := h.bind
  refine forall_mem_of_forall₂ (fun item a hitem => ?_) hread.mapM
  obtain ⟨parts, -, haction⟩ := hitem.bind
  split at haction
  · next action htoAction =>
    obtain rfl := haction.eq_of_pure
    exact ActionParts.readable_of_toAction htoAction
  · exact absurd haction Reader.not_yields_fail

end Action

/-! ## Header matches and priorities -/

theorem Tree.choice?_text {α : Type} {names : List String} {ofName? : String → Option α} {name : String}
    {a : α} (h : ofName? name = some a) : (text name).choice? names ofName? = .ok a := by
  simp only [choice?, choice?.ofText, h]

theorem Priority.ofTree_toTree (p : Priority) : ofTree p.toTree = .ok p :=
  Tree.choice?_text p.ofName?_name

theorem HeaderField.ofTree_name (f : HeaderField) : ofTree (.text f.name) = .ok f :=
  Tree.choice?_text f.ofName?_name

namespace HeaderMatch

/-- Constraints of a match replace what another one has for the same fields. -/
theorem get_foldl_require (m start : HeaderMatch) (fields : List HeaderField) (f : HeaderField) :
    ((fields.filterMap fun f => (m.get f).map (f, ·)).foldl
        (fun m (f, v) => m.require f v) start).get f =
      if f ∈ fields then (m.get f).or (start.get f) else start.get f := by
  induction fields generalizing start with
  | nil => rfl
  | cons field rest ih =>
    cases hvalue : m.get field with
    | none =>
      simp only [List.filterMap_cons, hvalue, Option.map_none, ih, List.mem_cons]
      by_cases hf : f = field
      · subst hf
        simp [hvalue]
      · simp [hf]
    | some value =>
      simp only [List.filterMap_cons, hvalue, Option.map_some, List.foldl_cons, ih, get_require,
        List.mem_cons]
      by_cases hf : f = field
      · subst hf
        simp [hvalue]
      · simp [hf]

theorem ofConstraints_constraints (m : HeaderMatch) : ofConstraints m.constraints = m := by
  ext1 f
  rw [ofConstraints, constraints, get_foldl_require, if_pos f.mem_all, get_any, Option.or_none]

theorem ofFields_texts (start : HeaderMatch) (cs : List (HeaderField × String)) :
    ofFields start (cs.map fun (f, v) => (f.name, .text v)) =
      .ok (cs.foldl (fun m (f, v) => m.require f v) start) := by
  induction cs generalizing start with
  | nil => rfl
  | cons c rest ih =>
    rw [List.map_cons, ofFields, HeaderField.ofTree_name]
    exact ih (start.require c.1 c.2)

theorem ofTree_toTree (m : HeaderMatch) : ofTree m.toTree = .ok m := by
  calc ofTree m.toTree = .ok (ofConstraints m.constraints) := ofFields_texts any m.constraints
    _ = .ok m := by rw [ofConstraints_constraints]

end HeaderMatch

/-! ## Rules -/

namespace Rule

/-- Every action of the rule is readable. -/
def Readable (r : Rule) : Prop := ∀ a ∈ r.actions, a.Readable

variable {π σ : Type} {reader : Reader π σ} {r : Rule} {rules : List Rule} {t : Tree} {p : π}

theorem ofTree_toTree_iff : ofTree r.toTree = .ok r ↔ r.Readable := by
  have hread : ofTree r.toTree =
      (r.actions.map Action.toTree).mapM Action.ofTree >>= fun actions =>
        .ok { r with actions := actions } := by
    simp only [toTree, ofTree, ofFields, HeaderMatch.ofTree_toTree, Priority.ofTree_toTree, Tree.list?,
      bind, Except.bind, pure, Except.pure]
  have hactions : (r.actions.map Action.toTree).mapM Action.ofTree = .ok r.actions ↔ r.Readable := by
    rw [mapM_map_eq_ok_iff]
    exact forall₂_congr fun a _ => Action.ofTree_toTree_iff
  rw [hread, ← hactions, bind_eq_ok_iff]
  constructor
  · rintro ⟨actions, hmapM, h⟩
    have hsame : actions = r.actions := congrArg Rule.actions (Except.ok.inj h)
    rw [hmapM, hsame]
  · exact fun hmapM => ⟨r.actions, hmapM, rfl⟩

theorem listOfTree_listToTree_iff :
    listOfTree (listToTree rules) = .ok rules ↔ ∀ r ∈ rules, r.Readable := by
  have hread : listOfTree (listToTree rules) = (rules.map toTree).mapM ofTree := rfl
  rw [hread, mapM_map_eq_ok_iff]
  exact forall₂_congr fun r _ => ofTree_toTree_iff

/-! ### Rules that were read -/

theorem readable_of_ofFields {start : Rule} {entries : List (String × Tree)} (hstart : start.Readable)
    (h : ofFields start entries = .ok r) : r.Readable := by
  induction entries generalizing start with
  | nil => exact Except.ok.inj h ▸ hstart
  | cons entry rest ih =>
    unfold ofFields at h
    split at h
    · obtain ⟨m, -, hrest⟩ := bind_eq_ok_iff.mp h
      have hnext : Readable { start with headerMatch := m } := hstart
      exact ih hnext hrest
    · obtain ⟨priority, -, hrest⟩ := bind_eq_ok_iff.mp h
      have hnext : Readable { start with priority := priority } := hstart
      exact ih hnext hrest
    · obtain ⟨items, -, h⟩ := bind_eq_ok_iff.mp h
      obtain ⟨actions, hactions, hrest⟩ := bind_eq_ok_iff.mp h
      have hnext : Readable { start with actions := actions } :=
        forall_mem_of_mapM_eq_ok (fun _ _ => Action.readable_of_ofTree) hactions
      exact ih hnext hrest
    · cases h

theorem readable_default : Readable {} := by
  rintro a (_ | _)

theorem readable_of_ofTree (h : ofTree t = .ok r) : r.Readable := by
  unfold ofTree at h
  split at h
  · exact readable_of_ofFields readable_default h
  · obtain ⟨r', hfields, h⟩ := bind_eq_ok_iff.mp h
    split at h
    · cases h
    · obtain rfl : r' = r := Except.ok.inj h
      exact readable_of_ofFields readable_default hfields
  · cases h

theorem readable_of_listOfTree (h : listOfTree t = .ok rules) : ∀ r ∈ rules, r.Readable := by
  obtain ⟨items, -, hread⟩ := bind_eq_ok_iff.mp h
  exact forall_mem_of_mapM_eq_ok (fun _ _ => readable_of_ofTree) hread

/-- The actions among the fields of a rule are readable. -/
def Field.Readable : Field → Prop
  | .actions list => ∀ a ∈ list, a.Readable
  | .headerMatch _ | .priority _ => True

theorem readable_of_fieldOfPlace {rule value : π} {name : String} {field : Field}
    (h : Yields (Field.ofPlace reader rule name value) field) : field.Readable := by
  unfold Field.ofPlace at h
  split at h
  · obtain ⟨m, -, h⟩ := h.bind
    exact h.eq_of_pure ▸ trivial
  · obtain ⟨priority, -, h⟩ := h.bind
    exact h.eq_of_pure ▸ trivial
  · obtain ⟨actions, hactions, h⟩ := h.bind
    exact h.eq_of_pure ▸ Action.readable_of_listOfPlace hactions

theorem readable_put {field : Field} (h : r.Readable) (hfield : field.Readable) :
    (r.put field).Readable := by
  cases field with
  | headerMatch => exact h
  | priority => exact h
  | actions => exact hfield

theorem readable_foldl_put {fields : List Field} (h : r.Readable)
    (hfields : ∀ field ∈ fields, field.Readable) : (fields.foldl put r).Readable := by
  induction fields generalizing r with
  | nil => exact h
  | cons field rest ih =>
    obtain ⟨hfield, hrest⟩ := List.forall_mem_cons.mp hfields
    exact ih (readable_put h hfield) hrest

theorem readable_of_ofPlace (h : Yields (ofPlace reader p) r) : r.Readable := by
  obtain ⟨fields, hfields, h⟩ := h.bind
  obtain ⟨written, -, -, hread⟩ := Reader.yields_fields hfields
  obtain rfl := h.eq_of_pure
  exact readable_foldl_put readable_default
    (forall_mem_of_forall₂ (fun _ _ => readable_of_fieldOfPlace) hread)

end Rule

theorem readable_of_parseRules {π σ : Type} {reader : Reader π σ} {text : String} {rules : List Rule}
    (h : parseRules reader text = .ok rules) : ∀ r ∈ rules, r.Readable := by
  rcases parseRules_eq_ok_iff.mp h with ⟨-, rfl⟩ | ⟨-, hdecode⟩
  · simp
  · obtain ⟨root, -, hlist⟩ := Reader.yields_of_decode hdecode
    rcases yields_listOfPlace hlist with ⟨-, rfl⟩ | ⟨value, -, hitems⟩
    · simp
    · obtain ⟨items, -, hread⟩ := yields_itemsOfPlace hitems
      exact forall_mem_of_forall₂ (fun _ _ => Rule.readable_of_ofPlace) hread

/-- A list of rules comes back from its tree just if its actions are readable. Whatever is read, from a
tree or by any reader from a rule file, has readable actions, and so it comes back. -/
theorem comes_back_iff_readable (rules : List Rule) :
    (Rule.listOfTree (Rule.listToTree rules) = .ok rules ↔ ∀ r ∈ rules, r.Readable) ∧
    (∀ t, Rule.listOfTree t = .ok rules →
      (∀ r ∈ rules, r.Readable) ∧ Rule.listOfTree (Rule.listToTree rules) = .ok rules) ∧
    ∀ (π σ : Type) (reader : Reader π σ) (text : String), parseRules reader text = .ok rules →
      (∀ r ∈ rules, r.Readable) ∧ Rule.listOfTree (Rule.listToTree rules) = .ok rules := by
  have hback : Rule.listOfTree (Rule.listToTree rules) = .ok rules ↔ ∀ r ∈ rules, r.Readable :=
    Rule.listOfTree_listToTree_iff
  refine ⟨hback, fun t h => ?_, fun π σ reader text h => ?_⟩
  · have hreadable := Rule.readable_of_listOfTree h
    exact ⟨hreadable, hback.mpr hreadable⟩
  · have hreadable := readable_of_parseRules h
    exact ⟨hreadable, hback.mpr hreadable⟩

/-- The rules of the sample as data that leaves out what has a default, in other ASCII case. -/
def sampleTree : Tree :=
  .list [.object [("actions", .list [.object [("type", .text "Log")], .list [.text "DROP"]])]]

theorem sampleText_comes_back :
    (Rule.listOfTree sampleTree = .ok sampleRules ∧ ∀ r ∈ sampleRules, r.Readable) ∧
    (parseRules Document.reader sampleText = .ok sampleRules ∧
      Rule.listOfTree (Rule.listToTree sampleRules) = .ok sampleRules) ∧
    Rule.listOfTree (Rule.listToTree [{ actions := [.unknown "Log"] }]) ≠
      .ok [{ actions := [.unknown "Log"] }] := by
  have htree : Rule.listOfTree sampleTree = .ok sampleRules := by cbv
  obtain ⟨-, hfromTree, hfromText⟩ := comes_back_iff_readable sampleRules
  refine ⟨⟨htree, (hfromTree sampleTree htree).1⟩,
    ⟨parseRules_sampleText, (hfromText _ _ _ sampleText parseRules_sampleText).2⟩, fun h => ?_⟩
  have hreadable := (comes_back_iff_readable _).1.mp h
  have hkind : "Log".toLower = "log" := by cbv
  simp [Rule.Readable, Action.Readable, Action.knownKinds, hkind] at hreadable

end PolicyGraph
