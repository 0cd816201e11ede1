import Mathlib.Data.List.Nodup
import Mathlib.Data.List.Perm.Subperm
import PolicyGraph.Proofs.Places
import PolicyGraph.Proofs.RuleFile

/-!
# Which constraints a rule file gives

Every rule of a file that is accepted comes from one entry of its list, and the header match of the rule
from the mapping that is written there (`Rule.Writes`). Of two values for one field only the later is
kept, so that a match has all that is written just if no field is written twice
(`constraints_kept_iff_distinct`). The file is accepted all the same. What is written is one list, unless
the reader finds different things at one place, which that of the program does not.
-/

namespace PolicyGraph

open Yaml (Reader Document Node)
open Yaml.Reading (Yields)

/-! ## Matches and their constraints -/

namespace HeaderMatch

variable {m : HeaderMatch} {f : HeaderField} {v : String} {cs : List (HeaderField × String)}

/-- The value stands in the last constraint for the field. -/
def LastFor (f : HeaderField) (v : String) (cs : List (HeaderField × String)) : Prop :=
  ∃ before after, cs = before ++ (f, v) :: after ∧ f ∉ after.map Prod.fst

theorem lastFor_concat_iff {c : HeaderField × String} :
    LastFor f v (cs ++ [c]) ↔ c = (f, v) ∨ (c.1 ≠ f ∧ LastFor f v cs) := by
  constructor
  · rintro ⟨before, after, heq, hafter⟩
    rcases List.eq_nil_or_concat after with rfl | ⟨after, last, rfl⟩
    · exact .inl (List.singleton_inj.mp (List.append_inj' heq rfl).2)
    · rw [List.concat_eq_append, ← List.cons_append, ← List.append_assoc] at heq
      obtain ⟨rfl, hlast⟩ := List.append_inj' heq rfl
      obtain rfl := List.singleton_inj.mp hlast
      simp only [List.concat_eq_append, List.map_append, List.mem_append, List.map_singleton,
        List.mem_singleton, not_or] at hafter
      exact .inr ⟨Ne.symm hafter.2, before, after, rfl, hafter.1⟩
  · rintro (rfl | ⟨hne, before, after, rfl, hafter⟩)
    · exact ⟨cs, [], rfl, List.not_mem_nil⟩
    · refine ⟨before, after ++ [c], by simp, ?_⟩
      simp [hafter, Ne.symm hne]

/-- In a match made of constraints the last one for a field counts. -/
theorem get_ofConstraints : (ofConstraints cs).get f = some v ↔ LastFor f v cs := by
  induction cs using List.reverseRecOn with
  | nil =>
    constructor
    · intro h
      cases h
    · rintro ⟨before, after, heq, -⟩
      exact absurd heq.symm (by simp)
  | append_singleton cs c ih =>
    rw [lastFor_concat_iff, ofConstraints, List.foldl_append]
    show ((ofConstraints cs).require c.1 c.2).get f = some v ↔ _
    rw [get_require]
    by_cases hf : f = c.1
    · subst hf
      rw [if_pos rfl, Option.some.injEq]
      simp [Prod.ext_iff]
    · have hne : c ≠ (f, v) := by
        rintro rfl
        exact hf rfl
      simp [hf, hne, Ne.symm hf, ih]

theorem mem_constraints : (f, v) ∈ m.constraints ↔ m.get f = some v := by
  simp [constraints]

theorem nodup_fields_constraints (m : HeaderMatch) : (m.constraints.map Prod.fst).Nodup := by
  have hfields : m.constraints.map Prod.fst = HeaderField.all.filter fun f => (m.get f).isSome := by
    rw [constraints, List.map_filterMap, ← List.filterMap_eq_filter]
    refine List.filterMap_congr fun f _ => ?_
    cases h : m.get f <;> simp [Option.guard, h]
  rw [hfields]
  exact List.Nodup.filter _ (by decide)

theorem mem_of_lastFor (h : LastFor f v cs) : (f, v) ∈ cs := by
  obtain ⟨before, after, rfl, -⟩ := h
  exact List.mem_append_right _ List.mem_cons_self

theorem lastFor_of_mem (hcs : (cs.map Prod.fst).Nodup) (h : (f, v) ∈ cs) : LastFor f v cs := by
  obtain ⟨before, after, rfl⟩ := List.append_of_mem h
  refine ⟨before, after, rfl, ?_⟩
  rw [List.map_append, List.map_cons] at hcs
  exact (List.nodup_cons.mp hcs.of_append_right).1

/-- A match has no constraints but those that it is made of. -/
theorem constraints_subperm (cs : List (HeaderField × String)) :
    (ofConstraints cs).constraints.Subperm cs := by
  refine List.subperm_of_subset (nodup_fields_constraints _).of_map ?_
  rintro ⟨f, v⟩ h
  exact mem_of_lastFor (get_ofConstraints.mp (mem_constraints.mp h))

/-- It has all of them just if no field occurs twice. -/
theorem constraints_perm_iff : (ofConstraints cs).constraints.Perm cs ↔ (cs.map Prod.fst).Nodup := by
  constructor
  · exact fun h => (h.map Prod.fst).nodup_iff.mp (nodup_fields_constraints _)
  · intro hcs
    refine (List.perm_ext_iff_of_nodup (nodup_fields_constraints _).of_map hcs.of_map).mpr ?_
    rintro ⟨f, v⟩
    rw [mem_constraints, get_ofConstraints]
    exact ⟨mem_of_lastFor, lastFor_of_mem hcs⟩

/-- Otherwise it has fewer. -/
theorem size_lt_iff : (ofConstraints cs).size < cs.length ↔ ¬ (cs.map Prod.fst).Nodup := by
  have hsub := constraints_subperm cs
  rw [← constraints_perm_iff, size]
  constructor
  · exact fun hlt hperm => Nat.ne_of_lt hlt hperm.length_eq
  · intro hnot
    refine Nat.lt_of_le_of_ne hsub.length_le fun heq => hnot ?_
    exact hsub.perm_of_length_le (Nat.le_of_eq heq.symm)

end HeaderMatch

/-! ## What is written -/

section Writing

variable {π σ : Type} (r : Reader π σ)

/-- The entry of the mapping at `p` names the field and has the text of the value. -/
def HeaderMatch.Demands (p : π) (entry : π × π) (c : HeaderField × String) : Prop :=
  Yields (r.named p HeaderField.names HeaderField.ofName? entry.1) c.1 ∧ Yields (r.text entry.2) c.2

/-- What the entries of a mapping demand, in the order in which they are written. -/
def HeaderMatch.Writes (p : π) (cs : List (HeaderField × String)) : Prop :=
  ∃ entries, Yields (r.entries "a map" p) entries ∧ List.Forall₂ (Demands r p) entries cs

/-- The constraints that are written in an entry of the list of rules: those of its only match, or none if
it has no match. -/
inductive Rule.Writes (item : π) : List (HeaderField × String) → Prop
  | constraints {written : List (String × π)} {value : π} {cs : List (HeaderField × String)} :
      r.Record item written → (written.map Prod.fst).Nodup → ("match", value) ∈ written →
      HeaderMatch.Writes r value cs → Rule.Writes item cs
  | nothing {written : List (String × π)} :
      r.Record item written → "match" ∉ written.map Prod.fst → Rule.Writes item []

/-- The entries of the list of rules in the text of a rule file. -/
inductive ListsItems (text : String) : List π → Prop
  | blank : Text.isBlankText text = true → ListsItems text []
  | empty {root : π} : Text.isBlankText text = false → r.Opens text root → r.Record root [] →
      ListsItems text []
  | list {root value : π} {items : List π} : Text.isBlankText text = false → r.Opens text root →
      r.Record root [("rules", value)] → Yields (r.items value) items → ListsItems text items

variable {r} {p item : π} {cs cs' : List (HeaderField × String)} {text : String} {items items' : List π}

theorem HeaderMatch.Writes.unique (hr : r.Steady) (h : HeaderMatch.Writes r p cs)
    (h' : HeaderMatch.Writes r p cs') : cs = cs' := by
  obtain ⟨entries, hentries, hall⟩ := h
  obtain ⟨entries', hentries', hall'⟩ := h'
  obtain rfl := hr.entries _ _ _ _ _ hentries hentries'
  refine List.right_unique_forall₂' ?_ hall hall'
  rintro entry c c' ⟨hfield, hvalue⟩ ⟨hfield', hvalue'⟩
  exact Prod.ext (hr.named _ _ hfield hfield') (hr.text _ _ _ hvalue hvalue')

/-- One list of constraints is written in an entry. -/
theorem Rule.Writes.unique (hr : r.Steady) (h : Rule.Writes r item cs) (h' : Rule.Writes r item cs') :
    cs = cs' := by
  cases h with
  | constraints hrecord hnodup hmem hcs =>
    cases h' with
    | constraints hrecord' _ hmem' hcs' =>
      obtain rfl := hr.record_unique hrecord hrecord'
      obtain rfl := (Prod.mk.inj (List.inj_on_of_nodup_map hnodup hmem hmem' rfl)).2
      exact hcs.unique hr hcs'
    | nothing hrecord' hnone =>
      obtain rfl := hr.record_unique hrecord hrecord'
      exact absurd (List.mem_map_of_mem hmem) hnone
  | nothing hrecord hnone =>
    cases h' with
    | constraints hrecord' _ hmem' _ =>
      obtain rfl := hr.record_unique hrecord hrecord'
      exact absurd (List.mem_map_of_mem hmem') hnone
    | nothing => rfl

/-- A rule file has one list of rules. -/
theorem ListsItems.unique (hr : r.Steady) (h : ListsItems r text items) (h' : ListsItems r text items') :
    items = items' := by
  cases h with
  | blank hblank =>
    cases h' with
    | blank => rfl
    | empty htext | list htext => simp [hblank] at htext
  | empty htext hopens hrecord =>
    cases h' with
    | blank | empty => rfl
    | list _ hopens' hrecord' =>
      obtain rfl := hopens.unique hopens'
      cases hr.record_unique hrecord hrecord'
  | list htext hopens hrecord hitems =>
    cases h' with
    | blank hblank => simp [hblank] at htext
    | empty _ hopens' hrecord' =>
      obtain rfl := hopens.unique hopens'
      cases hr.record_unique hrecord hrecord'
    | list _ hopens' hrecord' hitems' =>
      obtain rfl := hopens.unique hopens'
      cases hr.record_unique hrecord hrecord'
      exact hr.items _ _ _ hitems hitems'

end Writing

section Reading

variable {π σ : Type} {r : Reader π σ} {p value : π} {name : String} {m : HeaderMatch} {rule : Rule}
  {field : Rule.Field} {text : String} {rules : List Rule}

/-- A match is made of what its mapping demands. -/
theorem HeaderMatch.writes_of_ofPlace (h : Yields (HeaderMatch.ofPlace r p) m) :
    ∃ cs, Writes r p cs ∧ m = ofConstraints cs := by
  obtain ⟨cs, hcs, h⟩ := h.bind
  obtain ⟨entries, hentries, hcs⟩ := hcs.bind
  refine ⟨cs, ⟨entries, hentries, hcs.mapM.imp ?_⟩, h.eq_of_pure.symm⟩
  rintro entry ⟨f, v⟩ hentry
  obtain ⟨f', hf, hentry⟩ := hentry.bind
  obtain ⟨v', hv, hentry⟩ := hentry.bind
  obtain ⟨rfl, rfl⟩ := Prod.mk.inj hentry.eq_of_pure
  exact ⟨hf, hv⟩

/-- Only the field for the match changes it. -/
theorem Rule.headerMatch_of_fieldOfPlace (h : Yields (Field.ofPlace r p name value) field) :
    (name = "match" ∧ ∃ m, Yields (HeaderMatch.ofPlace r value) m ∧ field = .headerMatch m) ∨
      (name ≠ "match" ∧ ∀ rule : Rule, (rule.put field).headerMatch = rule.headerMatch) := by
  unfold Field.ofPlace at h
  split at h
  · obtain ⟨m, hm, h⟩ := h.bind
    exact .inl ⟨rfl, m, hm, h.eq_of_pure.symm⟩
  · obtain ⟨priority, -, h⟩ := h.bind
    exact .inr ⟨by decide, fun rule => h.eq_of_pure ▸ rfl⟩
  · next hmatch _ =>
    obtain ⟨actions, -, h⟩ := h.bind
    exact .inr ⟨hmatch, fun rule => h.eq_of_pure ▸ rfl⟩

/-- The match after all fields is the one that is written, or the one at the start. -/
theorem Rule.headerMatch_foldl_put (rule : Rule) {written : List (String × π)} {fields : List Field}
    (hread : List.Forall₂ (fun w field => Yields (Field.ofPlace r p w.1 w.2) field) written fields)
    (hnodup : (written.map Prod.fst).Nodup) :
    (∀ value, ("match", value) ∈ written →
      Yields (HeaderMatch.ofPlace r value) (fields.foldl put rule).headerMatch) ∧
    ("match" ∉ written.map Prod.fst → (fields.foldl put rule).headerMatch = rule.headerMatch) := by
  induction hread generalizing rule with
  | nil => exact ⟨fun _ hmem => absurd hmem List.not_mem_nil, fun _ => rfl⟩
  | @cons w field written fields hfield _ ih =>
    obtain ⟨name, place⟩ := w
    rw [List.map_cons, List.nodup_cons] at hnodup
    obtain ⟨hmem, hnot⟩ := ih (rule.put field) hnodup.2
    rcases headerMatch_of_fieldOfPlace hfield with ⟨rfl, m, hm, rfl⟩ | ⟨hname, hkept⟩
    · -- The field for the match: it does not come again.
      refine ⟨fun value hvalue => ?_, fun hno => absurd List.mem_cons_self hno⟩
      rcases List.mem_cons.mp hvalue with heq | hvalue
      · obtain ⟨-, rfl⟩ := Prod.mk.inj heq
        rw [List.foldl_cons, hnot hnodup.1]
        exact hm
      · exact absurd (List.mem_map_of_mem hvalue) hnodup.1
    · refine ⟨fun value hvalue => ?_, fun hno => ?_⟩
      · rcases List.mem_cons.mp hvalue with heq | hvalue
        · exact absurd (Prod.mk.inj heq).1.symm hname
        · exact hmem value hvalue
      · rw [List.foldl_cons, hnot fun hmem => hno (List.mem_cons_of_mem _ hmem), hkept]

/-- The match of a rule is made of the constraints that are written for it. -/
theorem Rule.writes_of_ofPlace (h : Yields (Rule.ofPlace r p) rule) :
    ∃ cs, Writes r p cs ∧ rule.headerMatch = .ofConstraints cs := by
  obtain ⟨fields, hfields, h⟩ := h.bind
  obtain rfl := h.eq_of_pure
  obtain ⟨written, hrecord, ⟨hnodup, -⟩, hread⟩ := Reader.yields_fields hfields
  obtain ⟨hmem, hnot⟩ := headerMatch_foldl_put {} hread hnodup
  by_cases hmatch : "match" ∈ written.map Prod.fst
  · obtain ⟨⟨_, value⟩, hvalue, rfl⟩ := List.mem_map.mp hmatch
    obtain ⟨cs, hwrites, hcs⟩ := HeaderMatch.writes_of_ofPlace (hmem value hvalue)
    exact ⟨cs, .constraints hrecord hnodup hvalue hwrites, hcs⟩
  · exact ⟨[], .nothing hrecord hmatch, hnot hmatch⟩

/-- The rules of a file that is accepted are read from the entries of its list, one from each. -/
theorem listsItems_of_parseRules (h : parseRules r text = .ok rules) :
    ∃ items, ListsItems r text items ∧
      List.Forall₂ (fun item rule => Yields (Rule.ofPlace r item) rule) items rules := by
  rcases parseRules_eq_ok_iff.mp h with ⟨hblank, rfl⟩ | ⟨htext, hdecode⟩
  · exact ⟨[], .blank hblank, .nil⟩
  · obtain ⟨root, hopens, hlist⟩ := Reader.yields_of_decode hdecode
    rcases yields_listOfPlace hlist with ⟨hrecord, rfl⟩ | ⟨value, hrecord, hitems⟩
    · exact ⟨[], .empty htext hopens hrecord, .nil⟩
    · obtain ⟨items, hitems, hall⟩ := yields_itemsOfPlace hitems
      exact ⟨items, .list htext hopens hrecord hitems, hall⟩

end Reading

open HeaderMatch

/-- Every rule of an accepted file comes from the entry of its number in the list. Its match demands of
each field the last value that is written for it there, and nothing else; it has all that is written just
if no field is written twice, and fewer constraints otherwise. What is written is what the entries of the
mapping have, one after the other, to whatever reader is used, and to a steady reader it is one list. -/
theorem constraints_kept_iff_distinct {π σ : Type} {r : Reader π σ} {text : String} {rules : List Rule}
    (h : parseRules r text = .ok rules) :
    (∃ items, ListsItems r text items ∧ List.Forall₂ (fun item rule =>
      ∃ written, Rule.Writes r item written ∧
        (∀ f v, rule.headerMatch.get f = some v ↔ LastFor f v written) ∧
        (rule.headerMatch.constraints.Perm written ↔ (written.map Prod.fst).Nodup) ∧
        (rule.headerMatch.size < written.length ↔ ¬ (written.map Prod.fst).Nodup)) items rules) ∧
    (r.Steady →
      (∀ items items', ListsItems r text items → ListsItems r text items' → items = items') ∧
      ∀ item written written', Rule.Writes r item written → Rule.Writes r item written' →
        written = written') := by
  obtain ⟨items, hitems, hread⟩ := listsItems_of_parseRules h
  refine ⟨⟨items, hitems, hread.imp fun item rule hrule => ?_⟩, fun hr => ⟨?_, ?_⟩⟩
  · obtain ⟨written, hwrites, hmatch⟩ := Rule.writes_of_ofPlace hrule
    rw [hmatch]
    exact ⟨written, hwrites, fun _ _ => get_ofConstraints, constraints_perm_iff, size_lt_iff⟩
  · exact fun items items' => ListsItems.unique hr
  · exact fun item written written' => Rule.Writes.unique hr

/-! ## A rule file that writes a field twice -/

/-- Two rules. The first constrains two fields, the second constrains one of them twice. -/
def pairsText : String :=
  "rules: [{match: {tcp_dst: a, udp_dst: b}}, {match: {tcp_dst: c, tcp_dst: d}}]"

def pairsRules : List Rule :=
  [{ headerMatch := .ofConstraints [(.tcpDst, "a"), (.udpDst, "b")] },
    { headerMatch := .ofConstraints [(.tcpDst, "c"), (.tcpDst, "d")] }]

def pairsDocument : Document :=
  let field (name value : String) : Node × Node := (.scalar {} .plain name, .scalar {} .plain value)
  let item (entries : List (Node × Node)) : Node :=
    .mapping {} [(.scalar {} .plain "match", .mapping {} entries)]
  .ofRoot (.mapping {} [(.scalar {} .plain "rules", .sequence {}
    [item [field "tcp_dst" "a", field "udp_dst" "b"],
      item [field "tcp_dst" "c", field "tcp_dst" "d"]])])

theorem ofText?_pairsText : Document.ofText? pairsText = some pairsDocument :=
  Document.ofText?_of_tokens (by cbv) (by cbv)

theorem parseRules_pairsText : parseRules Document.reader pairsText = .ok pairsRules :=
  parseRules_of_document (by decide) ofText?_pairsText rfl

/-- Both constraints of the first rule are among those that are written for it. -/
theorem pairsText_first_kept :
    parseRules Document.reader pairsText = .ok pairsRules ∧ Document.reader.Steady ∧
      ∃ items item written, ListsItems Document.reader pairsText items ∧ items[0]? = some item ∧
        (∀ written', Rule.Writes Document.reader item written' ↔ written' = written) ∧
        (.tcpDst, "a") ∈ written ∧ (.udpDst, "b") ∈ written := by
  obtain ⟨⟨items, hitems, hall⟩, hunique⟩ := constraints_kept_iff_distinct parseRules_pairsText
  obtain ⟨-, hwritten⟩ := hunique Document.steady_reader
  obtain ⟨item, rest, ⟨written, hwrites, hget, -⟩, -, rfl⟩ := List.forall₂_cons_right_iff.mp hall
  refine ⟨parseRules_pairsText, Document.steady_reader, _, item, written, hitems, rfl,
    fun written' => ⟨fun h => hwritten item _ _ h hwrites, fun h => h ▸ hwrites⟩, ?_, ?_⟩
  · exact mem_of_lastFor ((hget .tcpDst "a").mp (by decide))
  · exact mem_of_lastFor ((hget .udpDst "b").mp (by decide))

/-- The second rule has lost one. -/
theorem pairsText_second_loses :
    parseRules Document.reader pairsText = .ok pairsRules ∧
      ∃ items item rule, ListsItems Document.reader pairsText items ∧
        (items[1]? = some item ∧ pairsRules[1]? = some rule) ∧
        Rule.Writes Document.reader item [(.tcpDst, "c"), (.tcpDst, "d")] ∧
        rule.headerMatch.constraints = [(.tcpDst, "d")] := by
  have hopens : Document.reader.Opens pairsText ⟨pairsDocument, [], pairsDocument.root⟩ :=
    ⟨pairsDocument.aliasLimit, Document.load_eq_ok ofText?_pairsText⟩
  have hrecord : Document.reader.Record ⟨pairsDocument, [], pairsDocument.root⟩ [("rules", _)] :=
    ⟨"struct RuleFile", _, ⟨0, 0, rfl⟩, .cons ⟨⟨0, 0, rfl⟩, rfl⟩ .nil⟩
  refine ⟨parseRules_pairsText, _, _, _, .list (by decide) hopens hrecord ⟨0, 0, rfl⟩, ⟨rfl, rfl⟩,
    ?_, ?_⟩
  · refine .constraints ⟨"struct Rule", _, ⟨0, 0, rfl⟩, .cons ⟨⟨0, 0, rfl⟩, rfl⟩ .nil⟩
      (List.nodup_singleton _) (List.mem_singleton.mpr rfl) ⟨_, ⟨0, 0, rfl⟩, ?_⟩
    exact .cons ⟨⟨0, 0, rfl⟩, ⟨0, 0, rfl⟩⟩ (.cons ⟨⟨0, 0, rfl⟩, ⟨0, 0, rfl⟩⟩ .nil)
  · decide

end PolicyGraph
