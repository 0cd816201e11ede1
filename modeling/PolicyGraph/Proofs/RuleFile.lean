import Mathlib
import PolicyGraph.Deployment
import PolicyGraph.Proofs.Readers

/-!
# What is read from a rule file

The rules of a file that is accepted are all that its document lists: `listsRules_of_parseRules` says so
of every reader and every file with rules, item by item.
-/

namespace PolicyGraph

open Yaml (Reader Document Node)
open Yaml.Reading (Yields)

/-- The text is one document whose only field lists the rules: every item of the list is read as the
rule of the same number, and none is left out. -/
def ListsRules {π σ : Type} (r : Reader π σ) (text : String) (rules : List Rule) : Prop :=
  ∃ root value items, (r.Opens text root ∧ r.Record root [("rules", value)]) ∧
    Yields (r.items value) items ∧
    List.Forall₂ (fun item rule => Yields (Rule.ofPlace r item) rule) items rules

section Parsing

variable {π σ : Type} {r : Reader π σ} {text : String} {rules : List Rule} {p : π}

theorem parseRules_eq_ok_iff :
    parseRules r text = .ok rules ↔
      (Text.isBlankText text = true ∧ rules = []) ∨
      (Text.isBlankText text = false ∧ r.decode text (Rule.listOfPlace r) = .ok rules) := by
  rw [parseRules, Rule.listOfYaml]
  cases Text.isBlankText text with
  | true => simp [Except.mapError, eq_comm]
  | false => cases hdecode : r.decode text (Rule.listOfPlace r) <;> simp [Except.mapError]

theorem yields_itemsOfPlace (h : Yields (Rule.itemsOfPlace r p) rules) :
    ∃ items, Yields (r.items p) items ∧
      List.Forall₂ (fun item rule => Yields (Rule.ofPlace r item) rule) items rules := by
  obtain ⟨items, hitems, h⟩ := h.bind
  exact ⟨items, hitems, h.mapM⟩

/-- A rule file has no field, or only the one that lists the rules. -/
theorem yields_listOfPlace (h : Yields (Rule.listOfPlace r p) rules) :
    (r.Record p [] ∧ rules = []) ∨
      ∃ value, r.Record p [("rules", value)] ∧ Yields (Rule.itemsOfPlace r value) rules := by
  obtain ⟨lists, hfields, h⟩ := h.bind
  obtain rfl := h.eq_of_pure
  obtain ⟨written, hrecord, ⟨hnodup, hnames⟩, hread⟩ := Reader.yields_fields hfields
  cases hread with
  | nil => exact .inl ⟨hrecord, rfl⟩
  | @cons field list _ _ hlist hrest =>
    obtain ⟨name, value⟩ := field
    obtain rfl := List.mem_singleton.mp (hnames name List.mem_cons_self)
    cases hrest with
    | nil => exact .inr ⟨value, hrecord, by simpa using hlist⟩
    | cons =>
      -- A second field would be the same one.
      have hsame := List.mem_singleton.mp (hnames _ (List.mem_cons_of_mem _ List.mem_cons_self))
      rw [List.map_cons, List.map_cons, hsame] at hnodup
      exact absurd List.mem_cons_self (List.nodup_cons.mp hnodup).1

/-- A file is accepted as a whole: whatever rules it gives are all that its document lists. -/
theorem listsRules_of_parseRules (h : parseRules r text = .ok rules) (hne : rules ≠ []) :
    ListsRules r text rules := by
  rcases parseRules_eq_ok_iff.mp h with ⟨-, hnil⟩ | ⟨-, hdecode⟩
  · exact absurd hnil hne
  · obtain ⟨root, hopens, hlist⟩ := Reader.yields_of_decode hdecode
    rcases yields_listOfPlace hlist with ⟨-, hnil⟩ | ⟨value, hrecord, hitems⟩
    · exact absurd hnil hne
    · obtain ⟨items, hitems, hall⟩ := yields_itemsOfPlace hitems
      exact ⟨root, value, items, ⟨hopens, hrecord⟩, hitems, hall⟩

/-- What the program reads from a rule file whose document is known. -/
theorem parseRules_of_document {doc : Document} (hblank : Text.isBlankText text = false)
    (hdoc : Document.ofText? text = some doc)
    (hread : (Rule.listOfPlace Document.reader ⟨doc, [], doc.root⟩).run doc.aliasLimit =
      .ok (rules, doc.aliasLimit)) : parseRules Document.reader text = .ok rules :=
  parseRules_eq_ok_iff.mpr (.inr ⟨hblank, Document.decode_eq_ok hdoc hread⟩)

/-- A text has no other rules than those it is parsed as. -/
theorem eq_of_parseRules (h : parseRules r text = .ok rules) {text' : String} {rules' : List Rule}
    (htext : (.ok text : Except FileFault String) = .ok text') (h' : parseRules r text' = .ok rules') :
    rules' = rules := by
  rw [← Except.ok.inj htext, h] at h'
  exact (Except.ok.inj h').symm

end Parsing

/-! ## A small rule file -/

/-- One rule, which logs and then drops. -/
def sampleText : String := "rules: [{actions: [{type: LOG}, {type: drop}]}]"

def sampleRules : List Rule := [{ actions := [.log "", .drop] }]

/-- The document of the sample. -/
def sampleDocument : Document :=
  let typed (kind : String) : Node := .mapping {} [(.scalar {} .plain "type", .scalar {} .plain kind)]
  .ofRoot (.mapping {} [(.scalar {} .plain "rules", .sequence {} [.mapping {}
    [(.scalar {} .plain "actions", .sequence {} [typed "LOG", typed "drop"])]])])

theorem parseRules_sampleText : parseRules Document.reader sampleText = .ok sampleRules := by
  have hdoc : Document.ofText? sampleText = some sampleDocument :=
    Document.ofText?_of_tokens (by cbv) (by cbv)
  exact parseRules_of_document (by decide) hdoc (by cbv)

end PolicyGraph
