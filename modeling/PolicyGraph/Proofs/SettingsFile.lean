import Mathlib.Data.List.Nodup
import Mathlib.Data.List.Perm.Basic
import PolicyGraph.Proofs.Readers
import PolicyGraph.Settings

/-!
# What a settings file settles

A document that reads as settings is a list of entries with different keys (`Settings.Lists`). Every
setting has the text of its entry, or its default if there is none or it is null, unless an entry is no
scalar: then the first such setting, in the order of `Setting.all`, is refused and nothing is read. The
order in which a reader finds the entries does not count (`Settings.settings_all_or_nothing`).
-/

namespace PolicyGraph

open Yaml (Reader Document Node Value Token)
open Yaml.Reading (Yields)

namespace Setting

/-- What the setting is if this value is written for it. -/
inductive Takes (k : Setting) : Value → String → Prop
  | null : Takes k .null k.default
  | text (s : String) : Takes k (.text s) s
  | number (n : Yaml.Number) : Takes k (.number n) n.text
  | bool (b : Bool) : Takes k (.bool b) (toString b)

theorem Takes.number_iff {k : Setting} {n : Yaml.Number} {t : String} :
    Takes k (.number n) t ↔ t = n.text := by
  constructor
  · rintro ⟨⟩
    rfl
  · rintro rfl
    exact .number n

theorem Takes.text_iff {k : Setting} {s t : String} : Takes k (.text s) t ↔ t = s := by
  constructor
  · rintro ⟨⟩
    rfl
  · rintro rfl
    exact .text t

theorem ofName?_eq_some_iff {k : Setting} {name : String} : ofName? name = some k ↔ name = k.name := by
  constructor
  · intro h
    have hfound := List.find?_some h
    exact (beq_iff_eq.mp hfound).symm
  · rintro rfl
    cases k <;> rfl

theorem ofName?_eq_none_iff {name : String} : ofName? name = none ↔ ∀ k : Setting, name ≠ k.name := by
  rw [Option.eq_none_iff_forall_ne_some]
  exact forall_congr' fun k => not_congr ofName?_eq_some_iff

end Setting

/-! ## Settings from their scalars -/

namespace RawSettings

variable {raw : RawSettings} {k k' : Setting} {v : Value}

@[simp] theorem value?_put_setting :
    (raw.put (.setting k v)).value? k' = if k' = k then some v else raw.value? k' := by
  cases k <;> cases k' <;> rfl

@[simp] theorem value?_put_topology {t : Topology} : (raw.put (.topology t)).value? k = raw.value? k := by
  cases k <;> rfl

@[simp] theorem topology_put_setting : (raw.put (.setting k v)).topology = raw.topology := by
  cases k <;> rfl

theorem scalar_of_none (h : raw.value? k = none) : raw.scalar k = .ok k.default := by
  rw [scalar, h]

/-- A value is taken or refused. -/
theorem scalar_of_some (h : raw.value? k = some v) :
    (∀ t, raw.scalar k = .ok t ↔ k.Takes v t) ∧
      ((∀ t, ¬ k.Takes v t) → raw.scalar k = .error (.setting k.name v)) := by
  rw [scalar, h]
  refine ⟨fun t => ⟨fun ht => ?_, fun ht => ?_⟩, fun hnone => ?_⟩
  · cases v <;> cases ht <;> constructor
  · cases ht <;> rfl
  · cases v with
    | null => exact absurd .null (hnone _)
    | text s => exact absurd (.text s) (hnone _)
    | number n => exact absurd (.number n) (hnone _)
    | bool b => exact absurd (.bool b) (hnone _)
    | sequence | mapping | tagged => rfl

theorem settings_eq_ok_iff {s : Settings} :
    raw.settings = .ok s ↔
      (∀ k : Setting, raw.scalar k = .ok (k.text s)) ∧ s.topology = raw.topology := by
  simp only [RawSettings.settings, bind_eq_ok_iff]
  constructor
  · rintro ⟨segment, hsegment, interface, hinterface, dump, hdump, useInterface, huse, ruleFile,
      hruleFile, h⟩
    rw [← Except.ok.inj h]
    refine ⟨fun k => ?_, rfl⟩
    cases k with
    | segment => exact hsegment
    | interface => exact hinterface
    | dump => exact hdump
    | useInterface => exact huse
    | ruleFile => exact hruleFile
  · rintro ⟨hall, htopology⟩
    refine ⟨_, hall .segment, _, hall .interface, _, hall .dump, _, hall .useInterface, _,
      hall .ruleFile, ?_⟩
    rw [← htopology]
    rfl

/-- The first setting without a text decides on the failure. -/
theorem settings_eq_error_iff {f : Failure} :
    raw.settings = .error f ↔ ∃ earlier k later, Setting.all = earlier ++ k :: later ∧
      (∀ k' ∈ earlier, ∃ t, raw.scalar k' = .ok t) ∧ raw.scalar k = .error f := by
  have hmapM : raw.settings = .error f ↔ Setting.all.mapM raw.scalar = .error f := by
    simp only [RawSettings.settings, Setting.all, List.mapM_cons, List.mapM_nil, bind_eq_error_iff,
      pure, Except.pure, reduceCtorEq, and_false, exists_false, or_false]
  rw [hmapM, mapM_eq_error_iff]

/-- Settings that have these texts. -/
def gather (texts : Setting → String) (topology : Topology) : Settings :=
  { segment := texts .segment
    interface := texts .interface
    dump := texts .dump
    useInterface := texts .useInterface
    ruleFile := texts .ruleFile
    topology }

@[simp] theorem text_gather {texts : Setting → String} {topology : Topology} :
    k.text (gather texts topology) = texts k := by
  cases k <;> rfl

theorem exists_settings_iff :
    (∃ s, raw.settings = .ok s) ↔ ∀ k : Setting, ∃ t, raw.scalar k = .ok t := by
  constructor
  · rintro ⟨s, hs⟩ k
    exact ⟨_, (settings_eq_ok_iff.mp hs).1 k⟩
  · intro h
    choose texts htexts using h
    refine ⟨gather texts raw.topology, settings_eq_ok_iff.mpr ⟨fun k => ?_, rfl⟩⟩
    rw [text_gather]
    exact htexts k

end RawSettings

/-! ## Entries of a settings file -/

namespace SettingsEntry

def key : SettingsEntry → String
  | .setting k _ => k.name
  | .topology _ => "topology"

variable {e e' : SettingsEntry} {es es' : List SettingsEntry} {raw : RawSettings} {k : Setting}
  {v : Value} {t : Topology}

theorem put_comm (h : e.key ≠ e'.key) : (raw.put e).put e' = (raw.put e').put e := by
  cases e with
  | setting k v =>
    cases e' with
    | setting k' v' => cases k <;> cases k' <;> first | rfl | exact absurd rfl h
    | topology t => cases k <;> rfl
  | topology t =>
    cases e' with
    | setting k' v' => cases k' <;> rfl
    | topology t' => exact absurd rfl h

/-- What the entries give does not depend on their order. -/
theorem foldl_put_perm (hperm : es.Perm es') (hnodup : (es.map key).Nodup) :
    es.foldl RawSettings.put raw = es'.foldl RawSettings.put raw := by
  refine hperm.foldl_eq' (fun e he e' he' raw => ?_) raw
  by_cases heq : e = e'
  · rw [heq]
  · refine put_comm fun hkey => heq ?_
    exact List.inj_on_of_nodup_map hnodup he' he hkey.symm |>.symm

/-- An entry counts for as much as if it were the last one. -/
theorem exists_foldl_eq_put (hnodup : (es.map key).Nodup) (he : e ∈ es) :
    ∃ raw' : RawSettings, es.foldl RawSettings.put raw = raw'.put e := by
  obtain ⟨before, after, rfl⟩ := List.append_of_mem he
  have hperm : (before ++ e :: after).Perm (before ++ after ++ [e]) := by
    rw [List.append_assoc]
    exact (List.perm_append_singleton e after).symm.append_left before
  rw [foldl_put_perm hperm hnodup, List.foldl_append]
  exact ⟨_, rfl⟩

/-- What no entry changes is kept. -/
theorem foldl_put_kept {γ : Type} (part : RawSettings → γ)
    (h : ∀ e ∈ es, ∀ raw : RawSettings, part (raw.put e) = part raw) :
    part (es.foldl RawSettings.put raw) = part raw := by
  induction es generalizing raw with
  | nil => rfl
  | cons e rest ih =>
    obtain ⟨he, hrest⟩ := List.forall_mem_cons.mp h
    rw [List.foldl_cons, ih hrest, he]

theorem value?_of_mem (hnodup : (es.map key).Nodup) (h : .setting k v ∈ es) :
    (es.foldl RawSettings.put raw).value? k = some v := by
  obtain ⟨raw', hraw⟩ := exists_foldl_eq_put hnodup h
  rw [hraw, RawSettings.value?_put_setting, if_pos rfl]

theorem value?_of_not_mem (h : ∀ v, .setting k v ∉ es) :
    (es.foldl RawSettings.put raw).value? k = raw.value? k := by
  refine foldl_put_kept (fun raw => raw.value? k) fun e he raw => ?_
  cases e with
  | setting k' v =>
    rw [RawSettings.value?_put_setting, if_neg]
    rintro rfl
    exact h v he
  | topology t => exact RawSettings.value?_put_topology

theorem topology_of_mem (hnodup : (es.map key).Nodup) (h : .topology t ∈ es) :
    (es.foldl RawSettings.put raw).topology = t := by
  obtain ⟨raw', hraw⟩ := exists_foldl_eq_put hnodup h
  rw [hraw, RawSettings.put]

theorem topology_of_not_mem (h : ∀ t, .topology t ∉ es) :
    (es.foldl RawSettings.put raw).topology = raw.topology := by
  refine foldl_put_kept RawSettings.topology fun e he raw => ?_
  cases e with
  | setting k v => exact RawSettings.topology_put_setting
  | topology t => exact absurd he (h t)

/-! ### Reading them -/

variable {π σ : Type} {r : Reader π σ} {p value : π} {name text : String}

/-- An entry is read for the key that it has. -/
theorem key_of_entryOfPlace (hname : name ∈ RawSettings.keys)
    (h : Yields (RawSettings.entryOfPlace r name value) e) : e.key = name := by
  unfold RawSettings.entryOfPlace at h
  split at h
  · next k hk =>
    obtain ⟨v, -, h⟩ := h.bind
    obtain rfl := h.eq_of_pure
    exact (Setting.ofName?_eq_some_iff.mp hk).symm
  · next hnone =>
    obtain ⟨t, -, h⟩ := h.bind
    obtain rfl := h.eq_of_pure
    rcases List.mem_append.mp hname with hsetting | htopology
    · obtain ⟨k, -, rfl⟩ := List.mem_map.mp hsetting
      exact absurd rfl (Setting.ofName?_eq_none_iff.mp hnone k)
    · exact (List.mem_singleton.mp htopology).symm

/-- The entries are read from those of the mapping in their order, and no key is read twice. -/
theorem yields_entriesOfPlace (h : Yields (RawSettings.entriesOfPlace r p) es) :
    ∃ written, r.Record p written ∧
      List.Forall₂ (fun w e => e.key = w.1 ∧ Yields (RawSettings.entryOfPlace r w.1 w.2) e) written es ∧
      (es.map key).Nodup := by
  obtain ⟨written, hrecord, ⟨hnodup, hnames⟩, hread⟩ := Reader.yields_fields h
  have hall : List.Forall₂ (fun w e => e.key = w.1 ∧
      Yields (RawSettings.entryOfPlace r w.1 w.2) e) written es := by
    clear hnodup hrecord h
    induction hread with
    | nil => exact .nil
    | cons hentry _ ih =>
      obtain ⟨hname, hnames⟩ := List.forall_mem_cons.mp hnames
      exact .cons ⟨key_of_entryOfPlace hname hentry, hentry⟩ (ih hnames)
  have hkeys : written.map Prod.fst = es.map key := by
    rw [← List.forall₂_eq_eq_eq, List.forall₂_map_left_iff, List.forall₂_map_right_iff]
    exact hall.imp fun _ _ hentry => hentry.1.symm
  exact ⟨written, hrecord, hall, hkeys ▸ hnodup⟩

end SettingsEntry

/-! ## What a file settles -/

namespace Settings

open SettingsEntry

/-- The text is a document in which the reader finds these entries, in this order, and nothing else. -/
def Lists {π σ : Type} (r : Reader π σ) (text : String) (es : List SettingsEntry) : Prop :=
  Text.isBlankText text = false ∧ r.decode text (RawSettings.entriesOfPlace r) = .ok es

/-- The entries are what the mapping of the document has, from first to last: for every key that is written,
the entry that is read for it. -/
def ReadFrom {π σ : Type} (r : Reader π σ) (text : String) (es : List SettingsEntry) : Prop :=
  ∃ root written, r.Opens text root ∧ r.Record root written ∧
    List.Forall₂ (fun w e => e.key = w.1 ∧ Yields (RawSettings.entryOfPlace r w.1 w.2) e) written es

/-- The settings that entries give: for each setting what its entry says, and else its default. -/
structure SettledBy (es : List SettingsEntry) (s : Settings) : Prop where
  written : ∀ k v, .setting k v ∈ es → k.Takes v (k.text s)
  absent : ∀ k, (∀ v, .setting k v ∉ es) → k.text s = k.default
  topology : ∀ t, .topology t ∈ es → s.topology = t
  noTopology : (∀ t, .topology t ∉ es) → s.topology = .empty

/-- The value is the first, in the order of the settings, that is none a setting can have. -/
def FirstRefused (es : List SettingsEntry) (k : Setting) (v : Value) : Prop :=
  ∃ earlier later, Setting.all = earlier ++ k :: later ∧
    (∀ k' ∈ earlier, ∀ v', .setting k' v' ∈ es → ∃ t, k'.Takes v' t) ∧
    .setting k v ∈ es ∧ ∀ t, ¬ k.Takes v t

section Entries

variable {es : List SettingsEntry} {k : Setting} {v : Value}

theorem scalar_of_mem (hnodup : (es.map key).Nodup) (h : .setting k v ∈ es) :
    (∀ t, (es.foldl RawSettings.put {}).scalar k = .ok t ↔ k.Takes v t) ∧
      ((∀ t, ¬ k.Takes v t) →
        (es.foldl RawSettings.put {}).scalar k = .error (.setting k.name v)) :=
  RawSettings.scalar_of_some (value?_of_mem hnodup h)

theorem scalar_of_not_mem (h : ∀ v, .setting k v ∉ es) :
    (es.foldl RawSettings.put {}).scalar k = .ok k.default := by
  refine RawSettings.scalar_of_none ((value?_of_not_mem h).trans ?_)
  cases k <;> rfl

/-- A setting has a text unless its entry has a value that no setting takes. -/
theorem exists_scalar_iff (hnodup : (es.map key).Nodup) :
    (∃ t, (es.foldl RawSettings.put {}).scalar k = .ok t) ↔
      ∀ v, .setting k v ∈ es → ∃ t, k.Takes v t := by
  constructor
  · rintro ⟨t, ht⟩ v hv
    exact ⟨t, ((scalar_of_mem hnodup hv).1 t).mp ht⟩
  · intro h
    by_cases hmem : ∃ v, .setting k v ∈ es
    · obtain ⟨v, hv⟩ := hmem
      obtain ⟨t, ht⟩ := h v hv
      exact ⟨t, ((scalar_of_mem hnodup hv).1 t).mpr ht⟩
    · exact ⟨_, scalar_of_not_mem fun v hv => hmem ⟨v, hv⟩⟩

theorem settledBy_of_settings {s : Settings} (hnodup : (es.map key).Nodup)
    (h : (es.foldl RawSettings.put {}).settings = .ok s) : SettledBy es s := by
  obtain ⟨hscalars, htopology⟩ := RawSettings.settings_eq_ok_iff.mp h
  refine ⟨fun k v hv => ?_, fun k hnone => ?_, fun t ht => ?_, fun hnone => ?_⟩
  · exact ((scalar_of_mem hnodup hv).1 _).mp (hscalars k)
  · exact Except.ok.inj ((hscalars k).symm.trans (scalar_of_not_mem hnone))
  · rw [htopology, topology_of_mem hnodup ht]
  · rw [htopology, topology_of_not_mem hnone]
    rfl

theorem scalar_eq_error_iff {f : Failure} (hnodup : (es.map key).Nodup) :
    (es.foldl RawSettings.put {}).scalar k = .error f ↔
      ∃ v, .setting k v ∈ es ∧ (∀ t, ¬ k.Takes v t) ∧ f = .setting k.name v := by
  constructor
  · intro h
    by_cases hmem : ∃ v, .setting k v ∈ es
    · obtain ⟨v, hv⟩ := hmem
      obtain ⟨htakes, hrefuses⟩ := scalar_of_mem hnodup hv
      have hnone : ∀ t, ¬ k.Takes v t := by
        intro t ht
        rw [(htakes t).mpr ht] at h
        cases h
      exact ⟨v, hv, hnone, Except.error.inj (h.symm.trans (hrefuses hnone))⟩
    · rw [scalar_of_not_mem fun v hv => hmem ⟨v, hv⟩] at h
      cases h
  · rintro ⟨v, hv, hnone, rfl⟩
    exact (scalar_of_mem hnodup hv).2 hnone

theorem settings_eq_error_iff_firstRefused {f : Failure} (hnodup : (es.map key).Nodup) :
    (es.foldl RawSettings.put {}).settings = .error f ↔
      ∃ k v, FirstRefused es k v ∧ f = .setting k.name v := by
  simp only [RawSettings.settings_eq_error_iff, exists_scalar_iff hnodup, scalar_eq_error_iff hnodup]
  constructor
  · rintro ⟨earlier, k, later, hall, hearlier, v, hv, hnone, rfl⟩
    exact ⟨k, v, ⟨earlier, later, hall, hearlier, hv, hnone⟩, rfl⟩
  · rintro ⟨k, v, ⟨earlier, later, hall, hearlier, hv, hnone⟩, rfl⟩
    exact ⟨earlier, k, later, hall, hearlier, v, hv, hnone, rfl⟩

end Entries

section Files

variable {π σ : Type} {r : Reader π σ} {text text' : String} {es es' : List SettingsEntry}
  {raw : RawSettings}

theorem Lists.readFrom_nodup (h : Lists r text es) : ReadFrom r text es ∧ (es.map key).Nodup := by
  obtain ⟨root, hopens, hentries⟩ := Reader.yields_of_decode h.2
  obtain ⟨written, hrecord, hall, hnodup⟩ := yields_entriesOfPlace hentries
  exact ⟨⟨root, written, hopens, hrecord, hall⟩, hnodup⟩

/-- What is made of a settings file depends on its entries alone. -/
theorem decode_of_lists (h : Lists r text es) :
    r.decode text (RawSettings.ofPlace r) = .ok (es.foldl RawSettings.put {}) := by
  have hmap := Reader.decode_map r text (RawSettings.entriesOfPlace r)
    fun es => es.foldl RawSettings.put {}
  rw [h.2] at hmap
  exact hmap

theorem exists_lists_of_decode (hblank : Text.isBlankText text = false)
    (hdecode : r.decode text (RawSettings.ofPlace r) = .ok raw) : ∃ es, Lists r text es := by
  obtain ⟨root, start, s, hload, hread⟩ := Reader.decode_eq_ok_iff.mp hdecode
  obtain ⟨es, s', hes, -⟩ := Yaml.Reading.run_bind_eq_ok_iff.mp hread
  exact ⟨es, hblank, Reader.decode_eq_ok_iff.mpr ⟨root, start, s', hload, hes⟩⟩

theorem ofYaml_of_lists (h : Lists r text es) :
    ofYaml r text = (es.foldl RawSettings.put {}).settings := by
  rw [ofYaml, h.1, decode_of_lists h]
  rfl

theorem ofYaml_perm (h : Lists r text es) (h' : Lists r text' es') (hperm : es.Perm es') :
    ofYaml r text' = ofYaml r text := by
  rw [ofYaml_of_lists h, ofYaml_of_lists h', foldl_put_perm hperm h.readFrom_nodup.2]

/-- What is read at a path is what the file gives, or nothing of it. -/
theorem value_loadOrDefault (r : Reader π σ) (path : String) (content : Except FileFault String) :
    (∃ s, load r content = .ok s ∧ (loadOrDefault r path content).value = s) ∨
      (∃ f, load r content = .error f) ∧ (loadOrDefault r path content).value = {} := by
  rw [loadOrDefault]
  cases h : load r content with
  | ok s => exact .inl ⟨s, rfl, rfl⟩
  | error f => exact .inr ⟨⟨f, rfl⟩, rfl⟩

end Files

/-- A mapping with plain keys. -/
def keyed (entries : List (String × Node)) : Node :=
  .mapping {} (entries.map fun (name, node) => (.scalar {} .plain name, node))

theorem lists_of_tokens (doc : Document) {text : String} {tokens : List Token}
    {es : List SettingsEntry} (hblank : Text.isBlankText text = false)
    (htokens : Token.ofText? text = some tokens) (hdoc : Document.ofTokens? tokens = some doc)
    (hread : (RawSettings.entriesOfPlace Document.reader ⟨doc, [], doc.root⟩).run doc.aliasLimit =
      .ok (es, doc.aliasLimit)) :
    Lists Document.reader text es :=
  ⟨hblank, Document.decode_eq_ok (Document.ofText?_of_tokens htokens hdoc) hread⟩

/-- Two settings that are scalars. -/
def scalarEntries : List SettingsEntry :=
  [.setting .segment (.number (.integer 7)), .setting .ruleFile (.text "x")]

theorem lists_scalars :
    Lists Document.reader "{segment: 7, rule_file: x}" scalarEntries ∧
      Lists Document.reader "{rule_file: x, segment: 7}" scalarEntries.reverse := by
  let segment := ("segment", Node.scalar {} .plain "7")
  let ruleFile := ("rule_file", Node.scalar {} .plain "x")
  constructor
  · exact lists_of_tokens (.ofRoot (keyed [segment, ruleFile])) (by decide) (by cbv) (by cbv) rfl
  · exact lists_of_tokens (.ofRoot (keyed [ruleFile, segment])) (by decide) (by cbv) (by cbv) rfl

/-- Two that are none, the one that is checked last before the other. -/
def nestedEntries : List SettingsEntry :=
  [.setting .ruleFile (.sequence [.text "x"]), .topology (.ofList [(9, "h")]),
    .setting .segment (.mapping [(.text "a", .text "b")])]

theorem lists_nested :
    Lists Document.reader "{rule_file: [x], topology: {9: h}, segment: {a: b}}" nestedEntries ∧
      Lists Document.reader "{segment: {a: b}, topology: {9: h}, rule_file: [x]}"
        nestedEntries.reverse := by
  let ruleFile := ("rule_file", Node.sequence {} [.scalar {} .plain "x"])
  let topology := ("topology", keyed [("9", .scalar {} .plain "h")])
  let segment := ("segment", keyed [("a", .scalar {} .plain "b")])
  constructor
  · exact lists_of_tokens (.ofRoot (keyed [ruleFile, topology, segment])) (by decide) (by cbv) (by cbv) rfl
  · exact lists_of_tokens (.ofRoot (keyed [segment, topology, ruleFile])) (by decide) (by cbv) (by cbv) rfl

end Settings

end PolicyGraph
