import Mathlib.Data.List.Forall2
import PolicyGraph.Yaml.Place

/-!
# What readings that succeed have read

A reading ends with a result or a fault. The statements here take a reading that came out with a result
apart: into its steps, into the items of a list, and into the fields of a record. They hold for every
reader, whatever account it keeps (`Yaml.Reading.Yields`).
-/

namespace PolicyGraph

variable {ε α β : Type}

/-! ## Steps and lists -/

theorem bind_eq_ok_iff {x : Except ε α} {f : α → Except ε β} {b : β} :
    x >>= f = .ok b ↔ ∃ a, x = .ok a ∧ f a = .ok b := by
  cases x with
  | error e => simp [bind, Except.bind]
  | ok a => simp [bind, Except.bind]

theorem bind_eq_error_iff {x : Except ε α} {f : α → Except ε β} {e : ε} :
    x >>= f = .error e ↔ x = .error e ∨ ∃ a, x = .ok a ∧ f a = .error e := by
  cases x with
  | error e' => simp [bind, Except.bind]
  | ok a => simp [bind, Except.bind]

/-- Items are read one by one, and every one of them. -/
theorem mapM_eq_ok_iff {f : α → Except ε β} {as : List α} {bs : List β} :
    as.mapM f = .ok bs ↔ List.Forall₂ (fun a b => f a = .ok b) as bs := by
  induction as generalizing bs with
  | nil =>
    rw [List.mapM_nil, List.forall₂_nil_left_iff]
    exact ⟨fun h => (Except.ok.inj h).symm, fun h => h ▸ rfl⟩
  | cons a rest ih =>
    simp only [List.mapM_cons, bind_eq_ok_iff, ih, List.forall₂_cons_left_iff]
    constructor
    · rintro ⟨b, hb, bs', hbs, h⟩
      exact ⟨b, bs', hb, hbs, (Except.ok.inj h).symm⟩
    · rintro ⟨b, bs', hb, hbs, rfl⟩
      exact ⟨b, hb, bs', hbs, rfl⟩

/-- The first item that cannot be read decides on the fault. -/
theorem mapM_eq_error_iff {f : α → Except ε β} {as : List α} {e : ε} :
    as.mapM f = .error e ↔ ∃ before a after, as = before ++ a :: after ∧
      (∀ a' ∈ before, ∃ b, f a' = .ok b) ∧ f a = .error e := by
  induction as with
  | nil => simp [pure, Except.pure]
  | cons a rest ih =>
    rw [List.mapM_cons, bind_eq_error_iff]
    constructor
    · rintro (ha | ⟨b, hb, h⟩)
      · exact ⟨[], a, rest, rfl, by simp, ha⟩
      · rcases bind_eq_error_iff.mp h with hrest | ⟨bs, -, hpure⟩
        · obtain ⟨before, a', after, rfl, hbefore, ha'⟩ := ih.mp hrest
          exact ⟨a :: before, a', after, rfl, List.forall_mem_cons.mpr ⟨⟨b, hb⟩, hbefore⟩, ha'⟩
        · cases hpure
    · rintro ⟨_ | ⟨first, before⟩, a', after, heq, hbefore, ha'⟩
      · obtain ⟨rfl, rfl⟩ := List.cons.inj heq
        exact .inl ha'
      · obtain ⟨rfl, rfl⟩ := List.cons.inj heq
        obtain ⟨⟨b, hb⟩, hbefore⟩ := List.forall_mem_cons.mp hbefore
        exact .inr ⟨b, hb, bind_eq_error_iff.mpr (.inl (ih.mpr ⟨before, a', after, rfl, hbefore, ha'⟩))⟩

/-- A list comes back from what is written for its items just if every item does. -/
theorem mapM_map_eq_ok_iff {write : α → β} {read : β → Except ε α} {as : List α} :
    (as.map write).mapM read = .ok as ↔ ∀ a ∈ as, read (write a) = .ok a := by
  rw [mapM_eq_ok_iff, List.forall₂_map_left_iff, List.forall₂_same]

/-- What holds of everything that is related to something holds of all items of a list. -/
theorem forall_mem_of_forall₂ {R : α → β → Prop} {P : β → Prop} {as : List α} {bs : List β}
    (hR : ∀ a b, R a b → P b) (h : List.Forall₂ R as bs) : ∀ b ∈ bs, P b := by
  induction h with
  | nil => simp
  | cons hab _ ih => exact List.forall_mem_cons.mpr ⟨hR _ _ hab, ih⟩

/-- What holds of everything a reader gives holds of all items of a list. -/
theorem forall_mem_of_mapM_eq_ok {P : β → Prop} {f : α → Except ε β} {as : List α} {bs : List β}
    (hf : ∀ a b, f a = .ok b → P b) (h : as.mapM f = .ok bs) : ∀ b ∈ bs, P b :=
  forall_mem_of_forall₂ hf (mapM_eq_ok_iff.mp h)

/-! ## Readings -/

namespace Yaml

namespace Reading

variable {σ : Type} {x : Reading σ α} {f : α → Reading σ β} {a a' : α} {b : β}

/-- Some account leads from the reading to this result. -/
def Yields (x : Reading σ α) (a : α) : Prop := ∃ s s', x.run s = .ok (a, s')

theorem run_bind_eq_ok_iff {s s'' : σ} :
    (x >>= f).run s = .ok (b, s'') ↔
      ∃ a s', x.run s = .ok (a, s') ∧ (f a).run s' = .ok (b, s'') := by
  rw [StateT.run_bind, bind_eq_ok_iff, Prod.exists]

theorem Yields.bind (h : Yields (x >>= f) b) : ∃ a, Yields x a ∧ Yields (f a) b := by
  obtain ⟨s, s'', h⟩ := h
  obtain ⟨a, s', hx, hf⟩ := run_bind_eq_ok_iff.mp h
  exact ⟨a, ⟨s, s', hx⟩, s', s'', hf⟩

theorem Yields.eq_of_pure (h : Yields (pure a : Reading σ α) a') : a = a' := by
  obtain ⟨s, s', h⟩ := h
  exact congrArg Prod.fst (Except.ok.inj h)

theorem not_yields_throw {fault : Fault} : ¬ Yields (throw fault : Reading σ α) a := by
  rintro ⟨s, s', h⟩
  cases h

/-- Items are read one by one, and every one of them. -/
theorem Yields.mapM {as : List α} {bs : List β} (h : Yields (as.mapM f) bs) :
    List.Forall₂ (fun a b => Yields (f a) b) as bs := by
  induction as generalizing bs with
  | nil =>
    rw [List.mapM_nil] at h
    exact h.eq_of_pure ▸ .nil
  | cons a rest ih =>
    rw [List.mapM_cons] at h
    obtain ⟨b, hb, h⟩ := h.bind
    obtain ⟨bs', hbs, h⟩ := h.bind
    exact h.eq_of_pure ▸ .cons hb (ih hbs)

/-- The reading has at most one result, whatever account it starts with. -/
def Settled (x : Reading σ α) : Prop := ∀ a a', Yields x a → Yields x a' → a = a'

theorem settled_pure : Settled (pure a : Reading σ α) :=
  fun _ _ h h' => h.eq_of_pure.symm.trans h'.eq_of_pure

theorem settled_throw {fault : Fault} : Settled (throw fault : Reading σ α) :=
  fun _ _ h => absurd h not_yields_throw

theorem Settled.bind (hx : Settled x) (hf : ∀ a, Settled (f a)) : Settled (x >>= f) := by
  intro b b' h h'
  obtain ⟨a, ha, hb⟩ := h.bind
  obtain ⟨a', ha', hb'⟩ := h'.bind
  obtain rfl := hx a a' ha ha'
  exact hf a b b' hb hb'

end Reading

/-! ## Documents and records -/

namespace Reader

open Reading (Yields Settled settled_pure settled_throw)

variable {π σ : Type} (r : Reader π σ)

/-- The text is a document with this root. -/
def Opens (text : String) (root : π) : Prop := ∃ start, r.load text = .ok (root, start)

/-- The place is a mapping whose keys spell these names, before these values. -/
def Record (p : π) (written : List (String × π)) : Prop :=
  ∃ expected entries, Yields (r.entries expected p) entries ∧
    List.Forall₂ (fun entry field => Yields (r.fieldName entry.1) field.1 ∧ entry.2 = field.2)
      entries written

/-- What the reader finds at a place does not depend on its account, and what should be there counts only
for faults. -/
structure Steady : Prop where
  text : ∀ p, Settled (r.text p)
  fieldName : ∀ p, Settled (r.fieldName p)
  choice : ∀ mapping names p, Settled (r.choice mapping names p)
  items : ∀ p, Settled (r.items p)
  entries : ∀ expected expected' p es es', Yields (r.entries expected p) es →
    Yields (r.entries expected' p) es' → es = es'

variable {r} {text : String} {p : π} {expected : String} {names seen : List String}

theorem Opens.unique {root root' : π} (h : r.Opens text root) (h' : r.Opens text root') :
    root = root' := by
  obtain ⟨start, hload⟩ := h
  obtain ⟨start', hload'⟩ := h'
  rw [hload] at hload'
  exact congrArg Prod.fst (Except.ok.inj hload')

theorem Steady.named (hr : r.Steady) {mapping : π} {ofName? : String → Option α} :
    Settled (r.named mapping names ofName? p) := by
  refine (hr.choice mapping names p).bind fun name => ?_
  cases ofName? name with
  | none => exact settled_throw
  | some a => exact settled_pure

/-- A place is a mapping with one list of entries. -/
theorem Steady.record_unique (hr : r.Steady) {written written' : List (String × π)}
    (h : r.Record p written) (h' : r.Record p written') : written = written' := by
  obtain ⟨expected, entries, hentries, hall⟩ := h
  obtain ⟨expected', entries', hentries', hall'⟩ := h'
  obtain rfl := hr.entries _ _ _ _ _ hentries hentries'
  refine List.right_unique_forall₂' ?_ hall hall'
  rintro entry ⟨name, value⟩ ⟨name', value'⟩ ⟨hname, rfl⟩ ⟨hname', rfl⟩
  exact congrArg (·, entry.2) (hr.fieldName _ _ _ hname hname')

theorem decode_eq_ok_iff {read : π → Reading σ α} {a : α} :
    r.decode text read = .ok a ↔
      ∃ root start s, r.load text = .ok (root, start) ∧ (read root).run start = .ok (a, s) := by
  simp only [decode, bind_eq_ok_iff, Prod.exists, pure, Except.pure, Except.ok.injEq]
  constructor
  · rintro ⟨root, start, hload, _, s, hread, rfl⟩
    exact ⟨root, start, s, hload, hread⟩
  · rintro ⟨root, start, s, hload, hread⟩
    exact ⟨root, start, hload, a, s, hread, rfl⟩

/-- What is decoded is what the root of the document yields. -/
theorem yields_of_decode {read : π → Reading σ α} {a : α}
    (h : r.decode text read = .ok a) : ∃ root, r.Opens text root ∧ Yields (read root) a := by
  obtain ⟨root, start, s, hload, hread⟩ := decode_eq_ok_iff.mp h
  exact ⟨root, ⟨start, hload⟩, start, s, hread⟩

/-- What is made of the data once it is read. -/
theorem decode_map (r : Reader π σ) (text : String) (read : π → Reading σ α) (make : α → β) :
    r.decode text (fun p => do return make (← read p)) = make <$> r.decode text read := by
  unfold decode
  cases r.load text with
  | error fault => rfl
  | ok opened =>
    show ((read opened.1 >>= fun a => pure (make a) : Reading σ β).run opened.2 >>= _) =
      make <$> ((read opened.1).run opened.2 >>= _)
    rw [StateT.run_bind]
    cases (read opened.1).run opened.2 <;> rfl

theorem not_yields_fail {mismatch : Mismatch} {a : α} : ¬ Yields (r.fail p mismatch) a :=
  Reading.not_yields_throw

/-- A record without other fields is read if every key names a field and none does so twice. -/
theorem yields_readFields {read : String → π → Reading σ α}
    {entries : List (π × π)} {fields : List α}
    (h : Yields (r.readFields ⟨expected, names, true⟩ p read seen entries) fields) :
    ∃ written,
      List.Forall₂ (fun entry field => Yields (r.fieldName entry.1) field.1 ∧ entry.2 = field.2)
        entries written ∧
      ((written.map Prod.fst).Nodup ∧ ∀ n ∈ written.map Prod.fst, n ∈ names ∧ n ∉ seen) ∧
      List.Forall₂ (fun w field => Yields (read w.1 w.2) field) written fields := by
  induction entries generalizing seen fields with
  | nil =>
    rw [readFields] at h
    exact ⟨[], .nil, ⟨List.nodup_nil, by simp⟩, h.eq_of_pure ▸ .nil⟩
  | cons entry rest ih =>
    obtain ⟨key, value⟩ := entry
    rw [readFields] at h
    obtain ⟨name, hname, h⟩ := h.bind
    simp only [List.contains_iff_mem] at h
    split at h
    · next hknown =>
      split at h
      · exact absurd h not_yields_fail
      · next hseen =>
        obtain ⟨field, hfield, h⟩ := h.bind
        obtain ⟨fields', hfields, h⟩ := h.bind
        obtain ⟨written, hwritten, ⟨hnodup, hnames⟩, hread⟩ := ih hfields
        obtain rfl := h.eq_of_pure
        refine ⟨(name, value) :: written, .cons ⟨hname, rfl⟩ hwritten, ⟨?_, ?_⟩, .cons hfield hread⟩
        · exact List.nodup_cons.mpr ⟨fun hmem => (hnames name hmem).2 List.mem_cons_self, hnodup⟩
        · refine List.forall_mem_cons.mpr ⟨⟨hknown, hseen⟩, fun n hn => ⟨(hnames n hn).1, fun hmem => ?_⟩⟩
          exact (hnames n hn).2 (List.mem_cons_of_mem _ hmem)
    · exact absurd h not_yields_fail

theorem yields_fields {read : String → π → Reading σ α} {fields : List α}
    (h : Yields (r.fields ⟨expected, names, true⟩ p read) fields) :
    ∃ written, r.Record p written ∧
      ((written.map Prod.fst).Nodup ∧ ∀ n ∈ written.map Prod.fst, n ∈ names) ∧
      List.Forall₂ (fun w field => Yields (read w.1 w.2) field) written fields := by
  obtain ⟨entries, hentries, h⟩ := h.bind
  obtain ⟨written, hwritten, ⟨hnodup, hnames⟩, hread⟩ := yields_readFields h
  exact ⟨written, ⟨expected, entries, hentries, hwritten⟩, ⟨hnodup, fun n hn => (hnames n hn).1⟩, hread⟩

end Reader

namespace Document

variable {text : String} {doc : Document}

/-- The document of a text, by way of its tokens. -/
theorem ofText?_of_tokens {tokens : List Token} (htokens : Token.ofText? text = some tokens)
    (hdoc : ofTokens? tokens = some doc) : ofText? text = some doc := by
  rw [ofText?, htokens]
  exact hdoc

theorem load_eq_ok (h : ofText? text = some doc) :
    reader.load text = .ok (⟨doc, [], doc.root⟩, doc.aliasLimit) := by
  simp only [reader, h]

/-- What is decoded from a text whose document is known. -/
theorem decode_eq_ok {read : Place → Reading Nat α} {a : α} {left : Nat} (h : ofText? text = some doc)
    (hread : (read ⟨doc, [], doc.root⟩).run doc.aliasLimit = .ok (a, left)) :
    reader.decode text read = .ok a :=
  Reader.decode_eq_ok_iff.mpr ⟨_, _, left, load_eq_ok h, hread⟩

end Document

end Yaml

end PolicyGraph
