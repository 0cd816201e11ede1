import Mathlib.Data.List.Basic
import Mathlib.Data.List.Perm.Basic
import PolicyGraph.CommandLine.Arguments

/-!
# The grammar of arguments

Arguments give options with values by the grammar of `Gives`: a long or a short form, its value attached
or after it, and at the end two dashes or nothing. A parser that follows it (`Grammatical`) accepts them
just if the options can be given together, and what it makes of them depends on the options and values
alone (`Grammatical.parse_perm`).
-/

namespace PolicyGraph.CommandLine

/-! ## Options as arguments spell them -/

namespace Key

/-- The name of the option in its long form. -/
def long : Key → String
  | .config => "config"
  | .ruleFile => "rule-file"
  | .segment => "segment"
  | .interface => "interface"
  | .dump => "dump"
  | .format => "format"

/-- The letter of the option, if it has a short form. -/
def short? : Key → Option Char
  | .config => some 'c'
  | .ruleFile => some 'r'
  | .segment => some 's'
  | .format => some 'f'
  | .interface | .dump => none

end Key

/-- The argument is the option without a value. -/
inductive Bare (k : Key) : String → Prop
  | long : Bare k ("--" ++ k.long)
  | short {c : Char} : k.short? = some c → Bare k ("-".push c)

/-- The argument is the option with its value. -/
inductive Attached (k : Key) (v : String) : String → Prop
  | long : Attached k v ("--" ++ k.long ++ "=" ++ v)
  | shortEquals {c : Char} : k.short? = some c → Attached k v ("-".push c ++ "=" ++ v)
  | short {c d : Char} {ds : List Char} : k.short? = some c → v.toList = d :: ds → d ≠ '=' →
      Attached k v ("-".push c ++ v)

/-- The value can follow its option as an argument of its own: it is a dash alone or begins with no
dash. -/
def Separate (v : String) : Prop := v = "-" ∨ v.toList.head? ≠ some '-'

/-- The arguments are the option with its value. -/
inductive Spells (k : Key) (v : String) : List String → Prop
  | attached {a : String} : Attached k v a → Spells k v [a]
  | separate {a : String} : Bare k a → Separate v → Spells k v [a, v]

/-- The arguments give these options their values, and nothing else. -/
inductive Gives : List String → List (Key × String) → Prop
  | nothing : Gives [] []
  | dashes : Gives ["--"] []
  | option {k : Key} {v : String} {spelled rest : List String} {pairs : List (Key × String)} :
      Spells k v spelled → Gives rest pairs → Gives (spelled ++ rest) ((k, v) :: pairs)

/-! ## Options by their values -/

namespace Format

def name : Format → String
  | .json => "json"
  | .yaml => "yaml"

theorem ofName?_eq_some_iff {s : String} {format : Format} :
    ofName? s = some format ↔ s = format.name := by
  constructor
  · intro h
    unfold ofName? at h
    split at h <;> cases h <;> rfl
  · rintro rfl
    cases format <;> rfl

theorem ofName?_name (format : Format) : ofName? format.name = some format :=
  ofName?_eq_some_iff.mpr rfl

end Format

/-- Which values an option can have. The path of the settings file is not empty. -/
def Key.Allows : Key → String → Prop
  | .config, v => v ≠ ""
  | .format, v => ∃ format : Format, v = format.name
  | _, _ => True

namespace Options

variable {o o' : Options}

/-- The value of an option as it is written. -/
def get (o : Options) : Key → Option String
  | .config => o.config
  | .ruleFile => o.ruleFile
  | .segment => o.segment
  | .interface => o.interface
  | .dump => o.dump
  | .format => o.format.map Format.name

/-- Options are what their values are. -/
theorem get_ext (h : ∀ k, o.get k = o'.get k) : o = o' := by
  have hformat : o.format = o'.format := by
    have hnames := congrArg (Option.bind · Format.ofName?) (h .format)
    simpa [get, Option.bind_map, Function.comp_def, Format.ofName?_name] using hnames
  obtain ⟨config, ruleFile, segment, interface, dump, format⟩ := o
  obtain rfl := h .config
  obtain rfl := h .ruleFile
  obtain rfl := h .segment
  obtain rfl := h .interface
  obtain rfl := h .dump
  obtain rfl := hformat
  rfl

end Options

/-- The options can be given together: each once, with a value that it can have, and not both an interface
and a dump. -/
structure Admissible (pairs : List (Key × String)) : Prop where
  once : (pairs.map Prod.fst).Nodup
  allowed : ∀ k v, (k, v) ∈ pairs → k.Allows v
  oneSource : ¬ ((∃ x, (.interface, x) ∈ pairs) ∧ ∃ p, (.dump, p) ∈ pairs)

/-- The options are given these values and no others. -/
def Options.Has (o : Options) (pairs : List (Key × String)) : Prop :=
  ∀ k v, o.get k = some v ↔ (k, v) ∈ pairs

/-! ## Parsers that follow the grammar -/

/-- The parser follows the grammar. What the arguments give is what the options have, and what cannot be
given together ends the run with the exit code for wrong usage. A request for the help or the version is
not for options, and nor is anything else. -/
structure Grammatical (parse : List String → Except Outcome Options) : Prop where
  accepts : ∀ args pairs, Gives args pairs → Admissible pairs → ∃ o, parse args = .ok o ∧ o.Has pairs
  refuses : ∀ args pairs, Gives args pairs → ¬ Admissible pairs → parse args = .error ⟨2, "", []⟩
  nothingElse : ∀ args o, parse args = .ok o → ∃ pairs, Gives args pairs

section Parsers

variable {parse : List String → Except Outcome Options} {args args' : List String}
  {pairs pairs' : List (Key × String)} {o o' : Options}

theorem Admissible.perm (h : Admissible pairs) (hperm : pairs.Perm pairs') : Admissible pairs' := by
  obtain ⟨honce, hallowed, hone⟩ := h
  simp only [hperm.mem_iff] at hallowed hone
  exact ⟨(hperm.map Prod.fst).nodup_iff.mp honce, hallowed, hone⟩

/-- The order in which options are given does not count. -/
theorem Options.Has.unique_of_perm (h : o.Has pairs) (h' : o'.Has pairs') (hperm : pairs.Perm pairs') :
    o' = o := by
  refine Options.get_ext fun k => Option.ext fun v => ?_
  rw [h, h', hperm.mem_iff]

theorem Options.Has.get_eq_none {k : Key} (h : o.Has pairs) (hnone : ∀ v, (k, v) ∉ pairs) :
    o.get k = none := by
  rw [Option.eq_none_iff_forall_ne_some]
  exact fun v hv => hnone v ((h k v).mp hv)

theorem Options.Has.isSome_get {k : Key} (h : o.Has pairs) :
    (o.get k).isSome = true ↔ ∃ v, (k, v) ∈ pairs := by
  rw [Option.isSome_iff_exists]
  exact exists_congr (h k)

namespace Grammatical

/-- Arguments are accepted just if what they give is admissible. -/
theorem accepts_iff (h : Grammatical parse) (hgives : Gives args pairs) :
    (∃ o, parse args = .ok o) ↔ Admissible pairs := by
  refine ⟨fun ⟨o, ho⟩ => ?_, fun hadmissible => ?_⟩
  · by_contra hrefused
    rw [h.refuses _ _ hgives hrefused] at ho
    cases ho
  · obtain ⟨o, ho, -⟩ := h.accepts _ _ hgives hadmissible
    exact ⟨o, ho⟩

theorem exists_gives (h : Grammatical parse) (hparse : parse args = .ok o) :
    ∃ pairs, Gives args pairs ∧ Admissible pairs := by
  obtain ⟨pairs, hgives⟩ := h.nothingElse _ _ hparse
  exact ⟨pairs, hgives, (h.accepts_iff hgives).mp ⟨o, hparse⟩⟩

/-- Options in any order, spelled in any way, are parsed alike. -/
theorem parse_perm (h : Grammatical parse) (hgives : Gives args pairs) (hgives' : Gives args' pairs')
    (hperm : pairs.Perm pairs') : parse args' = parse args := by
  by_cases hadmissible : Admissible pairs
  · obtain ⟨o, ho, hhas⟩ := h.accepts _ _ hgives hadmissible
    obtain ⟨o', ho', hhas'⟩ := h.accepts _ _ hgives' (hadmissible.perm hperm)
    rw [ho, ho', hhas.unique_of_perm hhas' hperm]
  · have hrefused : ¬ Admissible pairs' := fun hpairs => hadmissible (hpairs.perm hperm.symm)
    rw [h.refuses _ _ hgives hadmissible, h.refuses _ _ hgives' hrefused]

end Grammatical

end Parsers

end PolicyGraph.CommandLine
