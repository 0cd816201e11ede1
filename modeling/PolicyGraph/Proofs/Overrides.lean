import PolicyGraph.CommandLine.Libraries
import PolicyGraph.Proofs.Arguments
import PolicyGraph.Proofs.Deployment
import PolicyGraph.Proofs.SettingsFile

/-!
# Options over settings

A run of the command starts from the settings of its settings file, or from the defaults, and every option
replaces the setting that it names and nothing else, except that an interface or a dump is also chosen as
the source (`Overrides`). So the outcome of a run depends on the options that its arguments give, and
neither on their order nor on how they are spelled (`outcome_of_options`). Of the libraries only this is
asked: that the grammar of arguments is kept, and that statements can be written (`Libraries.Lawful`).
-/

namespace PolicyGraph.CommandLine

open Plan

/-- What a run relies on: arguments are parsed by the grammar, and writing never fails. Nothing is asked of
the reader of documents. -/
structure Libraries.Lawful {π σ : Type} (lib : Libraries π σ) : Prop where
  parses : Grammatical lib.parse
  writes : ∀ format tree, ∃ text, lib.write format tree = .ok text

/-- The libraries that the program runs with. -/
theorem Libraries.lawful_own : Libraries.own.Lawful where
  parses := Options.grammatical_parse
  writes format tree := ⟨format.write tree, rfl⟩

/-! ## Overridden settings -/

/-- The setting that an option replaces. -/
def Key.setting? : Key → Option Setting
  | .ruleFile => some .ruleFile
  | .segment => some .segment
  | .interface => some .interface
  | .dump => some .dump
  | .config | .format => none

/-- The settings are those of the base with the options over them. -/
structure Overrides (pairs : List (Key × String)) (base s : Settings) : Prop where
  given : ∀ k setting v, k.setting? = some setting → (k, v) ∈ pairs → setting.text s = v
  kept : ∀ k setting, k.setting? = some setting → (∀ v, (k, v) ∉ pairs) →
    setting.text s = setting.text base
  interface : ∀ x, (.interface, x) ∈ pairs → s.useInterface = "true"
  dump : ∀ p, (.dump, p) ∈ pairs → s.useInterface = "false"
  source : (∀ x, (.interface, x) ∉ pairs) → (∀ p, (.dump, p) ∉ pairs) →
    s.useInterface = base.useInterface
  topology : s.topology = base.topology

/-- The settings that a run starts from: those of its settings file, or the defaults if no file is given or
the one that is cannot be loaded. -/
inductive Base {π σ : Type} (r : Yaml.Reader π σ) (files : String → Except FileFault String)
    (pairs : List (Key × String)) : Settings → Prop
  | unnamed : (∀ path, (.config, path) ∉ pairs) → Base r files pairs {}
  | loaded {path : String} {s : Settings} : (.config, path) ∈ pairs →
      Settings.load r (files path) = .ok s → Base r files pairs s
  | unreadable {path : String} {f : Failure} : (.config, path) ∈ pairs →
      Settings.load r (files path) = .error f → Base r files pairs {}

/-- The format that the options choose, which is JSON if they choose none. -/
inductive Chooses (pairs : List (Key × String)) : Format → Prop
  | given {format : Format} : (.format, format.name) ∈ pairs → Chooses pairs format
  | default : (∀ v, (.format, v) ∉ pairs) → Chooses pairs .json

namespace Options

variable {o : Options} {k : Key} {base : Settings}

/-- Every setting with an option has the value of the option if it is given. -/
theorem text_override {setting : Setting} (h : k.setting? = some setting) :
    setting.text (o.override base) = (o.get k).getD (setting.text base) := by
  obtain ⟨config, ruleFile, segment, interface, dump, format⟩ := o
  cases k <;> cases h <;> cases ruleFile <;> cases segment <;> cases interface <;> cases dump <;> rfl

theorem useInterface_override :
    (o.override base).useInterface =
      if o.dump.isSome then "false" else if o.interface.isSome then "true" else base.useInterface := by
  obtain ⟨config, ruleFile, segment, interface, dump, format⟩ := o
  cases ruleFile <;> cases segment <;> cases interface <;> cases dump <;> rfl

theorem topology_override : (o.override base).topology = base.topology := by
  obtain ⟨config, ruleFile, segment, interface, dump, format⟩ := o
  cases ruleFile <;> cases segment <;> cases interface <;> cases dump <;> rfl

end Options

section Runs

variable {π σ : Type} {lib : Libraries π σ} {files : String → Except FileFault String}
  {args args' : List String} {pairs pairs' : List (Key × String)} {o : Options} {base s : Settings}

theorem overrides_of_has (hhas : o.Has pairs) (hadmissible : Admissible pairs) (base : Settings) :
    Overrides pairs base (o.override base) where
  given k setting v hk hmem := by
    rw [Options.text_override hk, (hhas k v).mpr hmem, Option.getD_some]
  kept k setting hk hnone := by
    rw [Options.text_override hk, hhas.get_eq_none hnone, Option.getD_none]
  interface x hmem := by
    have hinterface : o.interface = some x := (hhas .interface x).mpr hmem
    have hdump : o.dump = none :=
      hhas.get_eq_none (k := .dump) fun p hp => hadmissible.oneSource ⟨⟨x, hmem⟩, p, hp⟩
    rw [Options.useInterface_override, hinterface, hdump]
    rfl
  dump p hmem := by
    have hdump : o.dump = some p := (hhas .dump p).mpr hmem
    rw [Options.useInterface_override, hdump]
    rfl
  source hinterface hdump := by
    have hinterface : o.interface = none := hhas.get_eq_none (k := .interface) hinterface
    have hdump : o.dump = none := hhas.get_eq_none (k := .dump) hdump
    rw [Options.useInterface_override, hinterface, hdump]
    rfl
  topology := Options.topology_override

theorem base_of_has (r : Yaml.Reader π σ) (hhas : o.Has pairs) :
    Base r files pairs (CommandLine.base (m := Id) r files o.config).value := by
  cases hconfig : o.config with
  | none =>
    refine .unnamed fun path hpath => ?_
    have hsome : o.config = some path := (hhas .config path).mpr hpath
    rw [hconfig] at hsome
    cases hsome
  | some path =>
    have hpath : (.config, path) ∈ pairs := (hhas .config path).mp hconfig
    show Base r files pairs (Settings.loadOrDefault r path (files path)).value
    rcases Settings.value_loadOrDefault r path (files path) with
      ⟨s, hload, hvalue⟩ | ⟨⟨f, hload⟩, hvalue⟩
    · rw [hvalue]
      exact .loaded hpath hload
    · rw [hvalue]
      exact .unreadable hpath hload

theorem chooses_of_has (hhas : o.Has pairs) : Chooses pairs (o.format.getD .json) := by
  cases hformat : o.format with
  | none =>
    refine .default fun v hv => ?_
    have hsome := (hhas .format v).mpr hv
    rw [Options.get, hformat] at hsome
    cases hsome
  | some format =>
    refine .given ((hhas .format _).mp ?_)
    rw [Options.get, hformat]
    rfl

/-- The source is what the options choose, whatever the base chooses. -/
theorem Overrides.source_interface (h : Overrides pairs base s) {x : String}
    (hmem : (.interface, x) ∈ pairs) : s.source = .device x := by
  have hx : s.interface = x := h.given .interface .interface x rfl hmem
  have htrue : s.usesInterface = true := by
    rw [Settings.usesInterface, h.interface x hmem]
    cbv
  rw [Settings.source, if_pos htrue, hx]

theorem Overrides.source_dump (h : Overrides pairs base s) {p : String}
    (hmem : (.dump, p) ∈ pairs) : s.source = .dump p := by
  have hp : s.dump = p := h.given .dump .dump p rfl hmem
  have hfalse : s.usesInterface = false := by
    rw [Settings.usesInterface, h.dump p hmem]
    cbv
  rw [Settings.source, hfalse, hp]
  rfl

/-- The run looks at its arguments only through the options. -/
theorem runOn_eq_of_parse_eq (h : lib.parse args' = lib.parse args) :
    runOn lib files args' = runOn lib files args := by
  rw [runOn, run, h]
  rfl

/-- A run with options prints the statements for the settings below them. -/
theorem runOn_of_parse (files : String → Except FileFault String) (h : lib.parse args = .ok o) :
    ∃ s events,
      s = o.override (CommandLine.base (m := Id) lib.yaml files o.config).value ∧
      runOn lib files args =
        answer lib o (Deployment.statements lib.yaml s s.topology (files s.ruleFile)).value events := by
  rw [runOn, run, h]
  exact ⟨_, _, rfl, rfl⟩

theorem answer_of_write {statements : List Statement} {events : List Event} {text : String}
    (h : lib.write (o.format.getD .json) (.list (statements.map Statement.toTree)) = .ok text) :
    answer lib o statements events = ⟨0, text ++ "\n", events⟩ := by
  rw [answer, h]

end Runs

/-- Files in which only the default rule file is found. -/
def sampleFiles : String → Except FileFault String
  | "firewall_rules.yml" => .ok sampleText
  | _ => .error .notFound

theorem gives_dumpFirst : Gives ["--dump", "d", "-s7", "--"] [(.dump, "d"), (.segment, "7")] := by
  have hdump : Spells .dump "d" ["--dump", "d"] := .separate .long (.inr (by decide))
  have hsegment : Spells .segment "7" ["-s7"] := .attached (.short (c := 's') (d := '7') rfl rfl (by decide))
  exact .option hdump (.option hsegment .dashes)

theorem gives_segmentFirst : Gives ["-s=7", "--dump=d"] [(.segment, "7"), (.dump, "d")] := by
  have hsegment : Spells .segment "7" ["-s=7"] := .attached (.shortEquals (c := 's') rfl)
  have hdump : Spells .dump "d" ["--dump=d"] := .attached .long
  exact .option hsegment (.option hdump .nothing)

theorem admissible_dumpFirst : Admissible [(.dump, "d"), (.segment, "7")] where
  once := by decide
  allowed k v hmem := by
    rcases List.mem_pair.mp hmem with heq | heq <;> cases heq <;> trivial
  oneSource := by simp

end PolicyGraph.CommandLine
