import PolicyGraph.Deployment

/-!
# The command line

The command compiles a rule file and prints the statements to deploy. Its options override settings of
the settings file. How arguments are read, documents decoded and statements written is left to libraries.
-/

namespace PolicyGraph.CommandLine

inductive Format
  | json | yaml
  deriving DecidableEq, Repr

def Format.ofName? : String → Option Format
  | "json" => some .json
  | "yaml" => some .yaml
  | _ => none

/-- The options given, by their values as written. -/
structure Options where
  config : Option String := none
  ruleFile : Option String := none
  segment : Option String := none
  interface : Option String := none
  dump : Option String := none
  format : Option Format := none
  deriving DecidableEq, Repr, Inhabited

/-- How a run ends: its exit code, what it printed and what it reported. -/
structure Outcome where
  exit : Nat
  stdout : String
  events : List Event := []

/-- The libraries that the command is built on. -/
structure Libraries (π σ : Type) where
  yaml : Yaml.Reader π σ
  /-- Reads the arguments, or ends the run at once. -/
  parse : List String → Except Outcome Options
  /-- Writes data in a format, or says why it cannot. -/
  write : Format → Tree → Except String String

namespace Options

/-- Puts the options over settings. -/
def override (o : Options) (base : Settings) : Settings :=
  let s := o.ruleFile.elim base base.withRuleFile
  let s := o.segment.elim s s.withSegment
  let s := o.interface.elim s s.withInterface
  o.dump.elim s s.withDump

end Options

section Run

variable {π σ : Type} {m : Type → Type} [Monad m]

/-- The settings that the options start from: those of the settings file, if one is given. -/
def base (r : Yaml.Reader π σ) (read : String → m (Except FileFault String)) :
    Option String → m (Logged Settings)
  | none => return pure {}
  | some path => return Settings.loadOrDefault r path (← read path)

/-- What the command answers to its statements. -/
def answer (lib : Libraries π σ) (o : Options) (statements : List Statement) (events : List Event) :
    Outcome :=
  match lib.write (o.format.getD .json) (.list (statements.map Statement.toTree)) with
  | .ok text => ⟨0, text ++ "\n", events⟩
  | .error _ => ⟨1, "", events⟩

/-- Runs the command with these arguments, on files that `read` gives by their paths. -/
def run (lib : Libraries π σ) (read : String → m (Except FileFault String)) (arguments : List String) :
    m Outcome :=
  match lib.parse arguments with
  | .error outcome => return outcome
  | .ok o => do
    let base ← base lib.yaml read o.config
    let s := o.override base.value
    let statements := Deployment.statements lib.yaml s s.topology (← read s.ruleFile)
    return answer lib o statements.value (base.events ++ statements.events)

end Run

/-- The run on files that are known. -/
def runOn (lib : Libraries π σ) (files : String → Except FileFault String) (arguments : List String) :
    Outcome :=
  run (m := Id) lib files arguments

end PolicyGraph.CommandLine
