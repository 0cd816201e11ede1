import PolicyGraph.CommandLine

/-!
# Arguments

How the arguments of the command are read. An option is written in a short or a long form, its value
attached or after it, and each at most once.
-/

namespace PolicyGraph.CommandLine

/-- The options, which all have a value. -/
inductive Key
  | config | ruleFile | segment | interface | dump | format
  deriving DecidableEq, Repr

inductive Request
  | compile (options : Options)
  | version
  | help
  deriving DecidableEq, Repr

/-- Why arguments are refused. -/
inductive UsageFault
  | unexpected (argument : String)
  | missingValue (key : Key)
  | badValue (key : Key) (value : String)
  | repeated (key : Key)
  /-- Both an interface and a dump are given. -/
  | twoSources
  deriving DecidableEq, Repr

/-- What an argument is by its spelling. -/
inductive Spelling
  | option (key : Key) (attached : Option String)
  | version
  | help
  | other
  deriving DecidableEq, Repr

namespace Spelling

/-- The option with a short form. -/
def shortKey? : Char → Option Key
  | 'c' => some .config
  | 'r' => some .ruleFile
  | 's' => some .segment
  | 'f' => some .format
  | _ => none

/-- The option with a long form. -/
def longKey? : String → Option Key
  | "config" => some .config
  | "rule-file" => some .ruleFile
  | "segment" => some .segment
  | "interface" => some .interface
  | "dump" => some .dump
  | "format" => some .format
  | _ => none

/-- A value attached to a short form, with or without an equals sign. -/
def shortValue? : List Char → Option String
  | [] => none
  | '=' :: value => some (String.ofList value)
  | value => some (String.ofList value)

/-- A long form splits at its first equals sign. -/
def ofLong (cs : List Char) : Spelling :=
  let name := String.ofList (cs.takeWhile (· != '='))
  let attached := match cs.dropWhile (· != '=') with
    | [] => none
    | _ :: value => some (String.ofList value)
  match longKey? name, attached with
  | some key, _ => .option key attached
  | none, none => if name == "version" then .version else if name == "help" then .help else .other
  | none, some _ => .other

def ofArgument (argument : String) : Spelling :=
  match argument.toList with
  | '-' :: '-' :: cs => ofLong cs
  | '-' :: c :: cs =>
    match shortKey? c with
    | some key => .option key (shortValue? cs)
    | none => if c == 'V' then .version else if c == 'h' then .help else .other
  | _ => .other

end Spelling

namespace Options

/-- Gives a text option its value, once. -/
def setOnce (key : Key) (value : α) : Option α → Except UsageFault (Option α)
  | none => .ok (some value)
  | some _ => .error (.repeated key)

/-- Gives an option its value. The path of the settings file must not be empty. -/
def set (o : Options) (key : Key) (value : String) : Except UsageFault Options :=
  match key with
  | .config => do
    if value.isEmpty then .error (.badValue key value)
    else return { o with config := ← setOnce key value o.config }
  | .ruleFile => do return { o with ruleFile := ← setOnce key value o.ruleFile }
  | .segment => do return { o with segment := ← setOnce key value o.segment }
  | .interface => do return { o with interface := ← setOnce key value o.interface }
  | .dump => do return { o with dump := ← setOnce key value o.dump }
  | .format =>
    match Format.ofName? value with
    | some format => do return { o with format := ← setOnce key format o.format }
    | none => .error (.badValue key value)

/-- Only one source can be chosen. -/
def finish (o : Options) : Except UsageFault Request :=
  if o.interface.isSome && o.dump.isSome then .error .twoSources else .ok (.compile o)

/-- Whether an argument can be the value of the option before it. -/
def canBeValue (argument : String) : Bool :=
  argument == "-" || !argument.startsWith "-"

/-- Reads arguments into the options. The command has no other arguments, so nothing may follow two
dashes that stand alone. -/
def read (o : Options) : List String → Except UsageFault Request
  | [] => o.finish
  | "--" :: rest =>
    match rest with
    | [] => o.finish
    | argument :: _ => .error (.unexpected argument)
  | argument :: rest =>
    match Spelling.ofArgument argument with
    | .version => .ok .version
    | .help => .ok .help
    | .other => .error (.unexpected argument)
    | .option key (some value) => do read (← o.set key value) rest
    | .option key none =>
      match rest with
      | [] => .error (.missingValue key)
      | value :: rest =>
        if canBeValue value then do read (← o.set key value) rest else .error (.missingValue key)

def versionText : String := "firewall-compile 0.1.0\n"

def helpText : String :=
  "Compile a firewall rule file into a deployable processing graph\n\n" ++
  "Usage: firewall-compile [OPTIONS]\n\n" ++
  "Options:\n" ++
  "  -c, --config <CONFIG>        Configuration file (YAML); defaults are used if missing or unreadable\n" ++
  "  -r, --rule-file <RULE_FILE>  Rule file, overriding the configured one\n" ++
  "  -s, --segment <SEGMENT>      Segment identifier, overriding the configured one\n" ++
  "      --interface <INTERFACE>  Capture from this interface\n" ++
  "      --dump <DUMP>            Replay this packet dump instead of capturing\n" ++
  "  -f, --format <FORMAT>        [default: json] [possible values: json, yaml]\n" ++
  "  -h, --help                   Print help\n" ++
  "  -V, --version                Print version\n"

/-- A run ends at once with exit code 2 if its arguments are refused, and with 0 if they ask for the help
or the version. -/
def parse (arguments : List String) : Except Outcome Options :=
  match read {} arguments with
  | .ok (.compile o) => .ok o
  | .ok .version => .error ⟨0, versionText, []⟩
  | .ok .help => .error ⟨0, helpText, []⟩
  | .error _ => .error ⟨2, "", []⟩

end Options

end PolicyGraph.CommandLine
