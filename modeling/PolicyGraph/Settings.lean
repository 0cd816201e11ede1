import PolicyGraph.Segment
import PolicyGraph.Wiring
import PolicyGraph.Yaml.Reading

/-!
# Settings

What a run needs to know: the segment, where packets come from, the rule file and the topology. In a
settings file every key is optional, and the values of five of them are kept as texts, however they
are spelled.
-/

namespace PolicyGraph

open Yaml (Reader Reading Fault Value)

structure Settings where
  segment : String := toString Segment.default
  interface : String := "eth0"
  dump : String := "in_dump.pcap"
  /-- Whether to listen to the interface rather than read the dump. -/
  useInterface : String := "true"
  ruleFile : String := "firewall_rules.yml"
  topology : Topology := {}
  deriving DecidableEq, Repr, Inhabited

/-- The settings that a file gives as scalars. -/
inductive Setting
  | segment | interface | dump | useInterface | ruleFile
  deriving DecidableEq, Repr

namespace Setting

/-- In the order in which they are checked. -/
def all : List Setting := [.segment, .interface, .dump, .useInterface, .ruleFile]

/-- The key of the setting in a file. -/
def name : Setting → String
  | .segment => "segment"
  | .interface => "in_ifc"
  | .dump => "in_dump"
  | .useInterface => "in_use_ifc"
  | .ruleFile => "rule_file"

def ofName? (name : String) : Option Setting := all.find? (·.name == name)

def text (s : Settings) : Setting → String
  | .segment => s.segment
  | .interface => s.interface
  | .dump => s.dump
  | .useInterface => s.useInterface
  | .ruleFile => s.ruleFile

def default (k : Setting) : String := k.text {}

end Setting

/-- A settings file before its values are looked at. -/
structure RawSettings where
  segment : Option Value := none
  interface : Option Value := none
  dump : Option Value := none
  useInterface : Option Value := none
  ruleFile : Option Value := none
  topology : Topology := {}
  deriving Inhabited

/-- An entry of a settings file. -/
inductive SettingsEntry
  | setting (k : Setting) (v : Value)
  | topology (t : Topology)

namespace RawSettings

/-- The keys of a settings file. -/
def keys : List String := Setting.all.map Setting.name ++ ["topology"]

def value? (raw : RawSettings) : Setting → Option Value
  | .segment => raw.segment
  | .interface => raw.interface
  | .dump => raw.dump
  | .useInterface => raw.useInterface
  | .ruleFile => raw.ruleFile

def put (raw : RawSettings) : SettingsEntry → RawSettings
  | .setting .segment v => { raw with segment := some v }
  | .setting .interface v => { raw with interface := some v }
  | .setting .dump v => { raw with dump := some v }
  | .setting .useInterface v => { raw with useInterface := some v }
  | .setting .ruleFile v => { raw with ruleFile := some v }
  | .topology topology => { raw with topology }

section Reading

variable {π σ : Type} (r : Reader π σ)

/-- Reads a topology from a mapping of segments to hosts. -/
def topologyOfPlace (p : π) : Reading σ Topology := do
  return .ofList (← (← r.entries "a map" p).mapM fun (key, value) => do
    return (← r.integer32 key, ← r.text value))

/-- Reads the value of an entry. -/
def entryOfPlace (key : String) (value : π) : Reading σ SettingsEntry :=
  match Setting.ofName? key with
  | some k => return .setting k (← r.value value)
  | none => return .topology (← topologyOfPlace r value)

/-- Reads the entries of a settings file, in the order in which they are written. -/
def entriesOfPlace (p : π) : Reading σ (List SettingsEntry) :=
  r.fields ⟨"struct RawConfig", keys, true⟩ p (entryOfPlace r)

def ofPlace (p : π) : Reading σ RawSettings := do
  return (← entriesOfPlace r p).foldl put {}

end Reading

/-- The text of a setting. A setting that is missing or null has its default, and one that is no
scalar is refused. -/
def scalar (raw : RawSettings) (k : Setting) : Except Failure String :=
  match raw.value? k with
  | none | some .null => .ok k.default
  | some (.text s) => .ok s
  | some (.number n) => .ok n.text
  | some (.bool b) => .ok (toString b)
  | some other => .error (.setting k.name other)

/-- The settings of a file, unless one of them is refused. -/
def settings (raw : RawSettings) : Except Failure Settings := do
  return {
    segment := ← raw.scalar .segment
    interface := ← raw.scalar .interface
    dump := ← raw.scalar .dump
    useInterface := ← raw.scalar .useInterface
    ruleFile := ← raw.scalar .ruleFile
    topology := raw.topology }

end RawSettings

namespace Settings

/-- Reads the text of a settings file. A blank file leaves every setting at its default. -/
def ofYaml (r : Reader π σ) (text : String) : Except Failure Settings :=
  if Text.isBlankText text then .ok {}
  else match r.decode text (RawSettings.ofPlace r) with
    | .ok raw => raw.settings
    | .error fault => .error (.settings fault)

/-- Reads a settings file, given what was found at its path. -/
def load (r : Reader π σ) (content : Except FileFault String) : Except Failure Settings :=
  match content with
  | .ok text => ofYaml r text
  | .error fault => .error (.file fault)

/-- Reads a settings file, or reports why it cannot be read and takes the defaults. -/
def loadOrDefault (r : Reader π σ) (path : String) (content : Except FileFault String) : Logged Settings :=
  match load r content with
  | .ok settings => return settings
  | .error failure => do
    Logged.report (.settingsRejected path failure)
    Logged.report .defaultSettings
    return {}

def withSegment (segment : String) (s : Settings) : Settings := { s with segment }

def withRuleFile (ruleFile : String) (s : Settings) : Settings := { s with ruleFile }

/-- Listens to an interface instead of reading a dump. -/
def withInterface (interface : String) (s : Settings) : Settings :=
  { s with interface, useInterface := "true" }

/-- Reads a dump instead of listening to an interface. -/
def withDump (dump : String) (s : Settings) : Settings := { s with dump, useInterface := "false" }

/-- The segment number. -/
def segmentId (s : Settings) : Logged Int := Segment.parse s.segment

/-- An interface is listened to only when the setting is the word for truth, in any ASCII case. -/
def usesInterface (s : Settings) : Bool :=
  (Text.trim s.useInterface).toLower == "true"

/-- Where packets come from. -/
def source (s : Settings) : Source :=
  if s.usesInterface then .device s.interface else .dump s.dump

end Settings

end PolicyGraph
