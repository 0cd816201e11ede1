import PolicyGraph.Failure
import PolicyGraph.Topology

/-!
# Events

What a run reports besides its result: a list of events, each with a level, a message and named
fields. `Logged` is a result together with the events that led to it, in their order.
-/

namespace PolicyGraph

inductive Level
  | debug | info | warn
  deriving DecidableEq, Repr

def Level.name : Level → String
  | .debug => "DEBUG"
  | .info => "INFO"
  | .warn => "WARN"

inductive Event
  /-- The settings that a run starts with. -/
  | segmentSetting (text : String)
  | inputSetting (source : String)
  | ruleFileSetting (path : String)
  /-- A settings file that is not used. -/
  | settingsRejected (path : String) (failure : Failure)
  | defaultSettings
  | segmentRejected (text : String) (default : Int)
  | ruleFileRejected (path : String) (failure : Failure)
  | ruleFileEmpty (path : String)
  | unknownAction (rule : Nat) (kind : String)
  | compiled (statistics : Statistics)
  | located (location : Location)
  | deployed (rules blocks : Nat) (location : Location)
  | compileFailed (failure : Failure)
  deriving Repr

namespace Event

def level : Event → Level
  | .segmentSetting _ | .inputSetting _ | .ruleFileSetting _ | .deployed .. => .info
  | .compiled _ | .located _ => .debug
  | .settingsRejected .. | .defaultSettings | .segmentRejected .. | .ruleFileRejected ..
  | .ruleFileEmpty _ | .unknownAction .. | .compileFailed _ => .warn

def message : Event → String
  | .segmentSetting text => "Firewall is running on Segment " ++ text
  | .inputSetting source => "[->] Input: " ++ source
  | .ruleFileSetting path => "[>|] Rule files path: " ++ path
  | .settingsRejected .. => "Cannot load configuration file"
  | .defaultSettings => "Using default configuration"
  | .segmentRejected _ default =>
    "Error parsing segment property. Using default segment: " ++ toString default
  | .ruleFileRejected _ failure => "Failed to parse rule file: " ++ failure.message
  | .ruleFileEmpty _ => "Rule file has no rules, nothing to deploy"
  | .unknownAction _ kind => "Unknown action: " ++ kind
  | .compiled _ => "Compiled firewall graph"
  | .located _ => "Resolved deployment location"
  | .deployed .. => "Compiled rule file"
  | .compileFailed failure => "Failed to compile rule file: " ++ failure.message

/-- The named details of an event. -/
def fields : Event → List (String × String)
  | .segmentSetting _ | .inputSetting _ | .ruleFileSetting _ | .defaultSettings
  | .compileFailed _ => []
  | .settingsRejected path failure => [("path", path), ("error", failure.message)]
  | .segmentRejected text _ => [("value", text)]
  | .ruleFileRejected path _ => [("path", path)]
  | .ruleFileEmpty path => [("path", path)]
  | .unknownAction rule kind => [("rule", toString rule), ("kind", kind)]
  | .compiled s =>
    [("blocks", toString s.totalBlocks), ("connectors", toString s.connectors),
      ("classifier_rules", toString s.classifierRules), ("output_sinks", toString s.outputSinks),
      ("max_fan_in", toString s.maxFanIn)]
  | .located location => [("location", location.describe)]
  | .deployed rules blocks location =>
    [("rules", toString rules), ("blocks", toString blocks), ("location", location.describe)]

end Event

/-- A result and the events that led to it. -/
structure Logged (α : Type) where
  value : α
  events : List Event := []

namespace Logged

/-- Reports one event. -/
def report (e : Event) : Logged Unit := ⟨(), [e]⟩

instance : Monad Logged where
  pure a := ⟨a, []⟩
  bind x f := ⟨(f x.value).value, x.events ++ (f x.value).events⟩

@[simp] theorem value_pure (a : α) : (pure a : Logged α).value = a := rfl

@[simp] theorem events_pure (a : α) : (pure a : Logged α).events = [] := rfl

@[simp] theorem value_bind (x : Logged α) (f : α → Logged β) :
    (x >>= f).value = (f x.value).value := rfl

@[simp] theorem events_bind (x : Logged α) (f : α → Logged β) :
    (x >>= f).events = x.events ++ (f x.value).events := rfl

end Logged

end PolicyGraph
