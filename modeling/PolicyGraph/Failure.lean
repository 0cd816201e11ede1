import PolicyGraph.Graph.Draft
import PolicyGraph.Yaml.Reading

/-!
# Failures

Everything that can keep a policy from being deployed, by cause, and the message for each.
-/

namespace PolicyGraph

/-- Why a file could not be read as text. -/
inductive FileFault
  | notFound
  | notDirectory
  | isDirectory
  | nameTooLong
  | notUtf8
  /-- A path with a character that no file name has. -/
  | nulByte
  | other (message : String)
  deriving DecidableEq, Repr

def FileFault.message : FileFault → String
  | .notFound => "No such file or directory (os error 2)"
  | .notDirectory => "Not a directory (os error 20)"
  | .isDirectory => "Is a directory (os error 21)"
  | .nameTooLong => "File name too long (os error 36)"
  | .notUtf8 => "stream did not contain valid UTF-8"
  | .nulByte => "file name contained an unexpected NUL byte"
  | .other message => message

inductive Failure
  /-- A setting that holds a collection or a tagged value. -/
  | setting (key : String) (value : Yaml.Value)
  | file (fault : FileFault)
  | ruleFile (path : String) (fault : FileFault)
  /-- A settings file that could not be read as settings. -/
  | settings (fault : Yaml.Fault)
  /-- A rule file that could not be read as rules. -/
  | rules (fault : Yaml.Fault)
  | noRules
  | graph (defect : Defect)
  deriving Repr

def Failure.message : Failure → String
  | .setting key value => "Configuration error: " ++ key ++ " must be a scalar, got " ++ value.describe
  | .file fault => "IO error: " ++ fault.message
  | .ruleFile path fault => "IO error: " ++ path ++ ": " ++ fault.message
  | .settings fault => "YAML parsing error: " ++ fault.message
  | .rules fault => "Rule parse error: " ++ fault.message
  | .noRules => "Rule set is empty"
  | .graph defect => defect.message

end PolicyGraph
