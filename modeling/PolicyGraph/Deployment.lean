import PolicyGraph.Policy.RuleFile
import PolicyGraph.Settings
import PolicyGraph.Wiring

/-!
# Deployments

From settings and the content of the rule file to the statements to deploy: one, or none at all when
the rule file cannot be read, is no rule file or holds no rules.
-/

namespace PolicyGraph

/-- Parses the text of a rule file. -/
def parseRules (r : Yaml.Reader π σ) (text : String) : Except Failure (List Rule) :=
  (Rule.listOfYaml r text).mapError .rules

/-- Reads a rule file, given what was found at its path. -/
def readRules (r : Yaml.Reader π σ) (path : String) (content : Except FileFault String) :
    Except Failure (List Rule) :=
  match content with
  | .ok text => parseRules r text
  | .error fault => .error (.ruleFile path fault)

namespace Deployment

/-- Reports the settings that a run starts with. -/
def announce (s : Settings) : Logged Unit := do
  Logged.report (.segmentSetting s.segment)
  Logged.report (.inputSetting s.source.describe)
  Logged.report (.ruleFileSetting s.ruleFile)

/-- The statement for a policy that has rules. -/
def ofRules (s : Settings) (resolver : Resolver) (rules : List Rule) : Logged (List Statement) := do
  let segment ← s.segmentId
  match ← compile s.source rules segment resolver with
  | .ok statement =>
    Logged.report (.deployed rules.length statement.graph.blocks.length statement.location)
    return [statement]
  | .error failure =>
    Logged.report (.compileFailed failure)
    return []

/-- The statements to deploy, given what was found at the path of the rule file. -/
def statements (r : Yaml.Reader π σ) (s : Settings) (resolver : Resolver)
    (content : Except FileFault String) : Logged (List Statement) := do
  announce s
  match readRules r s.ruleFile content with
  | .error failure =>
    Logged.report (.ruleFileRejected s.ruleFile failure)
    return []
  | .ok [] =>
    Logged.report (.ruleFileEmpty s.ruleFile)
    return []
  | .ok rules => ofRules s resolver rules

end Deployment

end PolicyGraph
