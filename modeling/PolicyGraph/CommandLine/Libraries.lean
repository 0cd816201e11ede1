import PolicyGraph.CommandLine.Arguments
import PolicyGraph.Tree.Json
import PolicyGraph.Tree.Yaml
import PolicyGraph.Yaml.Place

/-!
# The libraries of the program

The reader of documents, the reader of arguments and the writers that the program runs with.
-/

namespace PolicyGraph.CommandLine

def Format.write (tree : Tree) : Format → String
  | .json => Tree.Json.pretty tree
  | .yaml => Tree.Yaml.document tree

def Libraries.own : Libraries Yaml.Place Nat where
  yaml := Yaml.Document.reader
  parse := Options.parse
  write format tree := .ok (format.write tree)

end PolicyGraph.CommandLine
