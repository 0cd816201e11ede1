/-!
# Tokens of a document

What the layout rules leave of a text: scalars with their style, the marks of flow collections, and
for block collections the marks that indentation stands for.
-/

namespace PolicyGraph.Yaml

/-- How a scalar is written. Without a tag, only plain scalars can mean anything but text. -/
inductive ScalarStyle
  | plain | quoted | literal | folded
  deriving DecidableEq, Repr, Inhabited

inductive Token
  /-- The version directive. -/
  | version (major minor : Nat)
  /-- A directive that lets `handle` stand for `expansion` in tags. -/
  | shorthand (handle expansion : String)
  | documentStart
  | documentEnd
  | blockSequence
  | blockMapping
  | blockEnd
  | flowSequence
  | flowSequenceEnd
  | flowMapping
  | flowMappingEnd
  /-- The dash before an item of a block sequence. -/
  | item
  /-- The comma between items of a flow collection. -/
  | comma
  | key
  | value
  | anchor (name : String)
  | alias (name : String)
  /-- A tag in two parts; the handle is empty when the suffix is the whole tag. -/
  | tag (handle suffix : String)
  | scalar (style : ScalarStyle) (text : String)
  deriving DecidableEq, Repr, Inhabited

end PolicyGraph.Yaml
