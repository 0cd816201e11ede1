import PolicyGraph.Decimal.Shortest
import PolicyGraph.Tree

/-!
# Trees in JSON

The compact form has no spaces at all; the indented form puts every item of a list and every field of
an object on a line of its own. Only control characters, the quote and the backslash are escaped.
-/

namespace PolicyGraph.Tree.Json

/-- A control character by its number, in four hexadecimal digits. -/
def controlEscape (c : Char) : String :=
  let digits := Nat.toDigits 16 c.toNat
  "\\u" ++ String.ofList (List.replicate (4 - digits.length) '0' ++ digits)

def escape (c : Char) : String :=
  match c with
  | '"' => "\\\""
  | '\\' => "\\\\"
  | '\x08' => "\\b"
  | '\x0c' => "\\f"
  | '\n' => "\\n"
  | '\r' => "\\r"
  | '\t' => "\\t"
  | c => if c.toNat < 0x20 then controlEscape c else c.toString

def quote (s : String) : String :=
  "\"" ++ String.join (s.toList.map escape) ++ "\""

/-- What stands for a number: those without digits have no form and become null. -/
def number (x : Decimal.Binary64) : String :=
  if x.isFinite then Decimal.Layout.data.write x else "null"

mutual

/-- The form without spaces. -/
def compact : Tree → String
  | .null => "null"
  | .bool b => toString b
  | .integer n => toString n
  | .float x => number x
  | .text s => quote s
  | .list items => "[" ++ ",".intercalate (compactItems items) ++ "]"
  | .object fields => "\x7b" ++ ",".intercalate (compactFields fields) ++ "\x7d"

def compactItems : List Tree → List String
  | [] => []
  | t :: rest => compact t :: compactItems rest

def compactFields : List (String × Tree) → List String
  | [] => []
  | (name, t) :: rest => (quote name ++ ":" ++ compact t) :: compactFields rest

end

/-- The start of a line that is indented by some steps of two spaces. -/
def line (steps : Nat) : String :=
  "\n" ++ String.ofList (List.replicate (2 * steps) ' ')

/-- Parts between brackets, each on its own line; without parts the brackets stand together. -/
def bracket (steps : Nat) (opening closing : String) (parts : List String) : String :=
  if parts.isEmpty then opening ++ closing
  else
    opening ++ line (steps + 1) ++ ("," ++ line (steps + 1)).intercalate parts ++ line steps ++ closing

mutual

/-- The form with one part a line, nested to some depth. -/
def indented (steps : Nat) : Tree → String
  | .list items => bracket steps "[" "]" (indentedItems (steps + 1) items)
  | .object fields => bracket steps "\x7b" "\x7d" (indentedFields (steps + 1) fields)
  | t => compact t

def indentedItems (steps : Nat) : List Tree → List String
  | [] => []
  | t :: rest => indented steps t :: indentedItems steps rest

def indentedFields (steps : Nat) : List (String × Tree) → List String
  | [] => []
  | (name, t) :: rest => (quote name ++ ": " ++ indented steps t) :: indentedFields steps rest

end

/-- The form with one part a line. -/
def pretty (t : Tree) : String := indented 0 t

end PolicyGraph.Tree.Json
