import PolicyGraph.Decimal.Shortest
import PolicyGraph.Text.Quoted

/-!
# Mismatches

Why data does not have the shape that a reader expects, and how a mismatch is worded. The data formats
differ only in their word for a missing value and in the layout of numbers.
-/

namespace PolicyGraph

open Decimal (Binary64 Layout)

/-- A piece of data as a mismatch mentions it. -/
inductive Found
  | unit
  | bool (b : Bool)
  | integer (n : Int)
  | float (x : Binary64)
  | text (s : String)
  | list
  | map
  deriving DecidableEq, Repr

/-- A mismatch between the data and the shape expected. -/
inductive Mismatch
  | wrongType (found : Found) (expected : String)
  | wrongValue (found : Found) (expected : String)
  | wrongLength (length : Nat) (expected : String)
  | unknownField (name : String) (known : List String)
  | unknownVariant (name : String) (known : List String)
  | missingField (name : String)
  | repeatedField (name : String)
  /-- An output action without the interface to write to. -/
  | outputWithoutInterface
  deriving DecidableEq, Repr

/-- The words of a data format. -/
structure Wording where
  unit : String
  layout : Layout

/-- A name as messages show it. -/
def named (name : String) : String := "`" ++ name ++ "`"

namespace Found

def message (w : Wording) : Found → String
  | .unit => w.unit
  | .bool b => "boolean " ++ named (toString b)
  | .integer n => "integer " ++ named (toString n)
  | .float x => "floating point " ++ named (w.layout.write x)
  | .text s => "string " ++ Text.quoted s
  | .list => "sequence"
  | .map => "map"

end Found

namespace Mismatch

/-- The names that would have been understood. -/
def choices : List String → String
  | [] => "nothing"
  | [a] => named a
  | [a, b] => named a ++ " or " ++ named b
  | names => "one of " ++ ", ".intercalate (names.map named)

def message (w : Wording) : Mismatch → String
  | .wrongType found expected => "invalid type: " ++ found.message w ++ ", expected " ++ expected
  | .wrongValue found expected => "invalid value: " ++ found.message w ++ ", expected " ++ expected
  | .wrongLength n expected => "invalid length " ++ toString n ++ ", expected " ++ expected
  | .unknownField name known => "unknown field " ++ named name ++ ", expected " ++ choices known
  | .unknownVariant name known => "unknown variant " ++ named name ++ ", expected " ++ choices known
  | .missingField name => "missing field " ++ named name
  | .repeatedField name => "duplicate field " ++ named name
  | .outputWithoutInterface => "output action requires an interface"

end Mismatch

end PolicyGraph
