import PolicyGraph.Decimal.Numeral
import PolicyGraph.Event
import PolicyGraph.Text.Blank

/-!
# Segment numbers

A segment is an integer of 32 bits, written as a decimal numeral with at most one sign and any blank
characters around it.
-/

namespace PolicyGraph.Segment

/-- The segment that stands in for one that cannot be read. -/
def default : Int := 220

/-- Whether a segment has this number. -/
def inRange (n : Int) : Bool := -Int.pow 2 31 ≤ n && n < Int.pow 2 31

/-- Reads a segment number. -/
def read? (s : String) : Option Int :=
  (Decimal.signedNumeral? (Text.trimChars s.toList)).filter inRange

/-- Reads a segment number, or reports that it cannot be read and takes the default. -/
def parse (s : String) : Logged Int :=
  match read? s with
  | some n => return n
  | none => do
    Logged.report (.segmentRejected s default)
    return default

end PolicyGraph.Segment
