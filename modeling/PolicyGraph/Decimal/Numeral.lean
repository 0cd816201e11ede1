/-!
# Numerals

Reading whole numbers written in a radix. The readers accept digits only; signs, prefixes and ranges
belong to the formats that use them.
-/

namespace PolicyGraph.Decimal

/-- The value of a digit, letters of either case counting on from ten. -/
def digitValue (c : Char) : Option Nat :=
  if '0' ≤ c ∧ c ≤ '9' then some (c.toNat - '0'.toNat)
  else if 'a' ≤ c ∧ c ≤ 'z' then some (c.toNat - 'a'.toNat + 10)
  else if 'A' ≤ c ∧ c ≤ 'Z' then some (c.toNat - 'A'.toNat + 10)
  else none

/-- The value of `c` if it is a digit of the radix. -/
def digitIn? (radix : Nat) (c : Char) : Option Nat :=
  (digitValue c).filter (· < radix)

/-- Reads on from `value` through digits of the radix; any other character is refused. -/
def digitsFrom? (radix : Nat) : Nat → List Char → Option Nat
  | value, [] => some value
  | value, c :: cs => do digitsFrom? radix (value * radix + (← digitIn? radix c)) cs

/-- A numeral is one or more digits of the radix. -/
def numeral? (radix : Nat) (cs : List Char) : Option Nat :=
  if cs.isEmpty then none else digitsFrom? radix 0 cs

/-- A decimal numeral with at most one sign before it. -/
def signedNumeral? : List Char → Option Int
  | '+' :: cs => (numeral? 10 cs).map Int.ofNat
  | '-' :: cs => (numeral? 10 cs).map fun n => -Int.ofNat n
  | cs => (numeral? 10 cs).map Int.ofNat

/-- Whether `c` is one of the ten decimal digits. -/
def isDigit (c : Char) : Bool :=
  '0' ≤ c && c ≤ '9'

example : numeral? 16 "1fF".toList = some 0x1FF := by decide
example : signedNumeral? "-007".toList = some (-7) := by decide
example : signedNumeral? "+-1".toList = none := by decide

end PolicyGraph.Decimal
