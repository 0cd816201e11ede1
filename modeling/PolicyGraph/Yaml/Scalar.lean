import PolicyGraph.Decimal.Binary64

/-!
# The meaning of plain scalars

A plain scalar without a tag is null, a boolean, a number or else a text, by its spelling alone.
Numbers that need more than 64 bits but fit in 128 are refused; longer ones read as floating point.
-/

namespace PolicyGraph.Yaml

open Decimal (Binary64 numeral? decimal? isDigit)

/-- A number of a document. -/
inductive Number
  | integer (n : Int)
  | float (x : Binary64)
  deriving DecidableEq, Repr, Inhabited

namespace Number

/-- Equality of values: integers and floating-point numbers never equal each other. -/
def same : Number → Number → Bool
  | .integer m, .integer n => m = n
  | .float x, .float y => x.same y
  | _, _ => false

end Number

/-- What a scalar means. -/
inductive Meaning
  | null
  | bool (b : Bool)
  | number (n : Number)
  | text (s : String)
  /-- An integer that does not fit in 64 bits. -/
  | tooWide
  deriving DecidableEq, Repr, Inhabited

namespace Meaning

def isNullWord (s : String) : Bool :=
  s == "~" || s == "null" || s == "Null" || s == "NULL"

def bool? (s : String) : Option Bool :=
  if s == "true" || s == "True" || s == "TRUE" then some true
  else if s == "false" || s == "False" || s == "FALSE" then some false
  else none

/-- Digits with a zero in front of others, with or without a sign, spell a text and no number. -/
def isZeroPadded (cs : List Char) : Bool :=
  let digits := match cs with
    | '+' :: rest => rest
    | '-' :: rest => rest
    | cs => cs
  match digits with
  | '0' :: rest => !rest.isEmpty && rest.all isDigit
  | _ => false

/-- A magnitude: a decimal numeral, or one in radix 16, 8 or 2 after its lower-case mark. -/
def magnitude? : List Char → Option Nat
  | '0' :: 'x' :: digits => numeral? 16 digits
  | '0' :: 'o' :: digits => numeral? 8 digits
  | '0' :: 'b' :: digits => numeral? 2 digits
  | digits => numeral? 10 digits

/-- A whole number of any size with at most one sign. -/
def integer? (cs : List Char) : Option Int :=
  if isZeroPadded cs then none
  else match cs with
    | '+' :: rest => (magnitude? rest).map Int.ofNat
    | '-' :: rest => (magnitude? rest).map fun n => -Int.ofNat n
    | cs => (magnitude? cs).map Int.ofNat

def fits64 (n : Int) : Bool := -Int.pow 2 63 ≤ n && n < Int.pow 2 64

def fits128 (n : Int) : Bool := -Int.pow 2 127 ≤ n && n < Int.pow 2 128

/-- The words for the values that have no digits. -/
def floatWord? : List Char → Option Binary64
  | '+' :: word => infinity? false word
  | '-' :: word => infinity? true word
  | word => if isNan word then some .nan else infinity? false word
where
  infinity? (negative : Bool) (word : List Char) : Option Binary64 :=
    if word = ".inf".toList ∨ word = ".Inf".toList ∨ word = ".INF".toList then
      some (.infinite negative)
    else none
  isNan (word : List Char) : Bool :=
    word = ".nan".toList ∨ word = ".NaN".toList ∨ word = ".NAN".toList

/-- A decimal with at most one sign, unless it is too large for a finite number. -/
def finite? (cs : List Char) : Option Binary64 :=
  let x := match cs with
    | '+' :: rest => decimal? false rest
    | '-' :: rest => decimal? true rest
    | cs => decimal? false cs
  x.filter (·.isFinite)

def float? (cs : List Char) : Option Binary64 :=
  (floatWord? cs).orElse fun _ => finite? cs

/-- An integer, if the scalar spells one of at most 128 bits. -/
def ofInteger? (s : String) : Option Meaning := do
  let n ← integer? s.toList
  if fits64 n then some (.number (.integer n))
  else if fits128 n then some .tooWide
  else none

/-- The meaning of a plain scalar. -/
def ofPlain (s : String) : Meaning :=
  if s.isEmpty || isNullWord s then .null
  else match bool? s, ofInteger? s with
    | some b, _ => .bool b
    | none, some meaning => meaning
    | none, none =>
      if isZeroPadded s.toList then .text s
      else match float? s.toList with
        | some x => .number (.float x)
        | none => .text s

end Meaning

end PolicyGraph.Yaml
