import PolicyGraph.Decimal.Numeral

/-!
# Binary floating-point numbers of 64 bits

Exact values of the format: a finite number is a sign, a whole significand below `2 ^ 53` and a power
of two. A decimal `digits · 10 ^ scale` is rounded to the nearest of them, a tie to the even
significand, in exact arithmetic on natural numbers.
-/

namespace PolicyGraph.Decimal

/-- A number of the format; `finite negative m e` is `± m · 2 ^ e`. -/
inductive Binary64
  | nan
  | infinite (negative : Bool)
  | finite (negative : Bool) (significand : Nat) (exponent : Int)
  deriving DecidableEq, Repr, Inhabited

/-- The nearest whole number to `num / den`; a half goes to the even neighbour. -/
def roundHalfEven (num den : Nat) : Nat :=
  let q := num / den
  let r := num % den
  if 2 * r < den then q else if den < 2 * r then q + 1 else q + q % 2

namespace Binary64

/-- The power of two of the smallest positive number. -/
def minExponent : Int := -1074

/-- The power of two of the largest finite numbers. -/
def maxExponent : Int := 971

/-- `num / den`, at a power of two, as a quotient of whole numbers. -/
def scaleDown (num den : Nat) (exponent : Int) : Nat × Nat :=
  if 0 ≤ exponent then (num, den * Nat.pow 2 exponent.toNat)
  else (num * Nat.pow 2 (-exponent).toNat, den)

/-- The power of two at which `num / den` has a significand of 52 or 53 bits. -/
def estimateExponent (num den : Nat) : Int :=
  (Nat.log2 num : Int) - Nat.log2 den - 52

/-- Rounds the positive quotient `num / den`. -/
def ofQuotient (negative : Bool) (num den : Nat) : Binary64 :=
  let start := max minExponent (estimateExponent num den - 1)
  let (n, d) := scaleDown num den start
  -- The estimate is one too high at most, so the right power is this one or the next.
  let e := if n < Nat.pow 2 53 * d then start else start + 1
  let (n, d) := scaleDown num den e
  let m := roundHalfEven n d
  let (m, e) := if m = Nat.pow 2 53 then (Nat.pow 2 52, e + 1) else (m, e)
  if maxExponent < e then .infinite negative
  else if m = 0 then .finite negative 0 0
  else .finite negative m e

/-- Rounds `digits · 10 ^ scale`. Scales far out of range are settled without computing the power. -/
def ofDecimal (negative : Bool) (digits : Nat) (scale : Int) : Binary64 :=
  let width : Int := (Nat.toDigits 10 digits).length
  if digits = 0 then .finite negative 0 0
  else if 400 < width + scale then .infinite negative
  else if width + scale < -400 then .finite negative 0 0
  else if 0 ≤ scale then ofQuotient negative (digits * Nat.pow 10 scale.toNat) 1
  else ofQuotient negative digits (Nat.pow 10 (-scale).toNat)

/-- Whether the number is neither infinite nor `nan`. -/
def isFinite : Binary64 → Bool
  | .finite .. => true
  | _ => false

/-- Numeric equality, except that `nan` equals itself; the two zeros are equal. -/
def same : Binary64 → Binary64 → Bool
  | .finite _ 0 _, .finite _ 0 _ => true
  | x, y => x = y

end Binary64

/-- An optional exponent `e` or `E` with a signed numeral; what is left must be empty. -/
def exponentPart? : List Char → Option Int
  | [] => some 0
  | c :: cs => if c = 'e' ∨ c = 'E' then signedNumeral? cs else none

/-- An unsigned decimal: digits with at most one point, at least one digit, perhaps an exponent. -/
def decimal? (negative : Bool) (cs : List Char) : Option Binary64 := do
  let whole := cs.takeWhile isDigit
  let rest := cs.dropWhile isDigit
  let (fraction, rest) := match rest with
    | '.' :: tail => (tail.takeWhile isDigit, tail.dropWhile isDigit)
    | _ => ([], rest)
  if whole.isEmpty && fraction.isEmpty then none
  let scale ← exponentPart? rest
  let digits ← digitsFrom? 10 0 (whole ++ fraction)
  return .ofDecimal negative digits (scale - fraction.length)

example : decimal? false "2.5".toList = some (.finite false 5629499534213120 (-51)) := by decide +kernel
example : decimal? false "1e400".toList = some (.infinite false) := by decide +kernel

end PolicyGraph.Decimal
