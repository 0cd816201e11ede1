import PolicyGraph.Decimal.Binary64

/-!
# The shortest decimal of a binary number

Of all decimals that round to a given number, the one with the fewest digits, and of those the
nearest. On the grid of `n` significant digits only the two neighbours of the number can be nearest,
so the grids of 1, 2, … 17 digits are tried in turn.

A `Layout` says how the digits found are written out.
-/

namespace PolicyGraph.Decimal

/-- The value `digits · 10 ^ scale`. -/
structure Digits where
  digits : Nat
  scale : Int
  deriving DecidableEq, Repr

namespace Shortest

/-- The number and the ends of the interval that rounds to it, as numerators over one denominator. -/
structure Interval where
  low : Nat
  value : Nat
  high : Nat
  den : Nat
  closed : Bool

/-- The interval around `m · 2 ^ e`: half a step each way, a quarter below a power of two. The ends
round to the number when its significand is even. -/
def interval (m : Nat) (e : Int) : Interval :=
  let below := if m = Nat.pow 2 52 ∧ Binary64.minExponent < e then 1 else 2
  let up := Nat.pow 2 (e - 2).toNat
  { low := (4 * m - below) * up, value := 4 * m * up, high := (4 * m + 2) * up,
    den := Nat.pow 2 (2 - e).toNat, closed := m % 2 = 0 }

/-- The power of ten just above the number. -/
def pointPosition (i : Interval) : Int :=
  if i.den ≤ i.value then (Nat.toDigits 10 (i.value / i.den)).length
  else 1 - (Nat.toDigits 10 (i.den / i.value)).length

/-- The nearer neighbour of the number on the grid `10 ^ scale` that lies in the interval. -/
def onGrid? (i : Interval) (scale : Int) : Option Nat :=
  let lift := Nat.pow 10 (-scale).toNat
  let unit := i.den * Nat.pow 10 scale.toNat
  let (low, value, high) := (i.low * lift, i.value * lift, i.high * lift)
  let inside (t : Nat) : Bool :=
    if i.closed then low ≤ t * unit && t * unit ≤ high else low < t * unit && t * unit < high
  let t := value / unit
  let nearest := roundHalfEven value unit
  if inside nearest then some nearest
  else if inside t then some t
  else if inside (t + 1) then some (t + 1)
  else none

/-- Tries the grids of `n` digits and more, `left` of them. -/
def search (i : Interval) (point : Int) : Nat → Nat → Digits
  | 0, n =>
    let lift := Nat.pow 10 (n - point).toNat
    let unit := i.den * Nat.pow 10 (point - n).toNat
    ⟨roundHalfEven (i.value * lift) unit, point - n⟩
  | left + 1, n =>
    match onGrid? i (point - n) with
    | some digits => ⟨digits, point - n⟩
    | none => search i point left (n + 1)

/-- Moves trailing zeros of the digits into the scale. -/
def stripZeros (left : Nat) (d : Digits) : Digits :=
  match left with
  | 0 => d
  | left + 1 => if d.digits ≠ 0 ∧ d.digits % 10 = 0 then stripZeros left ⟨d.digits / 10, d.scale + 1⟩ else d

end Shortest

/-- The shortest decimal of the positive number `m · 2 ^ e`. -/
def shortest (m : Nat) (e : Int) : Digits :=
  let i := Shortest.interval m e
  Shortest.stripZeros 17 (Shortest.search i (Shortest.pointPosition i) 16 1)

/-- How a number is written out: where the point may stand without an exponent, and the words for
values without digits. -/
structure Layout where
  /-- Positions of the point, counted from the first digit, that need no exponent; `none` is all. -/
  positional : Option (Int × Int)
  nan : String
  infinite : String

namespace Layout

/-- Digits with the point after the first `point` of them, and at least one digit on each side. -/
def placePoint (digits : List Char) (point : Int) : List Char :=
  if point ≤ 0 then '0' :: '.' :: (List.replicate (-point).toNat '0' ++ digits)
  else
    let n := point.toNat
    if digits.length ≤ n then digits ++ List.replicate (n - digits.length) '0' ++ ['.', '0']
    else digits.take n ++ '.' :: digits.drop n

/-- One digit before the point, and the exponent that makes up for it. -/
def withExponent (digits : List Char) (point : Int) : List Char :=
  let head := match digits with
    | d :: e :: rest => d :: '.' :: e :: rest
    | _ => digits
  head ++ 'e' :: (toString (point - 1)).toList

/-- The text of a number: the shortest decimal that reads back, laid out. -/
def write (layout : Layout) : Binary64 → String
  | .nan => layout.nan
  | .infinite negative => (if negative then "-" else "") ++ layout.infinite
  | .finite negative m e =>
    let sign := if negative then "-" else ""
    if m = 0 then sign ++ "0.0"
    else
      let d := shortest m e
      let digits := Nat.toDigits 10 d.digits
      let point : Int := digits.length + d.scale
      let plain := match layout.positional with
        | none => true
        | some (least, greatest) => least ≤ point && point ≤ greatest
      sign ++ String.ofList (if plain then placePoint digits point else withExponent digits point)

/-- The layout of data formats: positional from five places after the point to sixteen before it. -/
def data : Layout := ⟨some (-4, 16), ".nan", ".inf"⟩

/-- The layout of prose: always positional. -/
def prose : Layout := ⟨none, "NaN", "inf"⟩

end Layout

end PolicyGraph.Decimal
