/-
The shortest decimal that reads back. The numbers that round to a binary number form an interval around it; for one
digit, two digits and so on, the two neighbours of the number on the grid of that many digits are tried, and the first
grid with a neighbour inside the interval wins. Of two neighbours inside, the nearer one is taken, and the upper one
when both are equally near. All comparisons are between whole numbers.
-/
import SdoClient.Floating.Binary

namespace SdoClient.Floating

open scoped Power

/-- a positive decimal `0.d₁d₂… * 10 ^ point`, its first and last digits not zero -/
structure Decimal where
  digits : List Char
  point : Int
  deriving DecidableEq, Repr

/-- the decimal `n * 10 ^ power`, without zeros at its end -/
def Decimal.ofScaled (n : Nat) (power : Int) : Decimal :=
  let digits := Nat.toDigits 10 n
  ⟨(digits.reverse.dropWhile (· = '0')).reverse, digits.length + power⟩

/-- the numbers that round to a binary number: the number itself and the ends of the interval, over one denominator -/
structure Interval where
  low : Nat
  middle : Nat
  high : Nat
  denominator : Nat
  closed : Bool
  deriving Repr

/-- the interval of `m * 2 ^ power`. Its ends lie half a place away, on the lower side a quarter when the number below
has finer places; they belong to it when the significand is even. -/
def Layout.interval (f : Layout) (m : Nat) (power : Int) : Interval :=
  let below := if m = 2 ^ f.fractionBits ∧ f.leastPower < power then 1 else 2
  let scale := 2 ^ (power - 2).toNat
  ⟨(4 * m - below) * scale, 4 * m * scale, (4 * m + 2) * scale, 2 ^ (2 - power).toNat, m % 2 = 0⟩

namespace Interval

variable (i : Interval)

/-- `n * 10 ^ power` lies inside -/
def contains (n : Nat) (power : Int) : Bool :=
  let x := n * 10 ^ power.toNat * i.denominator
  let shift := 10 ^ (-power).toNat
  if i.closed then i.low * shift ≤ x && x ≤ i.high * shift
  else i.low * shift < x && x < i.high * shift

/-- the place of the decimal point: the middle lies in `[10 ^ (point - 1), 10 ^ point)` -/
def point : Int :=
  let whole := i.middle / i.denominator
  if 0 < whole then (Nat.toDigits 10 whole).length
  else 1 - (Nat.toDigits 10 ((i.denominator - 1) / i.middle)).length

/-- the better neighbour of the middle on the grid of multiples of `10 ^ power`, if one lies inside -/
def onGrid? (power : Int) : Option Nat :=
  let unit := 10 ^ power.toNat * i.denominator
  let value := i.middle * 10 ^ (-power).toNat
  let lower := value / unit
  match i.contains lower power, i.contains (lower + 1) power with
  | true, true => some (if 2 * value < (2 * lower + 1) * unit then lower else lower + 1)
  | true, false => some lower
  | false, true => some (lower + 1)
  | false, false => none

/-- the decimal of fewest digits inside; seventeen digits tell any two numbers of the layouts apart -/
def shortest : Decimal :=
  let found := (List.range 17).findSome? fun k =>
    let power := i.point - (k + 1 : Nat)
    (i.onGrid? power).map fun n => Decimal.ofScaled n power
  found.getD ⟨[], 0⟩

end Interval

/-- the shortest decimal that reads back as `m * 2 ^ power`, for a positive significand -/
def Layout.shortest (f : Layout) (m : Nat) (power : Int) : Decimal :=
  (f.interval m power).shortest

end SdoClient.Floating
