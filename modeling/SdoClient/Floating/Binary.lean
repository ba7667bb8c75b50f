/-
Binary real numbers as bit patterns. A layout gives the widths of the exponent and fraction fields; `read` says which
number a pattern stands for, a sign and `significand * 2 ^ power`, and `write` gives the pattern of the nearest number
of the layout, a tie going to the even significand. Order, product and change of layout are taken on the exact numbers
and rounded once, so no step depends on the machine.

Main statement: `nearest_exact` (a quotient without remainder is its own rounding).
-/
import SdoClient.Power

namespace SdoClient.Floating

open scoped Power

/-- the widths in bits of the two fields after the sign -/
structure Layout where
  exponentBits : Nat
  fractionBits : Nat
  deriving DecidableEq, Repr

/-- the 32-bit layout -/
def single : Layout := ⟨8, 23⟩

/-- the 64-bit layout -/
def double : Layout := ⟨11, 52⟩

/-- what a bit pattern stands for -/
inductive Datum where
  | finite (negative : Bool) (significand : Nat) (power : Int)
  | infinite (negative : Bool)
  | notANumber
  deriving DecidableEq, Repr

/-- `m / 2 ^ s` to the nearest whole number, a tie going to the even one -/
def nearest (m s : Nat) : Nat :=
  let quotient := m / 2 ^ s
  let twice := 2 * (m % 2 ^ s)
  if 2 ^ s < twice ∨ (twice = 2 ^ s ∧ quotient % 2 = 1) then quotient + 1 else quotient

theorem nearest_exact (n s : Nat) : nearest (n * 2 ^ s) s = n := by
  have h : 0 < 2 ^ s := Nat.two_pow_pos s
  have h' : ¬ (0 = 2 ^ s) := by omega
  simp [nearest, Nat.mul_div_cancel _ h, h']

namespace Layout

variable (f : Layout)

/-- the exponent field of infinities and of patterns that are no number -/
def topExponent : Nat := 2 ^ f.exponentBits - 1

/-- the power of two of the last place of the smallest numbers -/
def leastPower : Int := 2 - 2 ^ (f.exponentBits - 1) - f.fractionBits

/-- the pattern of positive infinity, which lies right after the largest number -/
def infinity : Nat := f.topExponent * 2 ^ f.fractionBits

/-- the sign bit as a number -/
def signBit : Nat := 2 ^ (f.exponentBits + f.fractionBits)

/-- what a pattern stands for -/
def read (bits : Nat) : Datum :=
  let negative := bits / f.signBit % 2 = 1
  let exponent := bits / 2 ^ f.fractionBits % 2 ^ f.exponentBits
  let fraction := bits % 2 ^ f.fractionBits
  if exponent = f.topExponent then
    if fraction = 0 then .infinite negative else .notANumber
  else if exponent = 0 then .finite negative fraction f.leastPower
  else .finite negative (2 ^ f.fractionBits + fraction) (f.leastPower + (exponent - 1 : Nat))

/-- the pattern of the number nearest to `m * 2 ^ power`. The last place kept is the one that leaves
`fractionBits + 1` bits, but never a place below `leastPower`; a carry out of the significand moves the exponent field
up by itself, and what is too large becomes infinity. -/
def magnitude (m : Nat) (power : Int) : Nat :=
  if m = 0 then 0 else
    let place := max (power + m.log2 - f.fractionBits) f.leastPower
    let significand :=
      if place ≤ power then m * 2 ^ (power - place).toNat else nearest m (place - power).toNat
    min f.infinity ((place - f.leastPower).toNat * 2 ^ f.fractionBits + significand)

/-- the pattern of the number nearest to a datum -/
def write : Datum → Nat
  | .finite negative m power => (if negative then f.signBit else 0) + f.magnitude m power
  | .infinite negative => (if negative then f.signBit else 0) + f.infinity
  | .notANumber => f.infinity + 2 ^ (f.fractionBits - 1)

end Layout

namespace Datum

/-- a whole number -/
def ofInt (n : Int) : Datum := .finite (n < 0) n.natAbs 0

/-- the significand of a finite datum counted in units of `2 ^ base`, with its sign -/
def units (negative : Bool) (m : Nat) (power base : Int) : Int :=
  let size := m * 2 ^ (power - base).toNat
  if negative then -size else size

/-- the order of numbers; what is no number is not ordered, and zeros of both signs are equal -/
def le : Datum → Datum → Bool
  | .notANumber, _ => false
  | _, .notANumber => false
  | .infinite true, _ => true
  | _, .infinite false => true
  | .infinite false, _ => false
  | _, .infinite true => false
  | .finite s m p, .finite t n q => units s m p (min p q) ≤ units t n q (min p q)

/-- equality of numbers; what is no number differs from itself -/
def equal (a b : Datum) : Bool := a.le b && b.le a

/-- the exact product; infinity times zero is no number -/
def mul : Datum → Datum → Datum
  | .finite s m p, .finite t n q => .finite (s ^^ t) (m * n) (p + q)
  | .infinite s, .finite t n _ => if n = 0 then .notANumber else .infinite (s ^^ t)
  | .finite s m _, .infinite t => if m = 0 then .notANumber else .infinite (s ^^ t)
  | .infinite s, .infinite t => .infinite (s ^^ t)
  | .notANumber, _ => .notANumber
  | _, .notANumber => .notANumber

/-- the exact quotient by `2 ^ places` -/
def scaleDown (places : Nat) : Datum → Datum
  | .finite s m p => .finite s m (p - places)
  | d => d

end Datum

end SdoClient.Floating
