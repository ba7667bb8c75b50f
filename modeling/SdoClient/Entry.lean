/-
Entries of an object dictionary. An entry has a declared type, access rights, limits and a display scale, all fixed
when it is built, and a current value, the time of its last change, and the outcome of the last transfer, which the
transfers and the local calls update. The time is what the caller reads off the clock, or 0 if the caller has none.

Main statement: `setValue_eq_ok` (a staged value gets in exactly if it fits).
-/
import SdoClient.AbortCode
import SdoClient.Config
import SdoClient.Error

namespace SdoClient

/-- access rights, each on its own -/
structure Access where
  read : Bool := false
  write : Bool := false
  /-- may be mapped to a transmitted process data object -/
  tpdo : Bool := false
  /-- may be mapped to a received process data object -/
  rpdo : Bool := false
  deriving DecidableEq, Repr

namespace Access

/-- the rights whose bits are set; bits without a meaning are dropped -/
def ofBits (n : Nat) : Access := ⟨n.testBit 0, n.testBit 1, n.testBit 2, n.testBit 3⟩

/-- the rights as bits -/
def bits (a : Access) : Nat := a.read.toNat + 2 * a.write.toNat + 4 * a.tpdo.toNat + 8 * a.rpdo.toNat

/-- the rights in words, such as `RW TPDO` -/
def text (a : Access) : String :=
  (if a.read then "R" else "") ++ (if a.write then "W" else "") ++ (if a.tpdo then " TPDO" else "")
    ++ (if a.rpdo then " RPDO" else "")

-- the bits name the rights one to one
example : (List.range 16).all fun n => (ofBits n).bits = n := by decide

end Access

/-- the pattern of the real number one -/
def realOne : UInt64 := 0x3ff0000000000000

/-- one entry of a dictionary -/
structure Entry where
  subIndex : UInt8
  name : String
  type : DataType
  access : Access
  value : Option Value := none
  default : Option Value := none
  low : Option Value := none
  high : Option Value := none
  /-- when the value was last changed, if it was changed since the entry was built -/
  changedAt : Option Time := none
  /-- the abort code of the last transfer, 0 if it succeeded -/
  error : AbortCode := .none
  /-- the display scale, as the pattern of a 64-bit real -/
  scale : UInt64 := realOne
  unit : String := ""
  /-- the value counts in units of `2 ^ (-16)` -/
  fixedPoint : Bool := false
  deriving DecidableEq

namespace Entry

/-! ## Building -/

/-- the entry with a default, which is its first value; a default that does not fit is ignored -/
def withDefault (e : Entry) (v : Value) : Entry :=
  if v.fits e.type then { e with value := some v, default := some v } else e

/-- the entry with limits -/
def withLimits (e : Entry) (low high : Option Value) : Entry := { e with low, high }

/-! ## The current value -/

/-- the value was changed since the entry was built -/
def modified (e : Entry) : Bool := e.changedAt.isSome

/-- stages a value; one that does not fit is refused -/
def setValue (e : Entry) (v : Value) (clock : Time := 0) : Except Error Entry :=
  if v.fits e.type then .ok { e with value := some v, changedAt := some clock }
  else .error (.invalidValue (.notRepresentable v e.type))

theorem setValue_eq_ok {e e' : Entry} {v : Value} {clock : Time} :
    e.setValue v clock = .ok e' ↔ v.fits e.type = true ∧ e' = { e with value := some v, changedAt := some clock } := by
  unfold setValue
  split
  · rename_i hfits
    simp [hfits, eq_comm]
  · rename_i hfits
    simp [hfits]

/-- takes over the result of a transfer as it is -/
def store (e : Entry) (v : Option Value) (clock : Time) : Entry := { e with value := v, changedAt := some clock }

/-- forgets the value -/
def clear (e : Entry) (clock : Time := 0) : Entry := { e with value := none, changedAt := some clock }

/-- goes back to the default -/
def reset (e : Entry) (clock : Time := 0) : Entry := { e with value := e.default, changedAt := some clock }

/-! ## The last outcome -/

/-- the last transfer failed -/
def hasError (e : Entry) : Bool := e.error ≠ .none

/-- notes a failed transfer -/
def fail (e : Entry) (code : AbortCode) : Entry := { e with error := code }

/-- notes a successful transfer -/
def succeed (e : Entry) (v : Option Value) (clock : Time) : Entry := { e.store v clock with error := .none }

/-! ## Limits and display -/

/-- the 64-bit reals nearest to two values are in order; values that are no numbers always are -/
def ordered (a b : Option Value) : Bool :=
  match a.bind Value.real64?, b.bind Value.real64? with
  | some x, some y => (Floating.double.read x.toNat).le (Floating.double.read y.toNat)
  | _, _ => true

/-- a value lies within the limits. Values that are no numbers, and absent limits, always pass. -/
def withinLimits (e : Entry) (v : Value) : Bool :=
  ordered e.low (some v) && ordered (some v) e.high

/-- the number held, scaled for display, as the pattern of a 64-bit real. A fixed-point value is divided first, and each
step is rounded. -/
def display? (e : Entry) : Option UInt64 := do
  let raw := Floating.double.read (← (← e.value).real64?).toNat
  let raw := if e.fixedPoint then Floating.double.read (Floating.double.write (raw.scaleDown 16)) else raw
  return UInt64.ofNat (Floating.double.write (raw.mul (Floating.double.read e.scale.toNat)))

end Entry

end SdoClient
