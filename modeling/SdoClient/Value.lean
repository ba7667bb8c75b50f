/-
Values of dictionary entries. An integer is held in the narrowest of the widths 8, 16, 32 and 64 that covers its
declared type; a real is held as its bit pattern, so that values can be told apart bit by bit; strings are text or bare
octets.

Main statements: `fits_signed`, `fits_unsigned` (an integer fits exactly the integer types whose range holds it).
-/
import SdoClient.DataType
import SdoClient.Floating.Binary

namespace SdoClient

open scoped Power

/-- a typed value -/
inductive Value where
  | bool (b : Bool)
  | i8 (n : Int8)
  | i16 (n : Int16)
  | i32 (n : Int32)
  | i64 (n : Int64)
  | u8 (n : UInt8)
  | u16 (n : UInt16)
  | u32 (n : UInt32)
  | u64 (n : UInt64)
  | f32 (bits : UInt32)
  | f64 (bits : UInt64)
  | text (s : String)
  | octets (data : List UInt8)
  deriving DecidableEq

namespace Value

/-- the number held by an integer value -/
def integer? : Value → Option Int
  | i8 n => some n.toInt
  | i16 n => some n.toInt
  | i32 n => some n.toInt
  | i64 n => some n.toInt
  | u8 n => some n.toNat
  | u16 n => some n.toNat
  | u32 n => some n.toNat
  | u64 n => some n.toNat
  | _ => none

/-- the integer held, counting a boolean as 0 or 1 -/
def asInteger? : Value → Option Int
  | bool b => some b.toNat
  | v => v.integer?

/-- the number held, exactly: a real, an integer or a boolean -/
def datum? : Value → Option Floating.Datum
  | f32 bits => some (Floating.single.read bits.toNat)
  | f64 bits => some (Floating.double.read bits.toNat)
  | v => v.asInteger?.map Floating.Datum.ofInt

/-- the pattern of the 64-bit real nearest to the number held; a 64-bit real is its own -/
def real64? : Value → Option UInt64
  | f64 bits => some bits
  | v => v.datum?.map fun d => UInt64.ofNat (Floating.double.write d)

/-- the octets of a string, text in UTF-8 -/
def octets? : Value → Option (List UInt8)
  | text s => some s.toUTF8.toList
  | octets data => some data
  | _ => none

/-- the value can be stored in an entry of this type: an integer in the integer types whose range holds it, a real in
the real type of its own width, a string in every type of variable length -/
def fits (v : Value) (t : DataType) : Bool :=
  match t with
  | .untyped => false
  | .boolean => (v matches bool _)
  | .real32 => (v matches f32 _)
  | .real64 => (v matches f64 _)
  | .visibleString | .octetString | .unicodeString | .domain => v.octets?.isSome
  | .signed _ | .unsigned _ =>
    match v.integer?, t.integerRange? with
    | some n, some (least, greatest) => least ≤ n && n ≤ greatest
    | _, _ => false

/-- equality of values of one kind. Reals are compared as numbers: zeros of both signs are equal, and what is no number
differs from itself. -/
def equal : Value → Value → Bool
  | f32 a, f32 b => (Floating.single.read a.toNat).equal (Floating.single.read b.toNat)
  | f64 a, f64 b => (Floating.double.read a.toNat).equal (Floating.double.read b.toNat)
  | a, b => a = b

theorem fits_signed (v : Value) (w : Width) :
    v.fits (.signed w) = true ↔
      ∃ n, v.integer? = some n ∧ -(2 : Int) ^ (w.bits - 1) ≤ n ∧ n ≤ (2 : Int) ^ (w.bits - 1) - 1 := by
  simp only [fits, DataType.integerRange?]
  cases v.integer? <;> simp

theorem fits_unsigned (v : Value) (w : Width) :
    v.fits (.unsigned w) = true ↔ ∃ n, v.integer? = some n ∧ 0 ≤ n ∧ n ≤ (2 : Int) ^ w.bits - 1 := by
  simp only [fits, DataType.integerRange?]
  cases v.integer? <;> simp

end Value

end SdoClient
