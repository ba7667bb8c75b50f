/-
The data types that an entry of an object dictionary can declare. Integers are signed or unsigned and one to eight
octets wide; the other types are booleans, two widths of reals, three kinds of strings and the domain, an opaque
payload that always moves by block transfer. The standard gives each type a code.
-/
import SdoClient.Power

namespace SdoClient

open scoped Power

/-- the width of an integer type -/
inductive Width where
  | w8 | w16 | w24 | w32 | w40 | w48 | w56 | w64
  deriving DecidableEq, Repr

namespace Width

/-- the number of octets -/
def octets : Width → Nat
  | w8 => 1 | w16 => 2 | w24 => 3 | w32 => 4 | w40 => 5 | w48 => 6 | w56 => 7 | w64 => 8

/-- the number of bits -/
def bits (w : Width) : Nat := 8 * w.octets

/-- the bits in decimal, as type names spell them -/
def text : Width → String
  | w8 => "8" | w16 => "16" | w24 => "24" | w32 => "32" | w40 => "40" | w48 => "48" | w56 => "56" | w64 => "64"

/-- every width, narrowest first -/
def all : List Width := [w8, w16, w24, w32, w40, w48, w56, w64]

theorem octets_pos (w : Width) : 0 < w.octets := by cases w <;> decide

theorem octets_le (w : Width) : w.octets ≤ 8 := by cases w <;> decide

end Width

/-- the declared type of an entry -/
inductive DataType where
  | untyped
  | boolean
  | signed (width : Width)
  | unsigned (width : Width)
  | real32
  | real64
  | visibleString
  | octetString
  | unicodeString
  | domain
  deriving DecidableEq, Repr

namespace DataType

/-- every type, in the order of the standard's families -/
def all : List DataType :=
  [untyped, boolean] ++ Width.all.map signed ++ Width.all.map unsigned
    ++ [real32, real64, visibleString, octetString, unicodeString, domain]

/-- the standard's code, 0 for no type -/
def code : DataType → Nat
  | untyped => 0x00
  | boolean => 0x01
  | signed .w8 => 0x02
  | signed .w16 => 0x03
  | signed .w32 => 0x04
  | unsigned .w8 => 0x05
  | unsigned .w16 => 0x06
  | unsigned .w32 => 0x07
  | real32 => 0x08
  | visibleString => 0x09
  | octetString => 0x0a
  | unicodeString => 0x0b
  | domain => 0x0f
  | signed .w24 => 0x10
  | real64 => 0x11
  | signed .w40 => 0x12
  | signed .w48 => 0x13
  | signed .w56 => 0x14
  | signed .w64 => 0x15
  | unsigned .w24 => 0x16
  | unsigned .w40 => 0x18
  | unsigned .w48 => 0x19
  | unsigned .w56 => 0x1a
  | unsigned .w64 => 0x1b

/-- the type that a code names; the code 0 names none -/
def ofCode? (n : Nat) : Option DataType :=
  (all.drop 1).find? fun t => t.code = n

-- every declared type has a code of its own
example : (all.drop 1).all fun t => ofCode? t.code = some t := by decide

/-- the number of octets of every value of the type, if they all have the same -/
def byteLength? : DataType → Option Nat
  | boolean => some 1
  | signed w | unsigned w => some w.octets
  | real32 => some 4
  | real64 => some 8
  | untyped | visibleString | octetString | unicodeString | domain => none

/-- the number of significant bits: a boolean has one -/
def bitLength? : DataType → Option Nat
  | boolean => some 1
  | t => t.byteLength?.map (8 * ·)

/-- signed integers -/
def isSigned : DataType → Bool
  | signed _ => true
  | _ => false

/-- unsigned integers -/
def isUnsigned : DataType → Bool
  | unsigned _ => true
  | _ => false

/-- integers and reals -/
def isNumeric : DataType → Bool
  | signed _ | unsigned _ | real32 | real64 => true
  | _ => false

/-- strings and domains, whose values have no fixed size -/
def isVariableLength : DataType → Bool
  | visibleString | octetString | unicodeString | domain => true
  | _ => false

/-- the least and the greatest integer of an integer type -/
def integerRange? : DataType → Option (Int × Int)
  | signed w => some (-(2 : Int) ^ (w.bits - 1), (2 : Int) ^ (w.bits - 1) - 1)
  | unsigned w => some (0, (2 : Int) ^ w.bits - 1)
  | _ => none

/-- the standard's name in capitals -/
def name : DataType → String
  | untyped => "NONE"
  | boolean => "BOOLEAN"
  | signed w => "INT" ++ w.text
  | unsigned w => "UINT" ++ w.text
  | real32 => "REAL32"
  | real64 => "REAL64"
  | visibleString => "VSTRING"
  | octetString => "OSTRING"
  | unicodeString => "USTRING"
  | domain => "DOMAIN"

end DataType

end SdoClient
