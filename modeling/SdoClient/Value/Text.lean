/-
The two texts of a value. The plain text is the value alone; the described text names the kind of value as well, quotes
strings and shows reals so that a whole number is told apart from an integer.
-/
import SdoClient.Value
import SdoClient.Floating.Written
import SdoClient.Text.Quoted

namespace SdoClient.Value

/-- the value alone -/
def plainText : Value → String
  | bool b => Text.ofBool b
  | f32 bits => Floating.plain.text Floating.single (Floating.single.read bits.toNat)
  | f64 bits => Floating.plain.text Floating.double (Floating.double.read bits.toNat)
  | text s => s
  | octets data => Hex.octets data
  | v => (v.integer?.map Text.ofInt).getD ""

/-- the kind of the value, as described texts spell it -/
def kind : Value → String
  | bool _ => "Bool"
  | i8 _ => "I8"
  | i16 _ => "I16"
  | i32 _ => "I32"
  | i64 _ => "I64"
  | u8 _ => "U8"
  | u16 _ => "U16"
  | u32 _ => "U32"
  | u64 _ => "U64"
  | f32 _ => "F32"
  | f64 _ => "F64"
  | text _ => "String"
  | octets _ => "Bytes"

/-- the kind and, in brackets, the value -/
def describedText (v : Value) : String :=
  Text.tagged v.kind <|
    match v with
    | f32 bits => Floating.described.text Floating.single (Floating.single.read bits.toNat)
    | f64 bits => Floating.described.text Floating.double (Floating.double.read bits.toNat)
    | text s => Text.quoted s
    | octets data => Text.ofOctets data
    | v => v.plainText

end SdoClient.Value
