/-
The texts of structured values in reports and errors: a tag alone, a tag with positional parts in round brackets, a tag
with named parts in braces, and a list in square brackets.
-/
namespace SdoClient.Text

/-- parts with a comma and a blank between them -/
def separated (parts : List String) : String :=
  ", ".intercalate parts

/-- a list, such as `[1, 2]` -/
def bracketed (parts : List String) : String :=
  "[" ++ separated parts ++ "]"

/-- a tag with one positional part, such as `Some(3)` -/
def tagged (tag part : String) : String :=
  tag ++ "(" ++ part ++ ")"

/-- a tag with named parts, such as `Segment { seqno: 1, last: true }` -/
def record (tag : String) (parts : List (String × String)) : String :=
  tag ++ " \x7b " ++ separated (parts.map fun p => p.1 ++ ": " ++ p.2) ++ " \x7d"

/-- `true` or `false` -/
def ofBool (b : Bool) : String :=
  if b then "true" else "false"

/-- a whole number in decimal -/
def ofNat (n : Nat) : String :=
  String.ofList (Nat.toDigits 10 n)

/-- a whole number in decimal, negative ones after a minus sign -/
def ofInt (n : Int) : String :=
  if n < 0 then "-" ++ ofNat n.natAbs else ofNat n.natAbs

/-- octets as a list of decimal numbers -/
def ofOctets (data : List UInt8) : String :=
  bracketed (data.map fun b => ofNat b.toNat)

/-- a part that may be absent: `None`, or the part under `Some` -/
def ofOption (part : Option String) : String :=
  match part with
  | none => "None"
  | some text => tagged "Some" text

end SdoClient.Text
