/-
Hexadecimal text: numbers padded with zeros on the left, and octets as pairs of digits. Identifiers and abort codes
are written with `upper`, payloads with `octets`.
-/
namespace SdoClient.Hex

/-- the digits of `n` in capitals, at least `width` of them -/
def upper (width n : Nat) : String :=
  let digits := (Nat.toDigits 16 n).map Char.toUpper
  String.ofList (List.replicate (width - digits.length) '0' ++ digits)

/-- the digits of `n` in small letters, as few as needed -/
def lower (n : Nat) : String :=
  String.ofList (Nat.toDigits 16 n)

/-- a payload as pairs of digits with blanks between them -/
def octets (data : List UInt8) : String :=
  " ".intercalate (data.map fun b => upper 2 b.toNat)

end SdoClient.Hex
