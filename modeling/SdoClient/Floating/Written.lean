/-
Real numbers in decimal text. A style says from which size on a number is written with an exponent and whether a whole
number keeps a fraction of one zero; the digits are always the shortest that read back.
-/
import SdoClient.Floating.Shortest
import SdoClient.Text.Fields

namespace SdoClient.Floating

/-- the decisions of a written form. `exponent` says, from the exponent of the leading digit, that a number is written
as one digit, a fraction and a power of ten; otherwise it is written out in full. -/
structure Style where
  exponent : Int → Bool
  keepsFraction : Bool

/-- the form for readers: always written out in full, whole numbers without a point -/
def plain : Style := ⟨fun _ => false, false⟩

/-- the form that shows the type: whole numbers keep `.0`, and below `1e-4` and from `1e16` on the exponent is
written -/
def described : Style := ⟨fun e => e < -4 || 16 ≤ e, true⟩

/-- a decimal written out in full -/
def Style.positional (style : Style) (d : Decimal) : String :=
  let count : Int := d.digits.length
  if d.point ≤ 0 then
    "0." ++ String.ofList (List.replicate (-d.point).toNat '0' ++ d.digits)
  else if count ≤ d.point then
    String.ofList (d.digits ++ List.replicate (d.point - count).toNat '0')
      ++ (if style.keepsFraction then ".0" else "")
  else
    String.ofList (d.digits.take d.point.toNat) ++ "." ++ String.ofList (d.digits.drop d.point.toNat)

/-- a decimal with one digit before the point and its power of ten -/
def scientific (d : Decimal) : String :=
  let rest := d.digits.drop 1
  String.ofList (d.digits.take 1) ++ (if rest.isEmpty then "" else "." ++ String.ofList rest)
    ++ "e" ++ Text.ofInt (d.point - 1)

/-- the text of a datum of a layout. Zero keeps its sign, and what is no number has none. -/
def Style.text (style : Style) (f : Layout) : Datum → String
  | .notANumber => "NaN"
  | .infinite negative => (if negative then "-" else "") ++ "inf"
  | .finite negative m power =>
    let size :=
      if m = 0 then (if style.keepsFraction then "0.0" else "0")
      else
        let d := f.shortest m power
        if style.exponent (d.point - 1) then scientific d else style.positional d
    (if negative then "-" else "") ++ size

end SdoClient.Floating
