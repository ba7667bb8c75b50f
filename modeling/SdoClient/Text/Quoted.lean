/-
Quoted text: a text between double quotes in which every character reads as one character again. The quote, the
backslash and the common controls have short escapes; a character that has no shape of its own is written as its code
point in braces; every other character, a single quote among them, stays as it is.
-/
import SdoClient.Text.Hex
import SdoClient.Text.Shown

namespace SdoClient.Text

/-- how one character is written inside the quotes -/
def escape (c : Char) : String :=
  if c = '"' then "\\\""
  else if c = '\\' then "\\\\"
  else if c = '\t' then "\\t"
  else if c = '\n' then "\\n"
  else if c = '\r' then "\\r"
  else if c = '\x00' then "\\0"
  else if shown c then c.toString
  else "\\u\x7b" ++ Hex.lower c.toNat ++ "\x7d"

/-- a text between double quotes -/
def quoted (s : String) : String :=
  "\"" ++ String.join (s.toList.map escape) ++ "\""

end SdoClient.Text
