/-
The checksum of block transfers: the remainder of the payload, read as a polynomial with the first bit leading, by
`x ^ 16 + x ^ 12 + x ^ 5 + 1`. It starts at zero, nothing is reflected and nothing is added at the end.

Programs leave the computation to a library for cyclic checksums, under the name CRC-16/XMODEM. The definitions here
follow what is documented of it, the polynomial, the initial value and the order of the bits, and the computation bit by
bit that it is tested against.
-/
namespace SdoClient.Checksum

/-- the polynomial without its leading term -/
def polynomial : UInt16 := 0x1021

/-- shifts one place; a bit that leaves at the top takes the polynomial with it -/
def shift (register : UInt16) : UInt16 :=
  if register &&& 0x8000 = 0 then register <<< 1 else (register <<< 1) ^^^ polynomial

/-- takes in one octet at the top of the register -/
def feed (register : UInt16) (b : UInt8) : UInt16 :=
  Nat.repeat shift 8 (register ^^^ (b.toUInt16 <<< 8))

/-- the checksum of a payload -/
def crc16 (data : List UInt8) : UInt16 :=
  data.foldl feed 0

-- the check value that is documented for the polynomial, of the digits from 1 to 9 as text
example : crc16 [0x31, 0x32, 0x33, 0x34, 0x35, 0x36, 0x37, 0x38, 0x39] = 0x31c3 := by decide +kernel

end SdoClient.Checksum
