/-
Abort codes: the 32-bit reasons with which a transfer ends early. Server and client share one space of codes; the
standard describes some of them, and a code it does not describe is shown as a bare number.
-/
import SdoClient.Text.Hex

namespace SdoClient

/-- the reason of an abort -/
structure AbortCode where
  raw : UInt32
  deriving DecidableEq, Repr

namespace AbortCode

/-- no abort -/
def none : AbortCode := ⟨0⟩

/-- a segment came with the toggle bit of the one before -/
def toggleNotAlternated : AbortCode := ⟨0x05030000⟩

/-- the server did not answer in time -/
def timeout : AbortCode := ⟨0x05040000⟩

/-- a frame did not belong to the exchange -/
def commandNotValid : AbortCode := ⟨0x05040001⟩

/-- a block size outside 1 to 127, or a block transfer of the wrong total -/
def invalidBlockSize : AbortCode := ⟨0x05040002⟩

/-- an acknowledgement of segments that were not sent, or too many incomplete blocks -/
def invalidSequenceNumber : AbortCode := ⟨0x05040003⟩

/-- the checksums of a block transfer differ -/
def crcError : AbortCode := ⟨0x05040004⟩

/-- the payload has the wrong length -/
def lengthMismatch : AbortCode := ⟨0x06070010⟩

/-- anything else -/
def generalError : AbortCode := ⟨0x08000000⟩

/-- the descriptions of the standard -/
def standard : List (UInt32 × String) :=
  [(0x05030000, "Toggle bit not alternated"),
   (0x05040000, "SDO protocol timed out"),
   (0x05040001, "Client/server command specifier not valid or unknown"),
   (0x05040002, "Invalid block size"),
   (0x05040003, "Invalid sequence number"),
   (0x05040004, "CRC error"),
   (0x05040005, "Out of memory"),
   (0x06010000, "Unsupported access to an object"),
   (0x06010001, "Attempt to read a write only object"),
   (0x06010002, "Attempt to write a read only object"),
   (0x06020000, "Object does not exist in the object dictionary"),
   (0x06040041, "Object cannot be mapped to the PDO"),
   (0x06040042, "The number and length of the objects to be mapped would exceed PDO length"),
   (0x06040043, "General parameter incompatibility reason"),
   (0x06040047, "General internal incompatibility in the device"),
   (0x06060000, "Access failed due to a hardware error"),
   (0x06070010, "Data type does not match, length of service parameter does not match"),
   (0x06070012, "Data type does not match, length of service parameter too high"),
   (0x06070013, "Data type does not match, length of service parameter too low"),
   (0x06090011, "Sub-index does not exist"),
   (0x06090030, "Invalid value for parameter"),
   (0x06090031, "Value of parameter written too high"),
   (0x06090032, "Value of parameter written too low"),
   (0x06090036, "Maximum value is less than minimum value"),
   (0x060a0023, "Resource not available: SDO connection"),
   (0x08000000, "General error"),
   (0x08000020, "Data cannot be transferred or stored to the application"),
   (0x08000021, "Data cannot be transferred or stored to the application because of local control"),
   (0x08000022, "Data cannot be transferred or stored to the application because of the present device state"),
   (0x08000023, "Object dictionary dynamic generation fails or no object dictionary is present"),
   (0x08000024, "No data available")]

/-- the standard's words for a code, if it has any -/
def description? (c : AbortCode) : Option String :=
  standard.lookup c.raw

/-- the client itself raises this code -/
def isProtocolError (c : AbortCode) : Bool :=
  [toggleNotAlternated, timeout, commandNotValid, invalidBlockSize, invalidSequenceNumber, crcError, lengthMismatch,
    generalError].contains c

/-- eight digits, followed by the description if there is one -/
def text (c : AbortCode) : String :=
  let number := "0x" ++ Hex.upper 8 c.raw.toNat
  match c.description? with
  | some words => number ++ " (" ++ words ++ ")"
  | Option.none => number

end AbortCode

end SdoClient
