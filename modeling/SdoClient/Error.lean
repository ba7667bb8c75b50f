/-
Errors that a caller can act on. Each names its cause: an address nobody answers to, a value that does not suit the
entry, a frame that is none of the protocol's, or a transport that did not take a frame. What goes wrong during a
transfer is not an error but ends the transfer with an abort code.
-/
import SdoClient.ObjectId
import SdoClient.Value.Text

namespace SdoClient

/-- why octets are no frame of the protocol -/
inductive FrameFault where
  | length (count : Nat)
  | unknownCommand (specifier : UInt8)
  | unknownBlockDownload (subcommand : UInt8)
  | other (reason : String)
  deriving DecidableEq, Repr

/-- the words for a frame fault -/
def FrameFault.reason : FrameFault → String
  | length count => "expected 8 bytes, got " ++ Text.ofNat count
  | unknownCommand specifier => "unknown server command specifier 0x" ++ Hex.upper 2 specifier.toNat
  | unknownBlockDownload subcommand => "unknown block download subcommand " ++ Text.ofNat subcommand.toNat
  | other reason => reason

/-- why a value cannot be stored -/
inductive ValueFault where
  | notRepresentable (value : Value) (type : DataType)
  | other (reason : String)
  deriving DecidableEq

/-- the words for a value fault -/
def ValueFault.reason : ValueFault → String
  | notRepresentable value type => value.describedText ++ " is not representable as " ++ type.name
  | other reason => reason

/-- why an operation is refused -/
inductive Error where
  | unknownNode (node : UInt8)
  | objectNotFound (mux : Mux)
  | invalidValue (fault : ValueFault)
  | outOfLimits (mux : Mux)
  | invalidFrame (fault : FrameFault)
  | busNotReady
  | transport (reason : String)
  deriving DecidableEq

/-- the message for a reader -/
def Error.message : Error → String
  | unknownNode node => "Unknown node " ++ Text.ofNat node.toNat
  | objectNotFound mux => "Object " ++ mux.text ++ " not found in object dictionary"
  | invalidValue fault => "Invalid value: " ++ fault.reason
  | outOfLimits mux => "Value out of limits for " ++ mux.text
  | invalidFrame fault => "Invalid frame: " ++ fault.reason
  | busNotReady => "Bus not ready to send"
  | transport reason => "Transport error: " ++ reason

end SdoClient
