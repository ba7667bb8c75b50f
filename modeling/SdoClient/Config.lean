/-
The settings of an engine. Times are in nanoseconds.
-/
import SdoClient.Wire

namespace SdoClient

/-- a point in time or a span of it, in nanoseconds -/
abbrev Time := Nat

namespace Time

/-- a span of milliseconds -/
def milliseconds (n : Nat) : Time := 1000000 * n

end Time

/-- the settings of an engine -/
structure Config where
  /-- how long the server may take to answer a frame -/
  timeout : Time := Time.milliseconds 1000
  /-- the pause between two segments of a block download -/
  pacing : Time := Time.milliseconds 1
  /-- the segments per block asked for in block uploads -/
  blockSize : UInt8 := 127
  /-- offer a checksum in block transfers -/
  crc : Bool := false
  /-- the base identifier of requests -/
  requestBase : UInt32 := Wire.requestBase
  /-- the base identifier of responses -/
  responseBase : UInt32 := Wire.responseBase
  deriving DecidableEq, Repr

namespace Config

/-- a block size brought into the valid range -/
def clampBlockSize (n : UInt8) : UInt8 := UInt8.ofNat (max 1 (min n.toNat Wire.blockMax))

/-- sets the block size, brought into the valid range -/
def withBlockSize (c : Config) (n : UInt8) : Config := { c with blockSize := clampBlockSize n }

/-- the identifier of the requests to a node -/
def requestId (c : Config) (node : UInt8) : UInt32 := c.requestBase + node.toUInt32

/-- the identifier of the responses of a node -/
def responseId (c : Config) (node : UInt8) : UInt32 := c.responseBase + node.toUInt32

/-- whatever is asked for, the setter leaves a valid block size -/
theorem valid_withBlockSize (c : Config) (n : UInt8) :
    Wire.validBlockSize (c.withBlockSize n).blockSize.toNat = true := by
  simp only [withBlockSize, clampBlockSize, Wire.validBlockSize, Wire.blockMax, UInt8.toNat_ofNat', Bool.and_eq_true,
    decide_eq_true_eq]
  omega

end Config

end SdoClient
