/-
Frames of the CAN bus as they cross the transport, and the shape that all frames of the protocol share: eight octets,
the first a command whose top three bits are its specifier and whose low bits are flags.

Main statements: `padded_toList` (a field of fixed size is the payload cut or filled with zeros).
-/
namespace SdoClient

/-- a frame on the bus: its identifier and its octets -/
structure CanFrame where
  id : UInt32
  data : List UInt8
  deriving DecidableEq, Repr

namespace Wire

/-- the number of octets of every frame of the protocol -/
def size : Nat := 8

/-- the most payload octets of one segment -/
def segmentSize : Nat := 7

/-- the most payload octets that fit into an initiate frame -/
def expeditedMax : Nat := 4

/-- the most segments of one block -/
def blockMax : Nat := 127

/-- the base identifier of requests, to which the node id is added -/
def requestBase : UInt32 := 0x600

/-- the base identifier of responses, to which the node id is added -/
def responseBase : UInt32 := 0x580

/-- a command: its specifier above, its flags below -/
def command (specifier flags : Nat) : UInt8 := UInt8.ofNat (32 * specifier + flags)

/-- the weight of a flag if it is set -/
def flag (weight : Nat) (set : Bool) : Nat := if set then weight else 0

/-- the flag of the given weight is set -/
def hasFlag (command : UInt8) (weight : Nat) : Bool := command.toNat / weight % 2 = 1

/-- a field of `count` octets: the payload, cut or filled up with zeros -/
def padded (count : Nat) (data : List UInt8) : Vector UInt8 count :=
  ⟨⟨data.take count ++ List.replicate (count - data.length) 0⟩, by simp; omega⟩

theorem padded_toList (count : Nat) (data : List UInt8) :
    (padded count data).toList = data.take count ++ List.replicate (count - data.length) 0 := rfl

/-- a valid number of segments per block -/
def validBlockSize (n : Nat) : Bool := 1 ≤ n && n ≤ blockMax

end Wire

end SdoClient
