/-
The address of an entry. A multiplexer, an index and a sub-index, names an entry within one node's dictionary and is
what the frames carry; an object id adds the bus, the node and the declared type.
-/
import SdoClient.DataType
import SdoClient.Text.Hex
import SdoClient.Text.Fields

namespace SdoClient

/-- the place of an entry within a dictionary -/
structure Mux where
  index : UInt16
  subIndex : UInt8
  deriving DecidableEq, Repr

namespace Mux

/-- the index and sub-index as one number of 24 bits -/
def key (m : Mux) : Nat := 256 * m.index.toNat + m.subIndex.toNat

/-- four digits, a point and two digits, such as `0x1018.04` -/
def text (m : Mux) : String :=
  "0x" ++ Hex.upper 4 m.index.toNat ++ "." ++ Hex.upper 2 m.subIndex.toNat

end Mux

/-- an entry of a node on a bus, with the type that the entry declares -/
structure ObjectId where
  bus : UInt8
  node : UInt8
  mux : Mux
  type : DataType
  deriving DecidableEq, Repr

namespace ObjectId

/-- the two ids address the same entry, whatever types they name -/
def sameObject (a b : ObjectId) : Bool :=
  a.bus = b.bus && a.node = b.node && a.mux = b.mux

/-- bus, node, address and type, such as `bus 0 node 3 0x6041.00 (UINT16)` -/
def text (id : ObjectId) : String :=
  "bus " ++ Text.ofNat id.bus.toNat ++ " node " ++ Text.ofNat id.node.toNat ++ " " ++ id.mux.text
    ++ " (" ++ id.type.name ++ ")"

end ObjectId

end SdoClient
