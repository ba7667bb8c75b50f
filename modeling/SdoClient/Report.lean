/-
Reports: what an engine and a bus tell a log. Each report is a fact with its parts; `level` says how urgent it is and
`text` puts it into words.
-/
import SdoClient.Error
import SdoClient.Wire.Text
import SdoClient.Transfer.Text

namespace SdoClient

/-- how urgent a report is -/
inductive Level where
  | warn
  | debug
  | trace
  deriving DecidableEq, Repr

/-- the level in capitals -/
def Level.name : Level → String
  | warn => "WARN"
  | debug => "DEBUG"
  | trace => "TRACE"

/-- one thing worth telling -/
inductive Report where
  -- frames
  | foreignFrame (node : UInt8) (frameId : UInt32)
  | idleFrame (node : UInt8) (data : List UInt8)
  | frameReceived (node : UInt8) (frame : CanFrame)
  | frameSent (node : UInt8) (frame : CanFrame)
  | notReady (node : UInt8) (request : Request)
  | sendFailed (node : UInt8) (error : Error)
  | holdingSegment (node : UInt8)
  | wrongLength (node : UInt8) (count : Nat) (id : ObjectId)
  -- the course of a transfer
  | alreadyQueued (id : ObjectId)
  | starting (id : ObjectId) (direction : Direction) (queued : Nat)
  | complete (id : ObjectId) (direction : Direction)
  | timedOut (id : ObjectId) (direction : Direction)
  | aborted (id : ObjectId) (direction : Direction) (code : AbortCode)
  | abortedByServer (id : ObjectId) (direction : Direction) (code : AbortCode)
  | commitIgnored (id : ObjectId) (failed : Bool)
  -- what a server did wrong
  | malformed (id : ObjectId) (fault : FrameFault)
  | unexpected (id : ObjectId) (response : Response) (awaited : Active)
  | misaddressed (id : ObjectId) (mux : Mux)
  | sizeDiffers (id : ObjectId) (received indicated : Nat)
  | blockSizeDiffers (id : ObjectId) (received indicated : Nat)
  | tooShort (id : ObjectId) (received needed : Nat)
  | segmentGap (id : ObjectId) (expected received : Nat)
  | resending (id : ObjectId) (acknowledged sent : Nat)
  | retriesExhausted (id : ObjectId)
  -- the bus
  | addingNode (bus node : UInt8)
  | strayFrame (bus : UInt8) (frameId : UInt32)
  deriving DecidableEq

namespace Report

/-- the urgency: frames are traced, the normal course is for debugging, and the rest is a warning -/
def level : Report → Level
  | foreignFrame _ _ | idleFrame _ _ | frameReceived _ _ | frameSent _ _ | holdingSegment _ | strayFrame _ _ => .trace
  | alreadyQueued _ | starting _ _ _ | complete _ _ | commitIgnored _ _ | resending _ _ _ | addingNode _ _ => .debug
  | _ => .warn

/-- a node by its number -/
def nodeText (node : UInt8) : String := "node " ++ Text.ofNat node.toNat

/-- a frame identifier, three digits or more -/
def frameIdText (id : UInt32) : String := "0x" ++ Hex.upper 3 id.toNat

/-- the words -/
def text : Report → String
  | foreignFrame node frameId => nodeText node ++ ": ignoring frame on " ++ frameIdText frameId
  | idleFrame node data => nodeText node ++ ": idle, ignoring [" ++ Hex.octets data ++ "]"
  | frameReceived node frame => nodeText node ++ " rx " ++ frameIdText frame.id ++ " [" ++ Hex.octets frame.data ++ "]"
  | frameSent node frame => nodeText node ++ " tx " ++ frameIdText frame.id ++ " [" ++ Hex.octets frame.data ++ "]"
  | notReady node request => nodeText node ++ ": bus not ready, " ++ request.describedText ++ " not sent"
  | sendFailed node error => nodeText node ++ ": " ++ error.message
  | holdingSegment node => nodeText node ++ ": bus busy, holding segment"
  | wrongLength node count id => nodeText node ++ ": " ++ Text.ofNat count ++ "-byte frame during " ++ id.text
  | alreadyQueued id => id.text ++ ": upload already queued"
  | starting id direction queued =>
    id.text ++ ": starting " ++ direction.text ++ " (" ++ Text.ofNat queued ++ " queued)"
  | complete id direction => id.text ++ ": " ++ direction.text ++ " complete"
  | timedOut id direction => id.text ++ ": " ++ direction.text ++ " timed out"
  | aborted id direction code => id.text ++ ": " ++ direction.text ++ " aborted with " ++ code.text
  | abortedByServer id direction code =>
    id.text ++ ": " ++ direction.text ++ " aborted by server with " ++ code.text
  | commitIgnored id failed => (if failed then "error " else "") ++ "commit on unknown object " ++ id.text
  | malformed id fault => id.text ++ ": " ++ (Error.invalidFrame fault).message
  | unexpected id response awaited =>
    id.text ++ ": unexpected " ++ response.describedText ++ " in " ++ awaited.phaseText
  | misaddressed id mux => id.text ++ ": response addresses " ++ mux.text
  | sizeDiffers id received indicated =>
    id.text ++ ": received " ++ Text.ofNat received ++ " bytes, " ++ Text.ofNat indicated ++ " indicated"
  | blockSizeDiffers id received indicated =>
    id.text ++ ": block upload ended with " ++ Text.ofNat received ++ " bytes, " ++ Text.ofNat indicated
      ++ " indicated"
  | tooShort id received needed =>
    id.text ++ ": received " ++ Text.ofNat received ++ " bytes, " ++ id.type.name ++ " needs " ++ Text.ofNat needed
  | segmentGap id expected received =>
    id.text ++ ": expected segment " ++ Text.ofNat expected ++ ", got " ++ Text.ofNat received
  | resending id acknowledged sent =>
    id.text ++ ": server acknowledged " ++ Text.ofNat acknowledged ++ " of " ++ Text.ofNat sent
      ++ " segments, resending"
  | retriesExhausted id =>
    id.text ++ ": block not acknowledged after " ++ Text.ofNat maxBlockRetries ++ " attempts"
  | addingNode bus node => "bus " ++ Text.ofNat bus.toNat ++ ": adding " ++ nodeText node
  | strayFrame bus frameId => "bus " ++ Text.ofNat bus.toNat ++ ": no node for " ++ frameIdText frameId

end Report

end SdoClient
