/-
The outbound side of a bus. A transport says whether it can take a frame now and takes frames one by one, each of which
it may refuse. `carry` hands it the effects of an engine: offered requests become frames, and what became of each is
told to the log in place of the offer.
-/
import SdoClient.Engine

namespace SdoClient

/-- the outbound side of a bus -/
class Transport (τ : Type) where
  /-- a frame can be taken now -/
  canSend : τ → Bool
  /-- hands over a frame; the transport after it, and why the frame was refused -/
  send : τ → CanFrame → τ × Except Error Unit

namespace Transport

variable {τ : Type} [Transport τ]

/-- offers one request as a frame: nothing is sent while the transport is not ready -/
def offer (node : UInt8) (frameId : UInt32) (t : τ) (request : Request) : τ × Report :=
  if canSend t then
    let frame : CanFrame := ⟨frameId, request.toBytes⟩
    match send t frame with
    | (t, .ok _) => (t, .frameSent node frame)
    | (t, .error cause) => (t, .sendFailed node cause)
  else (t, .notReady node request)

/-- carries out effects in order; the reports that result, oldest first -/
def carry (node : UInt8) (frameId : UInt32) (t : τ) : List Effect → τ × List Report
  | [] => (t, [])
  | .offer request :: rest =>
    let offered := offer node frameId t request
    let later := carry node frameId offered.1 rest
    (later.1, offered.2 :: later.2)
  | .publish _ :: rest => carry node frameId t rest
  | .log report :: rest =>
    let later := carry node frameId t rest
    (later.1, report :: later.2)

end Transport

/-! ## A transport that records -/

/-- a transport in memory: it keeps every frame it takes, and a gate can be closed -/
structure Recorder where
  sent : List CanFrame := []
  ready : Bool := true
  deriving DecidableEq, Repr

namespace Recorder

instance : Transport Recorder where
  canSend r := r.ready
  send r frame := if r.ready then ({ r with sent := r.sent ++ [frame] }, .ok ()) else (r, .error .busNotReady)

/-- forgets the recorded frames -/
def clear (r : Recorder) : Recorder := { r with sent := [] }

/-- the frame recorded last -/
def last? (r : Recorder) : Option CanFrame := r.sent.getLast?

/-- the number of recorded frames and the gate -/
def describedText (r : Recorder) : String :=
  Text.record "MemoryTransport" [("sent", Text.ofNat r.sent.length), ("ready", Text.ofBool r.ready)]

end Recorder

end SdoClient
