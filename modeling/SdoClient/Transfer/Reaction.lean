/-
What one event makes of the transfer in progress. The rules of reads and writes say it with a `Reaction`, together with
the reports on the way; the engine then carries it out: sends frames, sets timers, commits the outcome.
-/
import SdoClient.Report

namespace SdoClient

/-- what becomes of the transfer in progress -/
inductive Reaction where
  /-- goes on waiting -/
  | wait (next : Active)
  /-- sends a request and waits for its answer -/
  | ask (next : Active) (request : Request)
  /-- sends its segments at the following pacing ticks -/
  | pace (next : Active)
  /-- ends well, after a closing request if the protocol has one -/
  | finish (value : Option Value) (closing : Option Request)
  /-- ends because of something the client noticed -/
  | abort (code : AbortCode)
  /-- ends because the server says so -/
  | abandon (code : AbortCode)
  deriving DecidableEq

/-- a reaction and the reports on the way to it, oldest first -/
structure Judgement where
  reports : List Report := []
  reaction : Reaction
  deriving DecidableEq

namespace Judgement

/-- a reaction without a report -/
def plain (r : Reaction) : Judgement := { reaction := r }

/-- an abort with the report that explains it -/
def fault (r : Report) (code : AbortCode) : Judgement := ⟨[r], .abort code⟩

end Judgement

/-- a response that does not belong to the phase -/
def Active.unexpected (a : Active) (response : Response) : Judgement :=
  .fault (.unexpected a.target response a) .commandNotValid

/-- goes on if a response addresses the entry of the transfer -/
def ObjectId.checked (id : ObjectId) (mux : Mux) (next : Judgement) : Judgement :=
  if mux = id.mux then next else .fault (.misaddressed id mux) .commandNotValid

end SdoClient
