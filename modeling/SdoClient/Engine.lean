/-
The engine of one remote node: a queue of transfers served one at a time, first come first served.

The engine is a pure machine. It is driven by calls, received frames and points in time, and it answers with its next
state, the next dictionary and the effects in the order in which they happen: requests offered to the bus, notices
published and reports. Whether the bus took a request does not feed back: a lost request is left to the timeout. Only a
pacing tick first asks whether the bus is ready.

Two timers drive it. The timeout is set anew by every request and aborts the transfer; the pacing timer spaces the
segments of a block download.

Main statements: `receive_foreign`, `receive_idle` (frames that do not concern the engine change nothing), `poll_before`
(nothing happens before the next deadline).
-/
import SdoClient.Dictionary
import SdoClient.Transfer.Reading
import SdoClient.Transfer.Writing

namespace SdoClient

/-- what an engine does to its surroundings -/
inductive Effect where
  /-- offers a request to the bus -/
  | offer (request : Request)
  /-- publishes the outcome of a transfer -/
  | publish (notice : Notice)
  /-- tells the log -/
  | log (report : Report)
  deriving DecidableEq

/-- the engine of a node -/
structure Engine where
  node : UInt8
  config : Config := {}
  queue : List Transfer := []
  active : Option Active := none
  timeoutAt : Option Time := none
  pacingAt : Option Time := none
  deriving DecidableEq

/-- what an event makes of an engine and its dictionary -/
structure Outcome where
  engine : Engine
  dictionary : Dictionary
  effects : List Effect := []
  deriving DecidableEq

namespace Engine

variable (e : Engine)

/-! ## Reading the state -/

/-- the identifier of the frames that the engine sends -/
def requestId : UInt32 := e.config.requestId e.node

/-- the identifier of the frames that the engine receives -/
def responseId : UInt32 := e.config.responseId e.node

/-- the state by its active transfer -/
def state : State := (e.active.map Active.state).getD .free

/-- nothing is in progress and nothing waits -/
def isIdle : Bool := e.active.isNone && e.queue.isEmpty

/-- the earlier of two deadlines, of which either may be unset -/
def earlier : Option Time → Option Time → Option Time
  | some a, some b => some (min a b)
  | some a, none => some a
  | none, b => b

/-- when the engine next needs to be polled -/
def nextDeadline : Option Time := earlier e.timeoutAt e.pacingAt

/-- the deadline is set and reached -/
def due (deadline : Option Time) (now : Time) : Bool := deadline.any fun t => decide (t ≤ now)

/-- node, state and length of the queue -/
def describedText : String :=
  Text.record "Sdo" [("node_id", Text.ofNat e.node.toNat), ("state", e.state.name),
    ("queued", Text.ofNat e.queue.length)]

/-! ## Timers -/

/-- sets the timeout, as every request does -/
def armTimeout (clock : Time) : Engine := { e with timeoutAt := some (clock + e.config.timeout) }

/-- sets the pacing timer -/
def armPacing (clock : Time) : Engine := { e with pacingAt := some (clock + e.config.pacing) }

/-- the engine between two transfers: nothing in progress, no timer set -/
def released : Engine := { e with active := none, timeoutAt := none, pacingAt := none }

/-! ## The queue -/

/-- starts the first waiting transfer if none is in progress -/
def startNext (clock : Time) : Engine × List Effect :=
  match e.active, e.queue with
  | none, t :: rest =>
    let opened := t.begin e.config
    (({ e with queue := rest, active := some opened.1 } : Engine).armTimeout clock,
      [.log (.starting t.target t.direction rest.length), .offer opened.2])
  | _, _ => (e, [])

/-- the entry that a caller means, with the type that it declares -/
def resolve (d : Dictionary) (id : ObjectId) : Except Error (ObjectId × Entry) :=
  if id.node ≠ e.node ∨ d.node ≠ e.node then .error (.unknownNode id.node)
  else
    match d.find? id.mux with
    | none => .error (.objectNotFound id.mux)
    | some entry => .ok ({ id with type := entry.type }, entry)

/-- a read of this entry already waits -/
def readWaits (id : ObjectId) : Bool :=
  e.queue.any fun t => t.direction = .upload && t.target.sameObject id

/-- puts a transfer at the end of the queue -/
def enqueue (clock : Time) (t : Transfer) : Engine × List Effect :=
  ({ e with queue := e.queue ++ [t] } : Engine).startNext clock

/-- asks for a read. A read of an entry that waits already is not queued twice. -/
def upload (clock : Time) (d : Dictionary) (id : ObjectId) : Except Error (Engine × List Effect) :=
  match e.resolve d id with
  | .error cause => .error cause
  | .ok (id, _) =>
    if e.readWaits id then .ok (e, [.log (.alreadyQueued id)])
    else .ok (e.enqueue clock ⟨id, .read⟩)

/-- asks for a write. The value must lie within the limits of the entry and fit its type; once written, the entry holds
what a read would return. -/
def download (clock : Time) (d : Dictionary) (id : ObjectId) (v : Value) :
    Except Error (Engine × List Effect) :=
  match e.resolve d id with
  | .error cause => .error cause
  | .ok (id, entry) =>
    if entry.withinLimits v then
      match v.encode id.type with
      | .error cause => .error cause
      | .ok payload => .ok (e.enqueue clock ⟨id, .write ((Value.decode payload id.type).getD v) payload⟩)
    else .error (.outOfLimits id.mux)

/-! ## The end of a transfer -/

/-- what committing an outcome does to the surroundings -/
def commitEffect (id : ObjectId) (failed : Bool) : Option Notice → Effect
  | some n => .publish n
  | none => .log (.commitIgnored id failed)

/-- ends the transfer `a` with a committed dictionary and starts the next one -/
def conclude (clock : Time) (committed : Dictionary × Option Notice) (id : ObjectId) (failed : Bool)
    (before : List Effect) : Outcome :=
  let next := e.released.startNext clock
  ⟨next.1, committed.1, before ++ commitEffect id failed committed.2 :: next.2⟩

/-- carries out what an event makes of the transfer in progress -/
def settle (clock : Time) (d : Dictionary) (a : Active) : Reaction → Outcome
  | .wait next => ⟨{ e with active := some next }, d, []⟩
  | .ask next request => ⟨({ e with active := some next } : Engine).armTimeout clock, d, [.offer request]⟩
  | .pace next => ⟨({ e with active := some next } : Engine).armPacing clock, d, []⟩
  | .finish value closing =>
    e.conclude clock (d.commitValue a.target value a.direction clock) a.target false
      ((closing.map Effect.offer).toList ++ [.log (.complete a.target a.direction)])
  | .abort code =>
    e.conclude clock (d.commitError a.target code a.direction) a.target true
      [.log (.aborted a.target a.direction code), .offer (.abort a.target.mux code)]
  | .abandon code =>
    e.conclude clock (d.commitError a.target code a.direction) a.target true
      [.log (.abortedByServer a.target a.direction code)]

/-! ## Events -/

/-- what eight octets make of the transfer in progress: a segment while a block upload streams, unless they are an
abort, and a response otherwise -/
def judge (config : Config) (a : Active) (data : List UInt8) : Judgement :=
  let answered : Judgement :=
    match Response.parse data with
    | .error fault => .fault (.malformed a.target fault) .commandNotValid
    | .ok (.abort _ code) => .plain (.abandon code)
    | .ok response =>
      match a with
      | .reading r => r.answer config response
      | .writing w => w.answer config response
  match a with
  | .reading r =>
    match r.phase with
    | .block intake =>
      if isAbortFrame data then answered
      else
        match Segment.parse data with
        | .ok s => r.segment config intake s
        | .error _ => .plain (.abort .generalError)
    | _ => answered
  | .writing _ => answered

/-- takes in a frame from the bus. Frames with another identifier, and all frames while nothing is in progress, are
ignored. -/
def receive (clock : Time) (d : Dictionary) (frame : CanFrame) : Outcome :=
  if frame.id ≠ e.responseId then ⟨e, d, [.log (.foreignFrame e.node frame.id)]⟩
  else
    match e.active with
    | none => ⟨e, d, [.log (.idleFrame e.node frame.data)]⟩
    | some a =>
      let judgement : Judgement :=
        if frame.data.length ≠ Wire.size then
          .fault (.wrongLength e.node frame.data.length a.target) .generalError
        else judge e.config a frame.data
      let o := e.settle clock d a judgement.reaction
      { o with effects := .log (.frameReceived e.node frame) :: judgement.reports.map .log ++ o.effects }

/-- aborts the transfer in progress because the server did not answer in time -/
def expire (clock : Time) (d : Dictionary) : Outcome :=
  match e.active with
  | none => ⟨{ e with timeoutAt := none }, d, []⟩
  | some a =>
    let o := e.settle clock d a (.abort .timeout)
    { o with effects := .log (.timedOut a.target a.direction) :: o.effects }

/-- sends the next segment of a block download. If the bus is not ready, the segment waits for another tick. -/
def tick (clock : Time) (ready : Bool) : Engine × List Effect :=
  let e := { e with pacingAt := none }
  match e.active with
  | some (.writing w) =>
    match w.sending? with
    | none => (e, [])
    | some block =>
      if ready then
        let sent := w.tick block
        let e := ({ e with active := some (.writing sent.1) } : Engine).armTimeout clock
        (if sent.1.sending?.isSome then e.armPacing clock else e, [.offer sent.2])
      else (e.armPacing clock, [.log (.holdingSegment e.node)])
  | _ => (e, [])

/-- fires the timers that are due, the timeout first -/
def poll (clock : Time) (ready : Bool) (d : Dictionary) (now : Time) : Outcome :=
  let first : Outcome := if due e.timeoutAt now then e.expire clock d else ⟨e, d, []⟩
  if due first.engine.pacingAt now then
    let second := first.engine.tick clock ready
    ⟨second.1, first.dictionary, first.effects ++ second.2⟩
  else first

/-! ## Runs -/

/-- everything that can happen to an engine -/
inductive Event where
  | upload (id : ObjectId)
  | download (id : ObjectId) (value : Value)
  | frame (frame : CanFrame)
  | timeout
  | tick
  | poll (now : Time)
  deriving DecidableEq

/-- an event, when it happens and whether the bus is ready then -/
structure Occasion where
  clock : Time
  ready : Bool
  event : Event
  deriving DecidableEq

/-- the outcome of a call: unchanged if it was refused -/
def called (d : Dictionary) (result : Except Error (Engine × List Effect)) : Outcome :=
  match result with
  | .ok (next, effects) => ⟨next, d, effects⟩
  | .error _ => ⟨e, d, []⟩

/-- one event -/
def step (d : Dictionary) (o : Occasion) : Outcome :=
  match o.event with
  | .upload id => e.called d (e.upload o.clock d id)
  | .download id v => e.called d (e.download o.clock d id v)
  | .frame frame => e.receive o.clock d frame
  | .timeout => e.expire o.clock d
  | .tick => let t := e.tick o.clock o.ready; ⟨t.1, d, t.2⟩
  | .poll now => e.poll o.clock o.ready d now

/-- a run of events; the effects of all of them in order -/
def run (e : Engine) (d : Dictionary) : List Occasion → Outcome
  | [] => ⟨e, d, []⟩
  | o :: rest =>
    let first := e.step d o
    let later := run first.engine first.dictionary rest
    { later with effects := first.effects ++ later.effects }

/-! ## What changes nothing -/

theorem receive_foreign {clock : Time} {d : Dictionary} {frame : CanFrame} (h : frame.id ≠ e.responseId) :
    e.receive clock d frame = ⟨e, d, [.log (.foreignFrame e.node frame.id)]⟩ := by
  simp [receive, h]

theorem receive_idle {clock : Time} {d : Dictionary} {frame : CanFrame} (h : frame.id = e.responseId)
    (ha : e.active = none) :
    e.receive clock d frame = ⟨e, d, [.log (.idleFrame e.node frame.data)]⟩ := by
  simp [receive, h, ha]

theorem poll_before {clock : Time} {ready : Bool} {d : Dictionary} {now : Time}
    (ht : due e.timeoutAt now = false) (hp : due e.pacingAt now = false) :
    e.poll clock ready d now = ⟨e, d, []⟩ := by
  simp [poll, ht, hp]

end Engine

end SdoClient
