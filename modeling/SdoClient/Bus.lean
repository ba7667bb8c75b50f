/-
A bus: one transport and the nodes reached through it. Requests go to the node that their id names, received frames to
the node whose engine waits for their identifier, and one poll fires the timers of all nodes, in the order of their
ids.

Main statements: `route_eq_ok` (an id names a node if it names its bus) and `find?_perform` (an operation on one node
leaves the others as they are).
-/
import SdoClient.Node

namespace SdoClient

/-- a bus -/
structure Bus (τ : Type) where
  id : UInt8
  transport : τ
  config : Config := {}
  nodes : SortedMap UInt8 Node := .empty

namespace Bus

variable {τ : Type} [Transport τ]

/-! ## Nodes -/

/-- adds the node that a dictionary describes, in the stead of a node with the same id -/
def add (b : Bus τ) (d : Dictionary) : Bus τ :=
  { b with nodes := b.nodes.insert d.node (Node.create d b.config) }

/-- what adding a node tells the log -/
def addReport (b : Bus τ) (d : Dictionary) : Report := .addingNode b.id d.node

/-- removes a node -/
def remove (b : Bus τ) (node : UInt8) : Bus τ := { b with nodes := b.nodes.erase node }

/-- changes the dictionary of a node, if it is on the bus -/
def modifyDictionary (b : Bus τ) (node : UInt8) (f : Dictionary → Dictionary) : Bus τ :=
  { b with nodes := b.nodes.modify node fun n => { n with dictionary := f n.dictionary } }

/-- subscribes to the notices of a node -/
def subscribe (b : Bus τ) (node : UInt8) : Except Error (Bus τ) :=
  match b.nodes.find? node with
  | none => .error (.unknownNode node)
  | some _ => .ok (b.modifyDictionary node fun d => { d with feed := d.feed.subscribe })

/-! ## Events -/

/-- lets an event happen to a node, if it is on the bus -/
def perform (b : Bus τ) (clock : Time) (node : UInt8) (event : Engine.Event) : Bus τ × List Report :=
  match b.nodes.find? node with
  | none => (b, [])
  | some n =>
    let p := n.perform clock b.transport event
    ({ b with transport := p.transport, nodes := b.nodes.modify node fun _ => p.node }, p.log)

/-- the node that an id names: it must name this bus and a node on it -/
def route (b : Bus τ) (id : ObjectId) : Except Error Node :=
  if id.bus ≠ b.id then .error (.unknownNode id.node)
  else
    match b.nodes.find? id.node with
    | none => .error (.unknownNode id.node)
    | some n => .ok n

/-- makes a call on the node that an id names -/
def call (b : Bus τ) (clock : Time) (id : ObjectId) (event : Engine.Event) :
    Except Error (Bus τ × List Report) :=
  match b.route id with
  | .error cause => .error cause
  | .ok n =>
    match n.refusal? clock event with
    | some cause => .error cause
    | none => .ok (b.perform clock id.node event)

/-- asks a node for a read -/
def upload (b : Bus τ) (clock : Time) (id : ObjectId) : Except Error (Bus τ × List Report) :=
  b.call clock id (.upload id)

/-- asks a node for a write -/
def download (b : Bus τ) (clock : Time) (id : ObjectId) (v : Value) : Except Error (Bus τ × List Report) :=
  b.call clock id (.download id v)

/-- the first node whose engine waits for frames with this identifier -/
def listener? (b : Bus τ) (frameId : UInt32) : Option UInt8 :=
  (b.nodes.entries.find? fun entry => entry.2.engine.responseId = frameId).map (·.1)

/-- hands a received frame to the node it is for -/
def receive (b : Bus τ) (clock : Time) (frame : CanFrame) : Bus τ × List Report :=
  match b.listener? frame.id with
  | none => (b, [.strayFrame b.id frame.id])
  | some node => b.perform clock node (.frame frame)

/-- fires the timers of all nodes that are due, in the order of their ids -/
def poll (b : Bus τ) (clock now : Time) : Bus τ × List Report :=
  b.nodes.keys.foldl
    (fun (b, log) node =>
      let polled := b.perform clock node (.poll now)
      (polled.1, log ++ polled.2))
    (b, [])

/-! ## Reading the state -/

/-- the earliest deadline of all nodes -/
def nextDeadline (b : Bus τ) : Option Time :=
  b.nodes.values.foldl (fun first n => Engine.earlier first n.engine.nextDeadline) none

/-- no node has a transfer in progress or waiting -/
def isIdle (b : Bus τ) : Bool := b.nodes.values.all fun n => n.engine.isIdle

/-- the bus and the ids of its nodes -/
def describedText (b : Bus τ) : String :=
  Text.record "Bus" [("bus_id", Text.ofNat b.id.toNat), ("nodes", Text.ofOctets b.nodes.keys)]

omit [Transport τ] in
theorem route_eq_ok {b : Bus τ} {id : ObjectId} {n : Node} :
    b.route id = .ok n ↔ id.bus = b.id ∧ b.nodes.find? id.node = some n := by
  unfold route
  split
  · rename_i hbus
    simp [hbus]
  · rename_i hbus
    cases hn : b.nodes.find? id.node <;> simp [Decidable.not_not.1 hbus]

theorem find?_perform (b : Bus τ) (clock : Time) {node other : UInt8} (event : Engine.Event) (h : other ≠ node) :
    (b.perform clock node event).1.nodes.find? other = b.nodes.find? other := by
  unfold perform
  split
  · rfl
  · simp [SortedMap.find?_modify, h]

end Bus

end SdoClient
