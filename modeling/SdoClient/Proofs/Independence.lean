/-
The nodes of a bus share one transport and nothing else. Calls find their node by its id, frames by their identifier,
and a poll goes through all nodes in turn; since each node is entered under its own id and all of them have the settings
of the bus, no two wait for the same frames. If besides the transport does not show what was sent over it, a node cannot
tell whether others are on the bus.

Main statements:
- `find_listener`: a frame goes to the one node that waits for its identifier;
- `Beside.operate`: an operation does to a node on a bus what it does to the node alone, if it is addressed to it, and
  nothing otherwise;
- `nodes_independent`: over every sequence of operations a node on a bus becomes what it becomes alone, and sends the
  same frames.
-/
import Mathlib.Tactic
import SdoClient.Proofs.BusRun
import SdoClient.Proofs.Grammar
import SdoClient.Proofs.Sending

namespace SdoClient

/-! ## Entries of a sorted map -/

namespace SortedMap

variable {κ ν : Type} [LT κ] [LE κ] [Std.LawfulOrderLT κ]

theorem find?_of_mem_entries [DecidableEq κ] {m : SortedMap κ ν} {k : κ} {v : ν} (h : (k, v) ∈ m.entries) :
    m.find? k = some v := by
  obtain ⟨entries, hsorted⟩ := m
  simp only [find?]
  induction entries with
  | nil => cases h
  | cons entry rest ih =>
    obtain ⟨hfirst, hrest⟩ := List.pairwise_cons.1 hsorted
    rw [lookup]
    rcases List.mem_cons.1 h with rfl | hlater
    · exact if_pos rfl
    · have hne : entry.1 ≠ k := fun heq => Std.lt_irrefl (heq ▸ hfirst _ hlater)
      rw [if_neg hne]
      exact ih hrest hlater

theorem nodup_keys (m : SortedMap κ ν) : m.keys.Nodup := by
  refine List.Pairwise.map _ (fun a b (hlt : a.1 < b.1) heq => ?_) m.sorted
  rw [heq] at hlt
  exact Std.lt_irrefl hlt

end SortedMap

/-! ## Identifiers -/

namespace Config

theorem add_toUInt32_inj {base : UInt32} {a b : UInt8} (h : base + a.toUInt32 = base + b.toUInt32) : a = b := by
  have hnat := congrArg UInt32.toNat h
  simp only [UInt32.toNat_add, UInt8.toNat_toUInt32] at hnat
  have ha := a.toNat_lt
  have hb := b.toNat_lt
  exact UInt8.toNat_inj.1 (by omega)

/-- no two nodes wait for the same frames -/
theorem responseId_inj {c : Config} {a b : UInt8} (h : c.responseId a = c.responseId b) : a = b := add_toUInt32_inj h

/-- no two nodes send under the same identifier -/
theorem requestId_inj {c : Config} {a b : UInt8} (h : c.requestId a = c.requestId b) : a = b := add_toUInt32_inj h

end Config

/-! ## Transports that do not show what was sent -/

namespace Transport

variable {τ : Type} [Transport τ]

/-- alike transports are ready at the same time and answer a frame in the same way, and they stay alike whatever frames
either of them is given -/
structure Steady (alike : τ → τ → Prop) : Prop where
  ready {t u : τ} : alike t u → canSend t = canSend u
  answer {t u : τ} : alike t u → ∀ frame, (send t frame).2 = (send u frame).2
  left {t u : τ} : alike t u → ∀ frame, alike (send t frame).1 u
  right {t u : τ} : alike t u → ∀ frame, alike t (send u frame).1

variable {alike : τ → τ → Prop} {t u : τ}

theorem Steady.offer_left (h : Steady alike) (ha : alike t u) (node : UInt8) (frameId : UInt32) (request : Request) :
    alike (offer node frameId t request).1 u := by
  cases hready : canSend t with
  | false => simpa [offer, hready] using ha
  | true =>
    rw [(offer_ready hready node frameId request).1]
    exact h.left ha _

theorem Steady.offer (h : Steady alike) (ha : alike t u) (node : UInt8) (frameId : UInt32) (request : Request) :
    alike (offer node frameId t request).1 (offer node frameId u request).1 ∧
      (offer node frameId t request).2 = (offer node frameId u request).2 := by
  have hsame : canSend t = canSend u := h.ready ha
  cases hready : canSend t with
  | false => simpa [Transport.offer, hready, ← hsame] using ha
  | true =>
    have hanswer := h.answer ha ⟨frameId, request.toBytes⟩
    refine ⟨?_, ?_⟩
    · rw [(offer_ready hready node frameId request).1, (offer_ready (hsame ▸ hready) node frameId request).1]
      exact h.right (h.left ha _) _
    · rw [Transport.offer, Transport.offer, if_pos hready, if_pos (hsame ▸ hready)]
      dsimp only
      split <;> split <;> simp_all

/-- alike transports stay alike when the same effects are carried out over both, and tell the log the same -/
theorem Steady.carry (h : Steady alike) (ha : alike t u) (node : UInt8) (frameId : UInt32) (effects : List Effect) :
    alike (carry node frameId t effects).1 (carry node frameId u effects).1 ∧
      (carry node frameId t effects).2 = (carry node frameId u effects).2 := by
  induction effects generalizing t u with
  | nil => exact ⟨ha, rfl⟩
  | cons effect rest ih =>
    cases effect with
    | offer request =>
      obtain ⟨hoffered, hreport⟩ := h.offer ha node frameId request
      obtain ⟨hlater, hlog⟩ := ih hoffered
      exact ⟨hlater, by rw [Transport.carry, Transport.carry, hreport, hlog]⟩
    | publish notice => exact ih ha
    | log report =>
      obtain ⟨hlater, hlog⟩ := ih ha
      exact ⟨hlater, by rw [Transport.carry, Transport.carry, hlog]⟩

/-- what is carried out over one of two alike transports does not set them apart -/
theorem Steady.carry_left (h : Steady alike) (ha : alike t u) (node : UInt8) (frameId : UInt32)
    (effects : List Effect) : alike (Transport.carry node frameId t effects).1 u := by
  induction effects generalizing t with
  | nil => exact ha
  | cons effect rest ih =>
    cases effect with
    | offer request => exact ih (h.offer_left ha node frameId request)
    | publish notice | log report => exact ih ha

end Transport

/-! ## Operations -/

namespace Bus

/-- what its users and its surroundings can do to a bus -/
inductive Operation (τ : Type) where
  | add (d : Dictionary)
  | remove (node : UInt8)
  /-- someone works on the dictionary of a node, or subscribes to it -/
  | edit (node : UInt8) (f : Dictionary → Dictionary)
  /-- the transport changes by itself, as when its gate is opened or closed -/
  | change (f : τ → τ)
  | upload (clock : Time) (id : ObjectId)
  | download (clock : Time) (id : ObjectId) (value : Value)
  | frame (clock : Time) (frame : CanFrame)
  | poll (clock now : Time)

namespace Operation

variable {τ : Type}

/-- the operation is addressed to a node of the bus: a call by its id, a frame by its identifier, and a poll or a change
of the transport in any case -/
def concerns (bus : UInt8) (config : Config) (node : UInt8) : Operation τ → Bool
  | .add _ | .remove _ => false
  | .edit n _ => n = node
  | .change _ | .poll _ _ => true
  | .upload _ id | .download _ id _ => id.bus = bus && id.node = node
  | .frame _ f => f.id = config.responseId node

/-- the operation neither removes the node nor puts another one in its stead -/
def spares (node : UInt8) : Operation τ → Bool
  | .add d => d.node ≠ node
  | .remove n => n ≠ node
  | _ => true

/-- a change of the transport does not depend on what was sent -/
def Respects (alike : τ → τ → Prop) : Operation τ → Prop
  | .change f => ∀ t u, alike t u → alike (f t) (f u)
  | _ => True

end Operation

variable {τ : Type} [Transport τ]

/-- the bus and the log after a call: nothing happens if it was refused -/
def answered (b : Bus τ) : Except Error (Bus τ × List Report) → Bus τ × List Report
  | .ok p => p
  | .error _ => (b, [])

/-- the bus and the log after an operation -/
def operate (b : Bus τ) : Operation τ → Bus τ × List Report
  | .add d => (b.add d, [b.addReport d])
  | .remove node => (b.remove node, [])
  | .edit node f => (b.modifyDictionary node f, [])
  | .change f => ({ b with transport := f b.transport }, [])
  | .upload clock id => b.answered (b.upload clock id)
  | .download clock id v => b.answered (b.download clock id v)
  | .frame clock frame => b.receive clock frame
  | .poll clock now => b.poll clock now

/-- the bus and the log after a sequence of operations -/
def operateAll (b : Bus τ) : List (Operation τ) → Bus τ × List Report
  | [] => (b, [])
  | op :: rest =>
    let first := b.operate op
    let later := first.1.operateAll rest
    (later.1, first.2 ++ later.2)

end Bus

namespace Node

variable {τ : Type} [Transport τ]

/-- a node with a transport of its own, after an operation that is addressed to it -/
def operate (n : Node) (t : τ) : Bus.Operation τ → Performance τ
  | .add _ | .remove _ => ⟨n, t, []⟩
  | .edit _ f => ⟨{ n with dictionary := f n.dictionary }, t, []⟩
  | .change f => ⟨n, f t, []⟩
  | .upload clock id => n.perform clock t (.upload id)
  | .download clock id v => n.perform clock t (.download id v)
  | .frame clock frame => n.perform clock t (.frame frame)
  | .poll clock now => n.perform clock t (.poll now)

/-- a node with a transport of its own, after a sequence of operations -/
def operateAll (n : Node) (t : τ) : List (Bus.Operation τ) → Performance τ
  | [] => ⟨n, t, []⟩
  | op :: rest =>
    let first := n.operate t op
    let later := first.node.operateAll first.transport rest
    { later with log := first.log ++ later.log }

end Node

/-! ## Nodes under their ids -/

namespace Bus

variable {τ : Type} [Transport τ] {b : Bus τ} {bus node k : UInt8} {config : Config} {n m : Node} {clock : Time}

/-- a node has the id under which it is entered, and the settings of its bus -/
structure Placed (config : Config) (k : UInt8) (n : Node) : Prop where
  node : n.engine.node = k
  config : n.engine.config = config

theorem Placed.perform (h : Placed config k n) (clock : Time) (t : τ) (event : Engine.Event) :
    Placed config k (n.perform clock t event).node := by
  obtain ⟨hnode, hconfig⟩ := n.engine.step_fixed n.dictionary ⟨clock, Transport.canSend t, event⟩
  exact ⟨hnode.trans h.node, hconfig.trans h.config⟩

/-- a bus with its id and its settings, every node of which is in its place -/
structure Regular (bus : UInt8) (config : Config) (b : Bus τ) : Prop where
  named : b.id = bus
  settings : b.config = config
  placed : ∀ k n, b.nodes.find? k = some n → Placed config k n

omit [Transport τ] in
theorem regular_start (bus : UInt8) (t : τ) (config : Config) : (start bus t config).Regular bus config :=
  ⟨rfl, rfl, fun _ _ h => by cases h⟩

/-! ### One event of one node -/

/-- an event of a node of the bus is an event of that node over the transport of the bus -/
theorem perform_found (h : b.nodes.find? node = some n) (event : Engine.Event) :
    b.perform clock node event =
      ({ b with
        transport := (n.perform clock b.transport event).transport
        nodes := b.nodes.modify node fun _ => (n.perform clock b.transport event).node },
        (n.perform clock b.transport event).log) := by
  rw [perform, h]

theorem Regular.perform (h : b.Regular bus config) (clock : Time) (node : UInt8) (event : Engine.Event) :
    (b.perform clock node event).1.Regular bus config := by
  cases hn : b.nodes.find? node with
  | none =>
    rw [Bus.perform, hn]
    exact h
  | some n =>
    rw [perform_found hn]
    refine ⟨h.named, h.settings, fun k m hm => ?_⟩
    rw [SortedMap.find?_modify] at hm
    split at hm
    · rename_i hk
      subst hk
      rw [hn] at hm
      cases hm
      exact (h.placed k n hn).perform clock _ event
    · exact h.placed k m hm

/-! ### Frames and their nodes -/

section listeners

omit [Transport τ]

/-- a frame is for at most one node -/
theorem Regular.listener_unique (h : b.Regular bus config) (hn : b.nodes.find? node = some n)
    (hm : b.nodes.find? k = some m) (hsame : n.engine.responseId = m.engine.responseId) : node = k := by
  have hplaced := h.placed node n hn
  have hplaced' := h.placed k m hm
  rw [Engine.responseId, Engine.responseId, hplaced.node, hplaced.config, hplaced'.node, hplaced'.config] at hsame
  exact Config.responseId_inj hsame

/-- the node that a frame goes to is on the bus and waits for its identifier -/
theorem listener_found {frameId : UInt32} (h : b.listener? frameId = some node) :
    ∃ n, b.nodes.find? node = some n ∧ n.engine.responseId = frameId := by
  obtain ⟨⟨k, n⟩, hfound, rfl⟩ := Option.map_eq_some_iff.1 h
  refine ⟨n, SortedMap.find?_of_mem_entries (List.mem_of_find?_eq_some hfound), ?_⟩
  simpa using List.find?_some hfound

/-- **A frame goes to the node that waits for its identifier.** -/
theorem Regular.find_listener (h : b.Regular bus config) (hn : b.nodes.find? node = some n) (frameId : UInt32) :
    b.listener? frameId = some node ↔ frameId = config.responseId node := by
  have hplaced := h.placed node n hn
  have hid : n.engine.responseId = config.responseId node := by
    rw [Engine.responseId, hplaced.node, hplaced.config]
  constructor
  · intro hlistener
    obtain ⟨m, hm, hwaits⟩ := listener_found hlistener
    obtain rfl := Option.some.inj (hn.symm.trans hm)
    rw [← hwaits, hid]
  · intro hframe
    have hsome : (b.nodes.entries.find? fun entry => entry.2.engine.responseId = frameId).isSome = true :=
      List.find?_isSome.2 ⟨(node, n), SortedMap.mem_entries_of_find? hn, by simpa [hframe] using hid⟩
    obtain ⟨k, hk⟩ : ∃ k, b.listener? frameId = some k := by
      simpa [listener?, Option.isSome_iff_exists] using hsome
    obtain ⟨m, hm, hwaits⟩ := listener_found hk
    obtain rfl := h.listener_unique hn hm (by rw [hid, hwaits, hframe])
    exact hk

end listeners

/-! ### A node on the bus and the same node alone -/

/-- the frames of a log that were sent under the identifier of a node -/
def framesOf (config : Config) (node : UInt8) (log : List Report) : List CanFrame :=
  (sentFrames log).filter fun f => f.id = config.requestId node

omit [Transport τ] in
theorem framesOf_append (config : Config) (node : UInt8) (a b : List Report) :
    framesOf config node (a ++ b) = framesOf config node a ++ framesOf config node b := by
  rw [framesOf, sentFrames_append, List.filter_append]
  rfl

/-- a node is on a regular bus, and its transport alone is like that of the bus -/
structure Beside (alike : τ → τ → Prop) (bus : UInt8) (config : Config) (node : UInt8) (b : Bus τ) (n : Node)
    (t : τ) : Prop where
  regular : b.Regular bus config
  found : b.nodes.find? node = some n
  alike : alike b.transport t

variable {alike : τ → τ → Prop} {t : τ} {op : Operation τ}

omit [Transport τ] in
theorem Beside.placed (h : Beside alike bus config node b n t) : Placed config node n :=
  h.regular.placed node n h.found

/-- what a node in its place sends is sent under its identifier -/
theorem framesOf_perform_self (h : Placed config node n) (clock : Time) (t : τ) (event : Engine.Event) :
    framesOf config node (n.perform clock t event).log = sentFrames (n.perform clock t event).log := by
  refine List.filter_eq_self.2 fun f hf => ?_
  have hid := n.id_of_sent_perform clock t event f hf
  rw [Engine.requestId, h.node, h.config] at hid
  simpa using hid

/-- what another node sends is not -/
theorem framesOf_perform_other (h : Placed config k m) (hk : k ≠ node) (clock : Time) (t : τ) (event : Engine.Event) :
    framesOf config node (m.perform clock t event).log = [] := by
  refine List.filter_eq_nil_iff.2 fun f hf => ?_
  have hid := m.id_of_sent_perform clock t event f hf
  rw [Engine.requestId, h.node, h.config] at hid
  simpa [hid] using fun heq => hk (Config.requestId_inj heq)

/-- an event of the node happens to it as it does alone -/
theorem Beside.own (hsteady : Transport.Steady alike) (h : Beside alike bus config node b n t) (clock : Time)
    (event : Engine.Event) :
    Beside alike bus config node (b.perform clock node event).1 (n.perform clock t event).node
        (n.perform clock t event).transport ∧
      framesOf config node (b.perform clock node event).2 = sentFrames (n.perform clock t event).log := by
  have hready : Transport.canSend b.transport = Transport.canSend t := hsteady.ready h.alike
  have hnode : (n.perform clock b.transport event).node = (n.perform clock t event).node := by
    simp only [Node.perform, hready]
  obtain ⟨htransport, hlog⟩ := hsteady.carry h.alike n.engine.node n.engine.requestId
    (n.engine.step n.dictionary ⟨clock, Transport.canSend t, event⟩).effects
  have hlog' : (n.perform clock b.transport event).log = (n.perform clock t event).log := by
    simpa only [Node.perform, hready] using hlog
  refine ⟨⟨h.regular.perform clock node event, ?_, ?_⟩, ?_⟩
  · rw [perform_found h.found, SortedMap.find?_modify, if_pos rfl, h.found, hnode]
    rfl
  · rw [perform_found h.found]
    simpa only [Node.perform, hready] using htransport
  · rw [perform_found h.found, ← hlog', framesOf_perform_self h.placed]

/-- an event of another node happens without the node -/
theorem Beside.other (hsteady : Transport.Steady alike) (h : Beside alike bus config node b n t) (hk : k ≠ node)
    (clock : Time) (event : Engine.Event) :
    Beside alike bus config node (b.perform clock k event).1 n t ∧
      framesOf config node (b.perform clock k event).2 = [] := by
  refine ⟨⟨h.regular.perform clock k event, ?_, ?_⟩, ?_⟩
  · rw [find?_perform b clock event hk.symm]
    exact h.found
  · unfold perform
    split
    · exact h.alike
    · exact hsteady.carry_left h.alike _ _ _
  · cases hm : b.nodes.find? k with
    | none =>
      rw [Bus.perform, hm]
      rfl
    | some m =>
      rw [perform_found hm]
      exact framesOf_perform_other (h.regular.placed k m hm) hk clock _ event

/-! ### Calls and polls -/

/-- one node's turn in a poll, after what the log was told before -/
def polling (clock now : Time) (polled : Bus τ × List Report) (node : UInt8) : Bus τ × List Report :=
  let turn := polled.1.perform clock node (.poll now)
  (turn.1, polled.2 ++ turn.2)

theorem poll_eq (b : Bus τ) (clock now : Time) : b.poll clock now = b.nodes.keys.foldl (polling clock now) (b, []) :=
  rfl

theorem Regular.polling (keys : List UInt8) (clock now : Time) {p : Bus τ × List Report} (h : p.1.Regular bus config) :
    (keys.foldl (polling clock now) p).1.Regular bus config := by
  induction keys generalizing p with
  | nil => exact h
  | cons k rest ih => exact ih (p := Bus.polling clock now p k) (h.perform clock k (.poll now))

/-- the turns of the other nodes happen without the node -/
theorem Beside.polling_others (hsteady : Transport.Steady alike) {keys : List UInt8} (hkeys : node ∉ keys)
    (clock now : Time) {p : Bus τ × List Report} (h : Beside alike bus config node p.1 n t) :
    Beside alike bus config node (keys.foldl (polling clock now) p).1 n t ∧
      framesOf config node (keys.foldl (polling clock now) p).2 = framesOf config node p.2 := by
  induction keys generalizing p with
  | nil => exact ⟨h, rfl⟩
  | cons k rest ih =>
    obtain ⟨hk, hrest⟩ := List.ne_and_not_mem_of_not_mem_cons hkeys
    obtain ⟨hmoved, hnone⟩ := h.other hsteady hk.symm clock (.poll now)
    obtain ⟨hlater, hframes⟩ := ih hrest (p := Bus.polling clock now p k) hmoved
    refine ⟨hlater, hframes.trans ?_⟩
    rw [Bus.polling, framesOf_append, hnone, List.append_nil]

/-- in a poll, a node has its turn and nothing else happens to it -/
theorem Beside.poll (hsteady : Transport.Steady alike) (h : Beside alike bus config node b n t) (clock now : Time) :
    Beside alike bus config node (b.poll clock now).1 (n.perform clock t (.poll now)).node
        (n.perform clock t (.poll now)).transport ∧
      framesOf config node (b.poll clock now).2 = sentFrames (n.perform clock t (.poll now)).log := by
  have hmem : node ∈ b.nodes.keys := List.mem_map_of_mem (SortedMap.mem_entries_of_find? h.found)
  obtain ⟨before, after, hkeys⟩ := List.append_of_mem hmem
  have hnodup := b.nodes.nodup_keys
  rw [hkeys, List.nodup_append, List.nodup_cons] at hnodup
  obtain ⟨-, ⟨hafter, -⟩, hbefore⟩ := hnodup
  have hbefore : node ∉ before := fun hin => hbefore node hin node List.mem_cons_self rfl
  rw [poll_eq, hkeys, List.foldl_append, List.foldl_cons]
  obtain ⟨h₁, hframes₁⟩ := Beside.polling_others hsteady hbefore clock now (p := (b, [])) h
  generalize before.foldl (polling clock now) (b, []) = p at h₁ hframes₁
  obtain ⟨h₂, hframes₂⟩ := h₁.own hsteady clock (.poll now)
  obtain ⟨h₃, hframes₃⟩ := Beside.polling_others hsteady hafter clock now (p := polling clock now p node) h₂
  refine ⟨h₃, hframes₃.trans ?_⟩
  rw [polling, framesOf_append, hframes₁, hframes₂]
  rfl

/-- a call on another node, or another bus, happens without the node -/
theorem Beside.call_other (hsteady : Transport.Steady alike) (h : Beside alike bus config node b n t) {id : ObjectId}
    (hid : (id.bus = bus && id.node = node) = false) (clock : Time) (event : Engine.Event) :
    Beside alike bus config node (b.answered (b.call clock id event)).1 n t ∧
      framesOf config node (b.answered (b.call clock id event)).2 = [] := by
  unfold call
  split
  · exact ⟨h, rfl⟩
  · rename_i hroute
    obtain ⟨hbus, -⟩ := route_eq_ok.1 hroute
    have hother : id.node ≠ node := by
      simpa [hbus.trans h.regular.named] using hid
    split
    · exact ⟨h, rfl⟩
    · exact h.other hsteady hother clock event

/-- a call on the node happens to it as it does alone -/
theorem Beside.call_own (hsteady : Transport.Steady alike) (h : Beside alike bus config node b n t) {id : ObjectId}
    (hid : (id.bus = bus && id.node = node) = true) (clock : Time) (event : Engine.Event) :
    Beside alike bus config node (b.answered (b.call clock id event)).1 (n.perform clock t event).node
        (n.perform clock t event).transport ∧
      framesOf config node (b.answered (b.call clock id event)).2 = sentFrames (n.perform clock t event).log := by
  simp only [Bool.and_eq_true, decide_eq_true_eq] at hid
  obtain ⟨hbus, rfl⟩ := hid
  have hroute : b.route id = .ok n := route_eq_ok.2 ⟨hbus.trans h.regular.named.symm, h.found⟩
  rw [call, hroute]
  dsimp only
  split
  · rename_i cause hrefused
    rw [Node.perform_of_refusal hrefused]
    exact ⟨h, rfl⟩
  · exact h.own hsteady clock event

/-! ### Operations -/

theorem Regular.answered (h : b.Regular bus config) (clock : Time) (id : ObjectId) (event : Engine.Event) :
    (b.answered (b.call clock id event)).1.Regular bus config := by
  unfold call
  split
  · exact h
  · split
    · exact h
    · exact h.perform clock id.node event

theorem Regular.operate (h : b.Regular bus config) (op : Operation τ) : (b.operate op).1.Regular bus config := by
  cases op with
  | add d =>
    refine ⟨h.named, h.settings, fun k m hm => ?_⟩
    change (b.nodes.insert d.node (Node.create d b.config)).find? k = some m at hm
    rw [SortedMap.find?_insert] at hm
    split at hm
    · rename_i hk
      cases hm
      exact ⟨hk.symm, h.settings⟩
    · exact h.placed k m hm
  | remove k' =>
    refine ⟨h.named, h.settings, fun k m hm => ?_⟩
    change (b.nodes.erase k').find? k = some m at hm
    rw [SortedMap.find?_erase] at hm
    split at hm
    · cases hm
    · exact h.placed k m hm
  | edit k' f =>
    refine ⟨h.named, h.settings, fun k m hm => ?_⟩
    change (b.nodes.modify k' fun n => { n with dictionary := f n.dictionary }).find? k = some m at hm
    rw [SortedMap.find?_modify] at hm
    split at hm
    · obtain ⟨m', hm', rfl⟩ := Option.map_eq_some_iff.1 hm
      have hplaced := h.placed k m' hm'
      exact ⟨hplaced.node, hplaced.config⟩
    · exact h.placed k m hm
  | change f => exact ⟨h.named, h.settings, h.placed⟩
  | upload clock id => exact h.answered clock id _
  | download clock id v => exact h.answered clock id _
  | frame clock frame =>
    simp only [Bus.operate, receive]
    split
    · exact h
    · exact h.perform clock _ _
  | poll clock now => exact Regular.polling _ clock now (p := (b, [])) h

/-- **Step lemma.** An operation that is not addressed to a node changes nothing about it, and sends nothing under its
identifier. -/
theorem Beside.elsewhere (hsteady : Transport.Steady alike) (h : Beside alike bus config node b n t)
    (hspares : op.spares node = true) (hnot : op.concerns bus config node = false) :
    Beside alike bus config node (b.operate op).1 n t ∧ framesOf config node (b.operate op).2 = [] := by
  have hregular := h.regular.operate op
  cases op with
  | add d =>
    have hne : node ≠ d.node := fun heq => by simp [Operation.spares, heq] at hspares
    refine ⟨⟨hregular, ?_, h.alike⟩, rfl⟩
    change (b.nodes.insert d.node _).find? node = some n
    rw [SortedMap.find?_insert, if_neg hne]
    exact h.found
  | remove k =>
    have hne : node ≠ k := fun heq => by simp [Operation.spares, heq] at hspares
    refine ⟨⟨hregular, ?_, h.alike⟩, rfl⟩
    change (b.nodes.erase k).find? node = some n
    rw [SortedMap.find?_erase, if_neg hne]
    exact h.found
  | edit k f =>
    have hne : node ≠ k := fun heq => by simp [Operation.concerns, heq] at hnot
    refine ⟨⟨hregular, ?_, h.alike⟩, rfl⟩
    change (b.nodes.modify k _).find? node = some n
    rw [SortedMap.find?_modify, if_neg hne]
    exact h.found
  | change f => cases hnot
  | upload clock id => exact h.call_other hsteady hnot clock _
  | download clock id v => exact h.call_other hsteady hnot clock _
  | frame clock frame =>
    simp only [operate, receive]
    split
    · exact ⟨h, rfl⟩
    · rename_i k hk
      have hne : k ≠ node := by
        rintro rfl
        simp [Operation.concerns, (h.regular.find_listener h.found frame.id).1 hk] at hnot
      exact h.other hsteady hne clock _
  | poll clock now => cases hnot

/-- **Step lemma.** An operation that is addressed to a node does to it what it does to the node alone. -/
theorem Beside.addressed (hsteady : Transport.Steady alike) (h : Beside alike bus config node b n t)
    (hrespects : op.Respects alike) (hto : op.concerns bus config node = true) :
    Beside alike bus config node (b.operate op).1 (n.operate t op).node (n.operate t op).transport ∧
      framesOf config node (b.operate op).2 = sentFrames (n.operate t op).log := by
  have hregular := h.regular.operate op
  cases op with
  | add d => cases hto
  | remove k => cases hto
  | edit k f =>
    obtain rfl : k = node := by simpa [Operation.concerns] using hto
    refine ⟨⟨hregular, ?_, h.alike⟩, rfl⟩
    change (b.nodes.modify k _).find? k = _
    rw [SortedMap.find?_modify, if_pos rfl, h.found]
    rfl
  | change f => exact ⟨⟨hregular, h.found, hrespects _ _ h.alike⟩, rfl⟩
  | upload clock id => exact h.call_own hsteady hto clock _
  | download clock id v => exact h.call_own hsteady hto clock _
  | frame clock frame =>
    have hlistener : b.listener? frame.id = some node :=
      (h.regular.find_listener h.found frame.id).2 (by simpa [Operation.concerns] using hto)
    simp only [operate, receive, hlistener]
    exact h.own hsteady clock _
  | poll clock now => exact h.poll hsteady clock now

/-- **Run lemma.** A node on a bus becomes what it becomes alone, with the operations that are addressed to it. -/
theorem Beside.operateAll (hsteady : Transport.Steady alike) (h : Beside alike bus config node b n t)
    (ops : List (Operation τ)) (hspares : ∀ op ∈ ops, op.spares node = true)
    (hrespects : ∀ op ∈ ops, op.Respects alike) :
    let alone := n.operateAll t (ops.filter (Operation.concerns bus config node))
    Beside alike bus config node (b.operateAll ops).1 alone.node alone.transport ∧
      framesOf config node (b.operateAll ops).2 = sentFrames alone.log := by
  induction ops generalizing b n t with
  | nil => exact ⟨h, rfl⟩
  | cons op rest ih =>
    obtain ⟨hspare, hspares⟩ := List.forall_mem_cons.1 hspares
    obtain ⟨hrespect, hrespects⟩ := List.forall_mem_cons.1 hrespects
    cases hto : op.concerns bus config node with
    | false =>
      obtain ⟨hstep, hframes⟩ := h.elsewhere hsteady hspare hto
      obtain ⟨hlater, hrest⟩ := ih hstep hspares hrespects
      rw [List.filter_cons_of_neg (by simp [hto])]
      refine ⟨hlater, ?_⟩
      rw [Bus.operateAll, framesOf_append, hframes, hrest, List.nil_append]
    | true =>
      obtain ⟨hstep, hframes⟩ := h.addressed hsteady hrespect hto
      obtain ⟨hlater, hrest⟩ := ih hstep hspares hrespects
      rw [List.filter_cons_of_pos hto]
      refine ⟨hlater, ?_⟩
      rw [Bus.operateAll, framesOf_append, hframes, hrest, Node.operateAll, sentFrames_append]

theorem Regular.operateAll (h : b.Regular bus config) (ops : List (Operation τ)) :
    (b.operateAll ops).1.Regular bus config := by
  induction ops generalizing b with
  | nil => exact h
  | cons op rest ih => exact ih (h.operate op)

/-- **The nodes of a bus are independent.** The transport does not show what was sent over it: it is alike to the
transport of a node alone, and changes of it respect that. Whatever happened to the bus before, a node on it, as long as
it is neither removed nor replaced, becomes what it becomes alone with the operations that are addressed to it, and the
frames sent under its identifier are those that it sends alone. At any time no two nodes wait for the same frames, and
an operation changes no node to which it is not addressed. -/
theorem nodes_independent (alike : τ → τ → Prop) (hsteady : Transport.Steady alike) (bus : UInt8) (config : Config)
    (t₀ t : τ) (before ops : List (Operation τ)) (node : UInt8) (n : Node)
    (hfound : ((start bus t₀ config).operateAll before).1.nodes.find? node = some n)
    (halike : alike ((start bus t₀ config).operateAll before).1.transport t)
    (hspares : ∀ op ∈ ops, op.spares node = true) (hrespects : ∀ op ∈ ops, op.Respects alike) :
    let together := ((start bus t₀ config).operateAll before).1.operateAll ops
    let alone := n.operateAll t (ops.filter (Operation.concerns bus config node))
    together.1.nodes.find? node = some alone.node ∧
      (sentFrames together.2).filter (fun f => f.id = config.requestId node) = sentFrames alone.log ∧
      (∀ j k m m', together.1.nodes.find? j = some m → together.1.nodes.find? k = some m' →
        m.engine.responseId = m'.engine.responseId → j = k) ∧
      ∀ (op : Operation τ) k m, together.1.nodes.find? k = some m → op.spares k = true →
        op.concerns bus config k = false → (together.1.operate op).1.nodes.find? k = some m := by
  intro together alone
  have hregular : ((start bus t₀ config).operateAll before).1.Regular bus config :=
    (regular_start bus t₀ config).operateAll before
  have hstart : Beside alike bus config node ((start bus t₀ config).operateAll before).1 n t :=
    ⟨hregular, hfound, halike⟩
  obtain ⟨hend, hframes⟩ := hstart.operateAll hsteady ops hspares hrespects
  refine ⟨hend.found, hframes, fun j k m m' hj hk => hend.regular.listener_unique hj hk,
    fun op k m hk hspare hnot => ?_⟩
  have hbeside : Beside alike bus config k together.1 m alone.transport := ⟨hend.regular, hk, hend.alike⟩
  exact (hbeside.elsewhere hsteady hspare hnot).1.found

/-- the recording transport answers by its gate alone -/
theorem steady_recorder : Transport.Steady fun r s : Recorder => r.ready = s.ready := by
  have hkept (r : Recorder) (frame : CanFrame) : (Transport.send r frame).1.ready = r.ready := by
    simp only [Transport.send]
    split <;> rfl
  refine ⟨fun h => h, fun h frame => ?_, fun h frame => (hkept _ frame).trans h, fun h frame =>
    h.trans (hkept _ frame).symm⟩
  simp only [Transport.send, h]
  split <;> rfl

/-- the nodes 5 and 6 on one bus, with the same entries -/
def twoNodes : List (Operation Recorder) := [.add Service.twoEntries, .add { Service.twoEntries with node := 6 }]

/-- a read on either node, the second answered while the gate is closed, then a poll, and node 6 leaves -/
def sharedBus : List (Operation Recorder) :=
  [.upload 0 Service.byteId, .upload 1 { Service.byteId with node := 6 },
    .upload 2 { Service.byteId with node := 6 }, .change fun r => { r with ready := false },
    .frame 3 ⟨0x586, [0x4f, 0x00, 0x20, 0x01, 8, 0, 0, 0]⟩, .change fun r => { r with ready := true },
    .frame 4 ⟨0x585, [0x4f, 0x00, 0x20, 0x01, 7, 0, 0, 0]⟩, .poll 5 5, .remove 6]

theorem nodes_independent_shared :
    let together := ((start 0 ({} : Recorder) {}).operateAll twoNodes).1.operateAll sharedBus
    let alone := (Node.create Service.twoEntries {}).operateAll ({} : Recorder)
      (sharedBus.filter (Operation.concerns 0 {} 5))
    together.1.nodes.find? 5 = some alone.node ∧
      (sentFrames together.2).filter (fun f => f.id = 0x605) = sentFrames alone.log ∧
      (sentFrames together.2).map CanFrame.id = [0x605, 0x606] ∧
      sentFrames alone.log = [⟨0x605, [0x40, 0x00, 0x20, 0x01, 0, 0, 0, 0]⟩] ∧
      (alone.node.dictionary.find? ⟨0x2000, 1⟩).bind Entry.value = some (.u8 7) := by
  intro together alone
  have hspares : ∀ op ∈ sharedBus, op.spares 5 = true := by decide
  have hrespects : ∀ op ∈ sharedBus, op.Respects fun r s : Recorder => r.ready = s.ready := by
    simp [sharedBus, Operation.Respects]
  obtain ⟨hfound, hframes, -⟩ := nodes_independent _ steady_recorder 0 {} {} {} twoNodes sharedBus 5
    (Node.create Service.twoEntries {}) (by decide +kernel) (by decide +kernel) hspares hrespects
  exact ⟨hfound, hframes, by decide +kernel, by decide +kernel, by decide +kernel⟩

end Bus

end SdoClient
