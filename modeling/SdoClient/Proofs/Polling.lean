/-
The timers of all nodes of a bus. A poll gives every node its turn, in the order of the ids and over the one transport
that they share. Both timers of a node may be due in its turn: then the timeout comes first, and it takes the pacing
timer with it, so that no segment is sent for the transfer that it aborts nor for the one that it starts.

Main statements:
- `Bus.due_nextDeadline`: something is due on a bus exactly if its next deadline is;
- `poll_turns`: a poll is the turns of the nodes, each over the transport that the one before it leaves;
- `Node.timesOut_poll`, `Node.paces_poll`: what a turn is, by the timers that are due;
- `poll_exact`: so on every bus that can be reached, a poll does for each node what its timers say, and nothing else.
-/
import Mathlib.Tactic
import SdoClient.Proofs.Admission
import SdoClient.Proofs.Atomicity
import SdoClient.Proofs.Independence
import SdoClient.Proofs.Pacing
import SdoClient.Proofs.ReadMerging
import SdoClient.Proofs.RequestFrames

namespace SdoClient

namespace SortedMap

variable {κ ν : Type} [LT κ] [LE κ] [Std.LawfulOrderLT κ] [DecidableEq κ] {m : SortedMap κ ν} {k : κ} {v : ν}

/-- a change of the value at a key changes its entry, where that stands -/
theorem entries_modify {before after : List (κ × ν)} (h : m.entries = before ++ (k, v) :: after) (f : ν → ν) :
    (m.modify k f).entries = before ++ (k, f v) :: after := by
  have hsorted := m.sorted
  rw [h, List.pairwise_append, List.pairwise_cons] at hsorted
  obtain ⟨-, ⟨hafter, -⟩, hbefore⟩ := hsorted
  have hkept : ∀ l : List (κ × ν), (∀ entry ∈ l, entry.1 ≠ k) →
      l.map (fun entry => (entry.1, if entry.1 = k then f entry.2 else entry.2)) = l := by
    intro l hl
    refine (List.map_congr_left fun entry hentry => ?_).trans l.map_id
    rw [if_neg (hl entry hentry)]
    rfl
  have hlt : ∀ entry ∈ before, entry.1 ≠ k := fun entry hentry heq =>
    Std.lt_irrefl (heq ▸ hbefore entry hentry (k, v) List.mem_cons_self)
  have hgt : ∀ entry ∈ after, entry.1 ≠ k := fun entry hentry heq =>
    Std.lt_irrefl (heq ▸ hafter entry hentry)
  calc (m.modify k f).entries = m.entries.map fun entry => (entry.1, if entry.1 = k then f entry.2 else entry.2) := rfl
    _ = before ++ (k, f v) :: after := by
      rw [h, List.map_append, List.map_cons, hkept before hlt, hkept after hgt, if_pos rfl]

theorem modify_same (h : m.find? k = some v) : (m.modify k fun _ => v) = m := by
  obtain ⟨before, after, hentries⟩ := List.append_of_mem (mem_entries_of_find? h)
  exact ext ((entries_modify hentries _).trans hentries.symm)

end SortedMap

/-! ## Deadlines -/

namespace Engine

variable {e : Engine} {clock now : Time}

/-- the earlier of two deadlines is reached as soon as one of them is -/
theorem due_earlier (x y : Option Time) (now : Time) : due (earlier x y) now = (due x now || due y now) := by
  cases x with
  | none => rfl
  | some a =>
    cases y with
    | none => simp [earlier, due]
    | some b => simp [earlier, due]

theorem due_eq_false {deadline : Option Time} : due deadline now = false ↔ ∀ t, deadline = some t → now < t := by
  cases deadline <;> simp [due]

/-! ## One engine -/

/-- the engine once its transfer has ended: the first one that waits, if any, is started, and no segment is due -/
def succeeded (e : Engine) (clock : Time) : Engine :=
  { e with
    active := e.opened?.map (·.1)
    queue := e.queue.tail
    timeoutAt := e.opened?.map fun _ => clock + e.config.timeout
    pacingAt := none }

theorem startNext_succeeded (e : Engine) (clock : Time) : (e.released.startNext clock).1 = e.succeeded clock := by
  cases hq : e.queue with
  | nil => simp [startNext, released, succeeded, opened?, hq]
  | cons t rest => simp [startNext, released, succeeded, opened?, hq, armTimeout]

/-- what a tick changes while the bus is ready: the transfer and the timers -/
theorem tick_ready {w : Writing} {o : Output} (ha : e.active = some (.writing w)) (hs : w.sending? = some o) :
    (e.tick clock true).1 =
      { e with
        active := some (.writing (w.tick o).1)
        timeoutAt := some (clock + e.config.timeout)
        pacingAt := if (w.tick o).1.sending?.isSome then some (clock + e.config.pacing) else none } := by
  simp only [tick, ha, hs, if_true]
  split <;> rfl

end Engine

/-- a bus has something due exactly if one of its nodes has -/
theorem Bus.due_nextDeadline {τ : Type} (b : Bus τ) (now : Time) :
    Engine.due b.nextDeadline now = b.nodes.values.any fun n => Engine.due n.engine.nextDeadline now := by
  have hfold : ∀ (nodes : List Node) (first : Option Time),
      Engine.due (nodes.foldl (fun first n => Engine.earlier first n.engine.nextDeadline) first) now =
        (Engine.due first now || nodes.any fun n => Engine.due n.engine.nextDeadline now) := by
    intro nodes
    induction nodes with
    | nil => simp
    | cons n rest ih =>
      intro first
      rw [List.foldl_cons, ih, Engine.due_earlier, List.any_cons, Bool.or_assoc]
  rw [nextDeadline, hfold]
  rfl

/-- a request that opens a transfer is no segment -/
theorem Request.no_segment_of_initiates {r : Request} (h : r.initiates = true) : r.isBlockSegment = false := by
  cases r with
  | blockDownloadSegment => cases h
  | _ => rfl

/-! ## One node's turn -/

namespace Node

variable {τ : Type} [Transport τ] {n : Node} {clock now : Time} {t : τ}

/-- the poll aborts the transfer `a` because its timeout is due, and starts the first one that waits -/
structure TimesOut (n : Node) (clock now : Time) (t : τ) (a : Active) : Prop where
  active : n.engine.active = some a
  engine : (n.perform clock t (.poll now)).node.engine = n.engine.succeeded clock
  dictionary : (n.perform clock t (.poll now)).node.dictionary =
    (n.dictionary.commitError a.target .timeout a.direction).1
  offered : n.offered clock t (.poll now) =
    .abort a.target.mux .timeout :: (n.engine.opened?.map (·.2)).toList
  /-- neither of the aborted transfer nor of its successor -/
  noSegment : ∀ r ∈ n.offered clock t (.poll now), r.isBlockSegment = false

/-- the poll offers the next segment of the block download `w`, whose block has come to `o`; if the bus is closed, it
keeps the segment and sets the timer anew -/
structure Paces (n : Node) (clock now : Time) (t : τ) (w : Writing) (o : Output) : Prop where
  active : n.engine.active = some (.writing w)
  streams : w.sending? = some o
  sends : Transport.canSend t = true →
    n.offered clock t (.poll now) =
        [.blockDownloadSegment (UInt8.ofNat (o.seqno + 1)) (Wire.padded 7 w.chunk.data) w.chunk.last] ∧
      (n.perform clock t (.poll now)).node =
        { n with
          engine :=
            { n.engine with
              active := some (.writing (w.tick o).1)
              timeoutAt := some (clock + n.engine.config.timeout)
              pacingAt := if (w.tick o).1.sending?.isSome then some (clock + n.engine.config.pacing) else none } }
  holds : Transport.canSend t = false →
    n.offered clock t (.poll now) = [] ∧ (n.perform clock t (.poll now)).transport = t ∧
      (n.perform clock t (.poll now)).node = { n with engine := n.engine.armPacing clock }

/-- **The timeout comes first.** In a turn in which the timeout is due, the transfer in progress is aborted and the next
one started, and that is all, whether or not the pacing timer was due as well. -/
theorem timesOut_poll {a : Active} (ha : n.engine.active = some a) (hdue : Engine.due n.engine.timeoutAt now = true) :
    n.TimesOut clock now t a := by
  have hstimulus : n.engine.stimulus? ⟨clock, Transport.canSend t, .poll now⟩ = some .lapse := by
    simp [Engine.stimulus?, hdue]
  obtain ⟨hengine, hdictionary, hoffers, -⟩ := Engine.step_active (d := n.dictionary) ha hstimulus
  obtain ⟨-, -, hnext⟩ := Engine.startNext_released n.engine clock
  have hoffered : n.offered clock t (.poll now) =
      .abort a.target.mux .timeout :: (n.engine.opened?.map (·.2)).toList := by
    rw [offered, hoffers, hnext]
    rfl
  refine ⟨ha, hengine.trans (Engine.startNext_succeeded _ _), hdictionary, hoffered, ?_⟩
  intro r hr
  rw [hoffered] at hr
  rcases List.mem_cons.1 hr with rfl | hopened
  · rfl
  · obtain ⟨opened, hopen, rfl⟩ := Option.map_eq_some_iff.1 (Option.mem_toList.1 hopened)
    obtain ⟨x, -, rfl⟩ := Option.map_eq_some_iff.1 hopen
    exact Request.no_segment_of_initiates (x.initiates_begin n.engine.config)

/-- **Then the pacing timer.** In a turn in which only the pacing timer is due, the next segment is offered, or kept
while the bus is closed. -/
theorem paces_poll {w : Writing} {o : Output} (ha : n.engine.active = some (.writing w)) (hs : w.sending? = some o)
    (ht : Engine.due n.engine.timeoutAt now = false) (hp : Engine.due n.engine.pacingAt now = true) :
    n.Paces clock now t w o := by
  have hstep : n.engine.step n.dictionary ⟨clock, Transport.canSend t, .poll now⟩ = _ :=
    Engine.poll_paced ht hp (Transport.canSend t)
  refine ⟨ha, hs, ?_, ?_⟩
  · intro hready
    obtain ⟨-, -, -, heffects⟩ := Engine.tick_sent ha hs clock
    refine ⟨?_, ?_⟩
    · rw [offered, hstep, hready, heffects]
      rfl
    · rw [perform, hstep, hready, Engine.tick_ready ha hs]
  · intro hclosed
    have htick := Engine.tick_held ha hs clock
    refine ⟨?_, ?_, ?_⟩
    · rw [offered, hstep, hclosed, htick]
      rfl
    · rw [perform, hstep, hclosed, htick]
      rfl
    · rw [perform, hstep, hclosed, htick]

/-- without a timer that is due, nothing happens -/
theorem perform_poll_before (ht : Engine.due n.engine.timeoutAt now = false)
    (hp : Engine.due n.engine.pacingAt now = false) : n.perform clock t (.poll now) = ⟨n, t, []⟩ := by
  have hstep : n.engine.step n.dictionary ⟨clock, Transport.canSend t, .poll now⟩ = _ := Engine.poll_before _ ht hp
  rw [perform, hstep]
  rfl

end Node

/-! ## The turns of a poll -/

namespace Bus

variable {τ : Type} [Transport τ] {b : Bus τ} {clock now : Time}

/-- a node on its turn in a poll, and the transport that it finds -/
structure PollTurn (τ : Type) where
  id : UInt8
  node : Node
  transport : τ

/-- what comes of a turn -/
def PollTurn.result (clock now : Time) (u : PollTurn τ) : Performance τ := u.node.perform clock u.transport (.poll now)

/-- the turns of a poll, one after another over the one transport -/
def pollTurns (clock now : Time) (t : τ) : List (UInt8 × Node) → List (PollTurn τ)
  | [] => []
  | (id, node) :: rest =>
    let turn : PollTurn τ := ⟨id, node, t⟩
    turn :: pollTurns clock now (turn.result clock now).transport rest

/-- every node has one turn -/
theorem pollTurns_nodes (clock now : Time) (t : τ) (entries : List (UInt8 × Node)) :
    (pollTurns clock now t entries).map (fun u => (u.id, u.node)) = entries := by
  induction entries generalizing t with
  | nil => rfl
  | cons entry rest ih => rw [pollTurns, List.map_cons, ih]

/-- the bus and the log once the nodes of the bus `b` have had the turns `turns`, and those before them theirs -/
structure Polled (b : Bus τ) (clock now : Time) (before : List (UInt8 × Node)) (log : List Report)
    (turns : List (PollTurn τ)) (p : Bus τ × List Report) : Prop where
  id : p.1.id = b.id
  config : p.1.config = b.config
  nodes : p.1.nodes.entries = before ++ turns.map fun u => (u.id, (u.result clock now).node)
  transport : p.1.transport = turns.foldl (fun _ u => (u.result clock now).transport) b.transport
  log : p.2 = log ++ turns.flatMap fun u => (u.result clock now).log

/-- the rest of a poll, once the nodes `before` have had their turns -/
theorem polled_rest {before after : List (UInt8 × Node)} (h : b.nodes.entries = before ++ after) (log : List Report) :
    b.Polled clock now before log (pollTurns clock now b.transport after)
      ((after.map (·.1)).foldl (polling clock now) (b, log)) := by
  induction after generalizing b before log with
  | nil => exact ⟨rfl, rfl, by simpa [pollTurns] using h, rfl, by simp [pollTurns]⟩
  | cons entry rest ih =>
    obtain ⟨k, n⟩ := entry
    have hfound : b.nodes.find? k = some n := SortedMap.find?_of_mem_entries (by simp [h])
    let p := n.perform clock b.transport (.poll now)
    have hturn : polling clock now (b, log) k =
        ({ b with transport := p.transport, nodes := b.nodes.modify k fun _ => p.node }, log ++ p.log) := by
      rw [polling, perform_found hfound]
    have hentries : (b.nodes.modify k fun _ => p.node).entries = (before ++ [(k, p.node)]) ++ rest := by
      rw [SortedMap.entries_modify h, List.append_assoc]
      rfl
    have hrest := ih (b := { b with transport := p.transport, nodes := b.nodes.modify k fun _ => p.node }) hentries
      (log ++ p.log)
    rw [List.map_cons, List.foldl_cons, hturn]
    refine ⟨hrest.id, hrest.config, ?_, hrest.transport, ?_⟩
    · rw [hrest.nodes, List.append_assoc]
      rfl
    · rw [hrest.log, List.append_assoc]
      rfl

/-- **A poll is the turns of the nodes.** -/
theorem poll_turns (b : Bus τ) (clock now : Time) :
    b.Polled clock now [] [] (pollTurns clock now b.transport b.nodes.entries) (b.poll clock now) := by
  have hall : b.nodes.entries = [] ++ b.nodes.entries := rfl
  exact polled_rest hall []

/-- if nothing is due, the bus stays as it is and the log is told nothing -/
theorem poll_quiet (h : ∀ n ∈ b.nodes.values, Engine.due n.engine.nextDeadline now = false) :
    b.poll clock now = (b, []) := by
  refine List.foldl_fixed' (fun k => ?_) _
  cases hn : b.nodes.find? k with
  | none => simp [perform, hn]
  | some n =>
    have hquiet := h n (SortedMap.mem_values_of_find? hn)
    rw [Engine.nextDeadline, Engine.due_earlier, Bool.or_eq_false_iff] at hquiet
    have hturn : n.perform clock b.transport (.poll now) = ⟨n, b.transport, []⟩ :=
      Node.perform_poll_before hquiet.1 hquiet.2
    simp only [perform_found hn, hturn, SortedMap.modify_same hn, List.append_nil]

/-- **Polling is exact.** Take any bus that can be reached and any time. If no deadline is reached, a poll changes
nothing, publishes nothing and offers nothing. In any case it is one turn for each node, in the order of the ids. A node
whose timeout is due has its transfer aborted and its next one started, and sends no segment. A node for which only the
pacing timer is due offers its next segment or, while the bus is closed, sets the timer anew. All other nodes stay as
they are. -/
theorem poll_exact (id : UInt8) (t : τ) (config : Config) (acts : List (Act τ)) (clock now : Time) :
    let b := (start id t config).run acts
    let turns := pollTurns clock now b.transport b.nodes.entries
    ((∀ deadline, b.nextDeadline = some deadline → now < deadline) → b.poll clock now = (b, [])) ∧
      b.Polled clock now [] [] turns (b.poll clock now) ∧ turns.map (fun u => (u.id, u.node)) = b.nodes.entries ∧
      ∀ u ∈ turns,
        (Engine.due u.node.engine.timeoutAt now = true → ∃ a, u.node.TimesOut clock now u.transport a) ∧
        (Engine.due u.node.engine.timeoutAt now = false → Engine.due u.node.engine.pacingAt now = true →
          ∃ w o, u.node.Paces clock now u.transport w o) ∧
        (Engine.due u.node.engine.timeoutAt now = false → Engine.due u.node.engine.pacingAt now = false →
          u.result clock now = ⟨u.node, u.transport, []⟩) ∧
        (u.result clock now).transport =
          (u.node.frames clock u.transport (.poll now)).foldl Transport.hand u.transport := by
  intro b turns
  have htimed : b.Every Engine.Timed :=
    run_engine Engine.step_timed Engine.timed_start (fun n hn => absurd hn List.not_mem_nil) acts
  have hnodes : turns.map (fun u => (u.id, u.node)) = b.nodes.entries := pollTurns_nodes _ _ _ _
  refine ⟨?_, poll_turns b clock now, hnodes, ?_⟩
  · intro hbefore
    have hquiet := Engine.due_eq_false.2 hbefore
    rw [due_nextDeadline, List.any_eq_false] at hquiet
    exact poll_quiet fun n hn => by simpa using hquiet n hn
  · intro u hu
    have hmem : (u.id, u.node) ∈ b.nodes.entries := hnodes ▸ List.mem_map_of_mem hu
    have hu : u.node.engine.Timed := htimed u.node (List.mem_map_of_mem hmem)
    refine ⟨?_, ?_, Node.perform_poll_before, u.node.transport_perform clock u.transport (.poll now)⟩
    · intro hdue
      obtain ⟨a, ha⟩ : ∃ a, u.node.engine.active = some a := by
        rw [← Option.isSome_iff_exists, ← hu.timeout]
        exact Engine.isSome_of_due hdue
      exact ⟨a, Node.timesOut_poll ha hdue⟩
    · intro ht hp
      obtain ⟨a, ha, hpaces⟩ : ∃ a, u.node.engine.active = some a ∧ a.paces = true := by
        rw [← Option.any_eq_true, ← hu.pacing]
        exact Engine.isSome_of_due hp
      obtain ⟨w, o, rfl, hphase, hack⟩ := a.paces_iff.1 hpaces
      have hs : w.sending? = some o := by simp [Writing.sending?, hphase, hack]
      exact ⟨w, o, Node.paces_poll ha hs ht hp⟩

/-- nodes 5 and 6 stream a file each, and node 5 has a read that waits; node 7 is idle. The write to node 5 has been
waiting for longer. -/
def streamingActs : List (Act Recorder) :=
  let file (node : UInt8) : ObjectId := { Service.fileId with node }
  let accepted (node : UInt32) : CanFrame := ⟨0x580 + node, [0xa0, 0x01, 0x20, 0, 2, 0, 0, 0]⟩
  [.add Service.twoEntries, .add { Service.twoEntries with node := 6 }, .add { Service.twoEntries with node := 7 },
    .download 0 (file 5) (.octets [1, 2, 3, 4, 5, 6, 7, 8]), .upload 0 Service.byteId, .frame 10 (accepted 5),
    .download 50 (file 6) (.octets [1, 2, 3, 4, 5, 6, 7, 8]), .frame 60 (accepted 6)]

/-- at 100 both timers of node 5 are due and the pacing timer of node 6: the write is aborted and the read started, and
the other write goes on. At 19 nothing is due. -/
theorem poll_exact_three :
    let b := (start 0 ({} : Recorder) { timeout := 100, pacing := 10 }).run streamingActs
    let turns := pollTurns 100 100 b.transport b.nodes.entries
    b.nextDeadline = some 20 ∧ b.poll 19 19 = (b, []) ∧ turns.map (·.id) = [5, 6, 7] ∧
      (∃ u ∈ turns, u.id = 5 ∧ Engine.due u.node.engine.timeoutAt 100 = true ∧
        Engine.due u.node.engine.pacingAt 100 = true ∧ ∃ a, u.node.TimesOut 100 100 u.transport a) ∧
      (∃ u ∈ turns, u.id = 6 ∧ ∃ w o, u.node.Paces 100 100 u.transport w o) ∧
      (∃ u ∈ turns, u.id = 7 ∧ u.result 100 100 = ⟨u.node, u.transport, []⟩) ∧
      sentFrames (b.poll 100 100).2 =
        [⟨0x605, [0x80, 0x01, 0x20, 0, 0x00, 0x00, 0x04, 0x05]⟩, ⟨0x605, [0x40, 0x00, 0x20, 1, 0, 0, 0, 0]⟩,
          ⟨0x606, [1, 1, 2, 3, 4, 5, 6, 7]⟩] := by
  intro b turns
  obtain ⟨hbefore, -⟩ := poll_exact 0 ({} : Recorder) { timeout := 100, pacing := 10 } streamingActs 19 19
  obtain ⟨-, -, -, hturns⟩ := poll_exact 0 ({} : Recorder) { timeout := 100, pacing := 10 } streamingActs 100 100
  have hdeadline : b.nextDeadline = some 20 := by decide +kernel
  obtain ⟨u, hu, hfive, hlate, hpaced⟩ : ∃ u ∈ turns, u.id = 5 ∧ Engine.due u.node.engine.timeoutAt 100 = true ∧
      Engine.due u.node.engine.pacingAt 100 = true := by decide +kernel
  obtain ⟨v, hv, hsix, hwaits, htick⟩ : ∃ u ∈ turns, u.id = 6 ∧ Engine.due u.node.engine.timeoutAt 100 = false ∧
      Engine.due u.node.engine.pacingAt 100 = true := by decide +kernel
  obtain ⟨w, hw, hseven, hfree, hnone⟩ : ∃ u ∈ turns, u.id = 7 ∧ Engine.due u.node.engine.timeoutAt 100 = false ∧
      Engine.due u.node.engine.pacingAt 100 = false := by decide +kernel
  obtain ⟨htimeout, -⟩ := hturns u hu
  obtain ⟨-, hpacing, -⟩ := hturns v hv
  obtain ⟨-, -, hquiet, -⟩ := hturns w hw
  refine ⟨hdeadline, ?_, by decide +kernel, ⟨u, hu, hfive, hlate, hpaced, htimeout hlate⟩,
    ⟨v, hv, hsix, hpacing hwaits htick⟩, ⟨w, hw, hseven, hquiet hfree hnone⟩, by decide +kernel⟩
  refine hbefore fun deadline hnext => ?_
  obtain rfl : 20 = deadline := Option.some.inj (hdeadline.symm.trans hnext)
  decide

end Bus

end SdoClient
