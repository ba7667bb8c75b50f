/-
The pacing tick of a block download and what the bus makes of it. The tick asks whether the bus is ready before it
touches the transfer. If it is not, the segment is kept for the next tick. If it is, the segment counts as sent before
the bus is given the frame, and the answer of the bus only reaches the log.

Main statements:
- `segment_consumed_iff_ready`: over any transport, a tick consumes a segment exactly if the transport says that it is
  ready, whether or not it then takes the frame;
- `refused_segment_consumed`: so a segment that the bus refuses although it was ready is consumed all the same.
-/
import Mathlib.Tactic
import SdoClient.Proofs.Sending
import SdoClient.Proofs.Service

namespace SdoClient

/-- how far a block has come: the number of its last segment, and where in the payload the next one begins -/
def Active.position? : Active → Option (Nat × Nat)
  | .reading _ => none
  | .writing w =>
    match w.phase with
    | .block o => some (o.seqno, w.offset)
    | _ => none

theorem Writing.position_sending {w : Writing} {o : Output} (hs : w.sending? = some o) :
    (Active.writing w).position? = some (o.seqno, w.offset) := by
  simp [Active.position?, (w.sending?_eq_some hs).1]

theorem Writing.position_tick (w : Writing) (o : Output) :
    (Active.writing (w.tick o).1).position? =
      some (o.seqno + 1, min (w.offset + Wire.segmentSize) w.payload.length) := rfl

namespace Engine

variable {e : Engine} {w : Writing} {o : Output}

/-- a tick while the bus is not ready keeps the segment and sets the timer anew -/
theorem tick_held (ha : e.active = some (.writing w)) (hs : w.sending? = some o) (clock : Time) :
    e.tick clock false = (e.armPacing clock, [.log (.holdingSegment e.node)]) := by
  simp [tick, ha, hs, armPacing]

/-- a tick while the bus is ready moves the block by one segment and offers it, once -/
theorem tick_sent (ha : e.active = some (.writing w)) (hs : w.sending? = some o) (clock : Time) :
    (e.tick clock true).1.active = some (.writing (w.tick o).1) ∧
      (e.tick clock true).1.timeoutAt = some (clock + e.config.timeout) ∧
      (e.tick clock true).1.pacingAt =
        (if (w.tick o).1.sending?.isSome then some (clock + e.config.pacing) else none) ∧
      (e.tick clock true).2 = [.offer (w.tick o).2] := by
  simp only [tick, ha, hs, if_true]
  split <;> exact ⟨rfl, rfl, rfl, trivial⟩

end Engine

namespace Node

open Transport

variable {τ : Type} [Transport τ]

/-- **A tick consumes a segment exactly if the bus is ready.** Whatever the transport answers to the frame itself: if it
is ready, the block moves on by one segment, the frame is handed over once and the log says whether it was taken. If it
is not, the transport is not touched, the transfer stays as it is, and the pacing timer is set anew, so that the same
segment is offered at the next tick. -/
theorem segment_consumed_iff_ready (n : Node) (w : Writing) (o : Output) (clock : Time) (t : τ)
    (ha : n.engine.active = some (.writing w)) (hs : w.sending? = some o) :
    let p := n.perform clock t .tick
    let frame : CanFrame := ⟨n.engine.requestId, (w.tick o).2.toBytes⟩
    (p.node.engine.active.bind Active.position? =
      some (o.seqno + 1, min (w.offset + Wire.segmentSize) w.payload.length) ↔ canSend t = true) ∧
      (canSend t = true →
        p.node.engine.active = some (.writing (w.tick o).1) ∧ p.transport = (send t frame).1 ∧
          sentFrames p.log = (if (send t frame).2.isOk then [frame] else []) ∧
          p.node.engine.pacingAt =
            (if (w.tick o).1.sending?.isSome then some (clock + n.engine.config.pacing) else none)) ∧
      (canSend t = false →
        p.node = { n with engine := n.engine.armPacing clock } ∧ p.transport = t ∧
          p.log = [.holdingSegment n.engine.node]) := by
  intro p frame
  cases hready : canSend t with
  | false =>
    have htick := Engine.tick_held ha hs clock
    have hp : p = ⟨{ n with engine := n.engine.armPacing clock }, t, [.holdingSegment n.engine.node]⟩ := by
      simp [p, perform, Engine.step, hready, htick, carry]
    refine ⟨?_, by simp, fun _ => by simp [hp]⟩
    -- the number of the last segment tells the two positions apart
    have hactive : p.node.engine.active = some (.writing w) := by
      rw [hp]
      exact ha
    simp [hactive, Writing.position_sending hs]
  | true =>
    obtain ⟨hactive, -, hpacing, heffects⟩ := Engine.tick_sent ha hs clock
    obtain ⟨htransport, hlog⟩ := offer_ready hready n.engine.node n.engine.requestId (w.tick o).2
    have hnode : p.node.engine = (n.engine.tick clock true).1 := by
      simp [p, perform, Engine.step, hready]
    have hcarried : (p.transport, p.log) = carry n.engine.node n.engine.requestId t [.offer (w.tick o).2] := by
      simp [p, perform, Engine.step, hready, heffects]
    obtain ⟨htook, hsaid⟩ := Prod.mk.inj hcarried
    refine ⟨?_, fun _ => ⟨?_, ?_, ?_, ?_⟩, by simp⟩
    · simp [hnode, hactive, Writing.position_tick]
    · rw [hnode, hactive]
    · rw [htook]
      exact htransport
    · rw [hsaid, sentFrames_cons, hlog]
      split <;> rfl
    · rw [hnode, hpacing]

end Node

/-! ## A bus that refuses what it was ready for -/

/-- a transport that is ready at all times and refuses every frame -/
structure Jammed where
  cause : Error
  deriving DecidableEq

instance : Transport Jammed where
  canSend _ := true
  send t _ := (t, .error t.cause)

namespace Node

/-- a write of one octet to a domain, accepted by the server in blocks of one segment -/
def openingMoves : List Move :=
  [.event ⟨0, true, .download Service.fileId (.octets [0xff])⟩,
    .event ⟨1, true, .frame ⟨0x585, [0xa0, 0x01, 0x20, 0, 1, 0, 0, 0]⟩⟩]

/-- the engine once they are made -/
def streamingOne : Service := (Service.start 5 {} Service.twoEntries).run openingMoves

/-- the write in progress then -/
def streamedOne : Writing :=
  { target := Service.fileId
    value := .octets [0xff]
    payload := [0xff]
    phase := .block { blksize := 1, crc := false } }

theorem segment_consumed_iff_ready_jammed :
    let n : Node := ⟨streamingOne.dictionary, streamingOne.engine⟩
    let p := n.perform 2 (Jammed.mk .busNotReady) .tick
    n.engine.active = some (.writing streamedOne) ∧
      streamedOne.sending? = some { blksize := 1, crc := false } ∧
      p.node.engine.active = some (.writing (streamedOne.tick { blksize := 1, crc := false }).1) ∧
      sentFrames p.log = [] ∧ p.node.engine.pacingAt = none := by
  intro n p
  have ha : n.engine.active = some (.writing streamedOne) := by decide +kernel
  obtain ⟨-, hopen, -⟩ := segment_consumed_iff_ready n streamedOne { blksize := 1, crc := false } 2
    (Jammed.mk .busNotReady) ha rfl
  obtain ⟨hactive, -, hlog, hpacing⟩ := hopen rfl
  exact ⟨ha, rfl, hactive, hlog, hpacing⟩

/-- a segment that the transport did not take may be consumed: the engine then waits for the acknowledgement of a
segment that was never sent, and offers nothing at the next tick -/
theorem refused_segment_consumed :
    ¬∀ (τ : Type) [Transport τ] (node : UInt8) (config : Config) (d : Dictionary) (ms : List Move) (w : Writing)
        (o : Output) (clock : Time) (t : τ),
      let s := (Service.start node config d).run ms
      s.engine.active = some (.writing w) → w.sending? = some o →
        let p := Node.perform ⟨s.dictionary, s.engine⟩ clock t .tick
        (p.node.engine.active.bind Active.position? ≠ some (o.seqno, w.offset) ↔ sentFrames p.log ≠ []) ∧
          (sentFrames p.log = [] →
            p.node.engine.active = some (.writing w) ∧ p.node.engine.pacingAt = some (clock + config.pacing)) := by
  intro hclaimed
  have hactive : streamingOne.engine.active = some (.writing streamedOne) := by decide +kernel
  obtain ⟨-, hheld⟩ := hclaimed Jammed 5 {} Service.twoEntries openingMoves streamedOne
    { blksize := 1, crc := false } 2 ⟨.busNotReady⟩ hactive rfl
  have hlog : sentFrames (Node.perform ⟨streamingOne.dictionary, streamingOne.engine⟩ 2 (Jammed.mk .busNotReady)
      .tick).log = [] := by decide +kernel
  have hpacing : (Node.perform ⟨streamingOne.dictionary, streamingOne.engine⟩ 2 (Jammed.mk .busNotReady)
      .tick).node.engine.pacingAt = none := by decide +kernel
  have hset := (hheld hlog).2
  exact absurd (hpacing.symm.trans hset) (by simp)

end Node

end SdoClient
