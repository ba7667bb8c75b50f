/-
What the log says of the frames that a bus took. A frame is reported as sent when the transport took it and only then:
whatever else an engine tells the log is about itself.

Main statements:
- `offer_ready`: an offer to a transport that is ready is reported as sent exactly if the transport took the frame;
- `step_quiet`: an engine reports no frame as sent of its own accord;
- `Node.id_of_sent_perform`: so every frame that a node sends carries the identifier of its requests.
-/
import Mathlib.Tactic
import SdoClient.Node
import SdoClient.Proofs.Turn

namespace SdoClient

/-- the frame that a report says was sent -/
def Report.sent? : Report → Option CanFrame
  | .frameSent _ frame => some frame
  | _ => none

/-- the frames sent, in order, according to a log -/
def sentFrames (log : List Report) : List CanFrame := log.filterMap Report.sent?

theorem sentFrames_cons (report : Report) (rest : List Report) :
    sentFrames (report :: rest) = report.sent?.toList ++ sentFrames rest := by
  cases h : report.sent? <;> simp [sentFrames, h]

theorem sentFrames_append (a b : List Report) : sentFrames (a ++ b) = sentFrames a ++ sentFrames b :=
  List.filterMap_append

/-! ## Reports of an engine -/

/-- a judgement reports no frame as sent -/
def Judgement.quiet (j : Judgement) : Bool := j.reports.all fun r => r.sent?.isNone

/-- an effect reports no frame as sent -/
def Effect.quiet : Effect → Bool
  | .log report => report.sent?.isNone
  | _ => true

theorem ObjectId.quiet_checked (id : ObjectId) (mux : Mux) {j : Judgement} (h : j.quiet = true) :
    (id.checked mux j).quiet = true := by
  unfold checked
  split
  · exact h
  · rfl

namespace Reading

variable (r : Reading) (config : Config)

theorem quiet_finish (closing : Option Request) : (r.finish closing).quiet = true := by
  unfold finish
  split
  · split <;> rfl
  · rfl

theorem quiet_opened (expedited sizeIndicated : Bool) (unused : Nat) (field : Vector UInt8 4) :
    (r.opened expedited sizeIndicated unused field).quiet = true := by
  unfold opened
  split
  · exact quiet_finish _ _
  · rfl

theorem quiet_continued (toggle answered : Bool) (len : Nat) (last : Bool) (field : Vector UInt8 7) :
    (r.continued toggle answered len last field).quiet = true := by
  unfold continued
  split
  · rfl
  · dsimp only
    split
    · split
      · rfl
      · exact quiet_finish _ _
    · rfl

theorem quiet_segment (i : Intake) (s : Segment) : (r.segment config i s).quiet = true := by
  have hreports : ((if (i.take s).gap && !i.gap then [Report.segmentGap r.target (i.seqno + 1) s.seqno] else []).all
      fun report => report.sent?.isNone) = true := by
    split <;> rfl
  unfold segment
  dsimp only
  split <;> exact hreports

theorem quiet_blocksEnded (checked : Bool) (unused : Nat) (crc : UInt16) :
    (r.blocksEnded checked unused crc).quiet = true := by
  unfold blocksEnded
  dsimp only
  split
  · rfl
  · split
    · rfl
    · exact quiet_finish _ _

theorem quiet_answer (response : Response) : (r.answer config response).quiet = true := by
  unfold answer
  split
  · exact r.target.quiet_checked _ (r.quiet_opened _ _ _ _)
  · exact r.quiet_continued _ _ _ _ _
  · exact r.target.quiet_checked _ rfl
  · exact r.quiet_blocksEnded _ _ _
  · rfl

end Reading

namespace Writing

variable (w : Writing) (config : Config)

theorem quiet_confirmed (toggle answered : Bool) : (w.confirmed toggle answered).quiet = true := by
  unfold confirmed
  split
  · rfl
  · split <;> rfl

theorem quiet_blocksOpened (crc : Bool) (blksize : UInt8) : (w.blocksOpened config crc blksize).quiet = true := by
  unfold blocksOpened
  split <;> rfl

theorem quiet_acknowledged (o : Output) (ackseq blksize : Nat) : (w.acknowledged o ackseq blksize).quiet = true := by
  unfold acknowledged
  split
  · rfl
  · split
    · rfl
    · split
      · split <;> rfl
      · split <;> rfl

theorem quiet_answer (response : Response) : (w.answer config response).quiet = true := by
  unfold answer
  split
  · refine w.target.quiet_checked _ ?_
    split <;> rfl
  · exact w.quiet_confirmed _ _
  · exact w.target.quiet_checked _ (w.quiet_blocksOpened _ _ _)
  · split
    · exact w.quiet_acknowledged _ _ _
    · rfl
  · rfl
  · rfl

end Writing

namespace Engine

variable (e : Engine) (clock : Time) (d : Dictionary)

/-- whatever a frame is read as, the rules of the transfer report no frame as sent -/
theorem quiet_judge (config : Config) (a : Active) (data : List UInt8) : (judge config a data).quiet = true := by
  unfold judge
  extract_lets answered
  have hanswered : answered.quiet = true := by
    unfold answered
    split
    · rfl
    · rfl
    · split
      · exact Reading.quiet_answer _ _ _
      · exact Writing.quiet_answer _ _ _
  split
  · split
    · split
      · exact hanswered
      · split
        · exact Reading.quiet_segment _ _ _ _
        · rfl
    · exact hanswered
  · exact hanswered

theorem quiet_startNext : (e.startNext clock).2.all Effect.quiet = true := by
  unfold startNext
  split <;> rfl

theorem quiet_conclude (committed : Dictionary × Option Notice) (id : ObjectId) (failed : Bool) {before : List Effect}
    (h : before.all Effect.quiet = true) :
    (e.conclude clock committed id failed before).effects.all Effect.quiet = true := by
  have hcommit : (commitEffect id failed committed.2).quiet = true := by
    cases committed.2 <;> rfl
  simp [conclude, List.all_append, h, hcommit, quiet_startNext, -List.all_eq_true]

theorem quiet_settle (a : Active) (reaction : Reaction) :
    (e.settle clock d a reaction).effects.all Effect.quiet = true := by
  cases reaction with
  | wait next | ask next request | pace next => rfl
  | finish value closing => cases closing <;> exact e.quiet_conclude clock _ _ _ rfl
  | abort code | abandon code => exact e.quiet_conclude clock _ _ _ rfl

theorem quiet_receive (frame : CanFrame) : (e.receive clock d frame).effects.all Effect.quiet = true := by
  unfold receive
  split
  · rfl
  · split
    · rfl
    · extract_lets judgement o
      have hj : judgement.quiet = true := by
        unfold judgement
        split
        · rfl
        · exact quiet_judge _ _ _
      dsimp only
      rw [List.all_append, List.all_cons, List.all_map, quiet_settle, Bool.and_true]
      exact Bool.and_eq_true_iff.2 ⟨rfl, hj⟩

theorem quiet_expire : (e.expire clock d).effects.all Effect.quiet = true := by
  unfold expire
  split
  · rfl
  · exact quiet_settle _ _ _ _ _

theorem quiet_tick (ready : Bool) : (e.tick clock ready).2.all Effect.quiet = true := by
  unfold tick
  dsimp only
  split
  · split
    · rfl
    · split <;> rfl
  · rfl

theorem quiet_poll (ready : Bool) (now : Time) : (e.poll clock ready d now).effects.all Effect.quiet = true := by
  unfold poll
  extract_lets first
  have hfirst : first.effects.all Effect.quiet = true := by
    unfold first
    split
    · exact quiet_expire _ _ _
    · rfl
  split
  · dsimp only
    rw [List.all_append, hfirst, quiet_tick]
    rfl
  · exact hfirst

theorem quiet_enqueue (t : Transfer) : (e.enqueue clock t).2.all Effect.quiet = true := quiet_startNext _ _

theorem quiet_called {result : Except Error (Engine × List Effect)}
    (h : ∀ r, result = .ok r → r.2.all Effect.quiet = true) : (e.called d result).effects.all Effect.quiet = true := by
  unfold called
  split
  · exact h _ rfl
  · rfl

/-- **An engine reports no frame as sent of its own accord.** -/
theorem step_quiet (o : Occasion) : (e.step d o).effects.all Effect.quiet = true := by
  obtain ⟨clock, ready, event⟩ := o
  cases event with
  | upload id =>
    refine e.quiet_called d fun r hr => ?_
    obtain ⟨id, x, -, ⟨-, rfl⟩ | ⟨-, rfl⟩⟩ := upload_cases hr
    · rfl
    · exact quiet_enqueue _ _ _
  | download id v =>
    refine e.quiet_called d fun r hr => ?_
    obtain ⟨id, x, -, -, -, rfl⟩ := download_cases hr
    exact quiet_enqueue _ _ _
  | frame frame => exact quiet_receive _ _ _ _
  | timeout => exact quiet_expire _ _ _
  | tick => exact quiet_tick _ _ _
  | poll now => exact quiet_poll _ _ _ _ _

end Engine

/-! ## Frames on the way to the bus -/

namespace Transport

variable {τ : Type} [Transport τ]

/-- a transport that is ready is given the frame, and the log says whether it took it -/
theorem offer_ready {t : τ} (hready : canSend t = true) (node : UInt8) (frameId : UInt32) (request : Request) :
    (offer node frameId t request).1 = (send t ⟨frameId, request.toBytes⟩).1 ∧
      (offer node frameId t request).2.sent? =
        if (send t ⟨frameId, request.toBytes⟩).2.isOk then some ⟨frameId, request.toBytes⟩ else none := by
  rw [offer, if_pos hready]
  dsimp only
  split <;> rename_i hsend <;> rw [hsend] <;> exact ⟨rfl, rfl⟩

/-- a frame reported as sent carries the identifier that the requests are given -/
theorem id_of_offer {node : UInt8} {frameId : UInt32} {t : τ} {request : Request} {frame : CanFrame}
    (h : (offer node frameId t request).2.sent? = some frame) : frame.id = frameId := by
  cases hready : canSend t with
  | false =>
    simp [offer, hready, Report.sent?] at h
  | true =>
    rw [(offer_ready hready node frameId request).2] at h
    split at h
    · cases h
      rfl
    · cases h

theorem id_of_sent_carry {node : UInt8} {frameId : UInt32} {t : τ} {effects : List Effect}
    (hquiet : effects.all Effect.quiet = true) : ∀ f ∈ sentFrames (carry node frameId t effects).2, f.id = frameId := by
  induction effects generalizing t with
  | nil => exact fun f hf => absurd hf List.not_mem_nil
  | cons effect rest ih =>
    rw [List.all_cons, Bool.and_eq_true] at hquiet
    intro f hf
    cases effect with
    | offer request =>
      rw [carry, sentFrames_cons, List.mem_append] at hf
      rcases hf with hf | hf
      · exact id_of_offer (Option.mem_toList.1 hf)
      · exact ih hquiet.2 f hf
    | publish notice => exact ih hquiet.2 f hf
    | log report =>
      rw [carry, sentFrames_cons, Option.isNone_iff_eq_none.1 hquiet.1, Option.toList_none, List.nil_append] at hf
      exact ih hquiet.2 f hf

end Transport

/-- every frame that a node sends carries the identifier of its requests -/
theorem Node.id_of_sent_perform {τ : Type} [Transport τ] (n : Node) (clock : Time) (t : τ) (event : Engine.Event) :
    ∀ f ∈ sentFrames (n.perform clock t event).log, f.id = n.engine.requestId :=
  Transport.id_of_sent_carry (n.engine.step_quiet n.dictionary _)

end SdoClient
