/-
A download as the server sees it: frames of octets. A server that has opened a block takes the next frame as a segment,
unless it is an abort, until it has confirmed a segment that is marked as the last; every other frame it reads by the
command. `understood` reads a conversation that way, one frame after another, from the octets alone.

Main statements:
- `understood_course`: so the server understands every request of a download as the client meant it, whatever happens;
- `received_understood`: once the download completes, what the server has taken from the frames is the payload.
-/
import Mathlib.Tactic
import SdoClient.Proofs.Delivery
import SdoClient.Proofs.RequestFrames

namespace SdoClient

/-! ## Reading a conversation off its frames -/

/-- a frame between client and server, as it is on the bus -/
inductive Passing where
  | fromServer (data : List UInt8)
  | fromClient (data : List UInt8)
  deriving DecidableEq

/-- the frame of a message -/
def Message.passing : Message → Passing
  | received data => .fromServer data
  | offered request => .fromClient request.toBytes

/-- the request in a frame, for a server that waits for a segment or for one that does not -/
def Request.read? (segment : Bool) (frame : List UInt8) : Option Request :=
  if segment && !isAbortFrame frame then
    match Segment.parse frame with
    | .ok s => some (.blockDownloadSegment (UInt8.ofNat s.seqno) s.data s.last)
    | .error _ => none
  else ofBytes? frame

/-- no segment that the server confirmed of the block is the last -/
def SentBlock.unfinished (b : SentBlock) : Bool := (b.segments.take b.acknowledged).all fun s => !s.last

/-- after these messages the server waits for a segment: it has opened a block, and those before it did not end the
payload -/
def awaitsSegment (known : List Message) : Bool :=
  !(sentBlocks known).isEmpty && (sentBlocks known).dropLast.all SentBlock.unfinished

/-- a server that has understood `known` meets one more frame -/
def understand (known : List Message) : Passing → List Message
  | .fromServer data => known ++ [.received data]
  | .fromClient data => known ++ ((Request.read? (awaitsSegment known) data).map Message.offered).toList

/-- what a server understands of a conversation -/
def understood (frames : List Passing) : List Message := frames.foldl understand []

/-! ## Legible messages -/

/-- after `known`, the messages are understood as they were meant -/
def Legible (known messages : List Message) : Prop :=
  (messages.map Message.passing).foldl understand known = known ++ messages

namespace Legible

variable {known : List Message}

theorem nil : Legible known [] := (List.append_nil known).symm

theorem append {a b : List Message} (ha : Legible known a) (hb : Legible (known ++ a) b) : Legible known (a ++ b) := by
  rw [Legible, List.map_append, List.foldl_append, ha, hb, List.append_assoc]

theorem heard (s : Stimulus) : Legible known s.heard := by
  cases s with
  | frame data => rfl
  | lapse | tick ready => exact nil

theorem request {r : Request} (h : Request.read? (awaitsSegment known) r.toBytes = some r) :
    Legible known [.offered r] := by
  simp only [Legible, List.map_singleton, List.foldl_cons, List.foldl_nil, Message.passing, understand, h,
    Option.map_some, Option.toList_some]

/-- an abort is always understood -/
theorem abort (mux : Mux) (code : AbortCode) : Legible known [.offered (.abort mux code)] := by
  apply request
  rw [Request.read?, Request.isAbortFrame_abort, Bool.not_true, Bool.and_false, if_neg Bool.false_ne_true]
  exact Request.ofBytes?_toBytes trivial rfl

/-- while the server waits for no segment, every other request is understood -/
theorem command {r : Request} (hawaits : awaitsSegment known = false) (hrange : r.InRange)
    (hr : r.isBlockSegment = false) : Legible known [.offered r] := by
  apply request
  rw [Request.read?, hawaits, Bool.false_and, if_neg Bool.false_ne_true]
  exact Request.ofBytes?_toBytes hrange hr

/-- while it waits for one, segments are -/
theorem segment {seqno : UInt8} {data : Vector UInt8 7} {last : Bool} (hawaits : awaitsSegment known = true)
    (hrange : (Request.blockDownloadSegment seqno data last).InRange) :
    Legible known [.offered (.blockDownloadSegment seqno data last)] := by
  apply request
  have hseqno : seqno.toNat % 128 = seqno.toNat := Nat.mod_eq_of_lt (Nat.lt_succ_of_le hrange.2)
  rw [Request.read?, hawaits, Request.not_abort_segment hrange, Bool.not_false, Bool.and_true, if_pos rfl,
    Request.parse_segment, hseqno]
  simp only [UInt8.ofNat_toNat]

end Legible

/-- the opening request says nothing of the blocks -/
theorem sentBlocks_cons_offered (r : Request) (messages : List Message) :
    sentBlocks (.offered r :: messages) = sentBlocks messages := by
  have hnone : absorb [] (.offered r) = [] := by cases r <;> rfl
  rw [sentBlocks, List.foldl_cons, hnone]
  rfl

theorem awaitsSegment_congr {a b : List Message} (h : sentBlocks a = sentBlocks b) :
    awaitsSegment a = awaitsSegment b := by
  rw [awaitsSegment, awaitsSegment, h]

/-- an abort of the client is legible, whatever the server waits for -/
theorem legible_abort (known : List Message) (a : Active) (code : AbortCode) (s : Stimulus) :
    Legible known (((Reaction.abort code).turn a).messages s) :=
  (Legible.heard s).append (.abort _ _)

/-! ## Downloads without blocks -/

/-- the phases of a download without blocks -/
def WritePhase.isPlain : WritePhase → Bool
  | opening _ | segment _ => true
  | blockOpening | block _ | blockEnd => false

/-- what a write without blocks keeps: the server has opened no block -/
def Unblocked (messages : List Message) : Fate → Prop
  | .goesOn (.writing w) => w.phase.isPlain = true ∧ sentBlocks messages = []
  | .goesOn (.reading _) => False
  | .ends _ => True

theorem awaitsSegment_of_nil {known : List Message} (h : sentBlocks known = []) : awaitsSegment known = false := by
  rw [awaitsSegment, h]
  rfl

/-- the next chunk goes out, after a response that concerns no block -/
theorem unblocked_sendChunk {messages : List Message} {w : Writing} {data : List UInt8}
    (hblocks : sentBlocks messages = []) (hquiet : absorb [] (.received data) = []) (opening : Request) (toggle : Bool) :
    let turn := (w.sendChunk toggle).reaction.turn (.writing w)
    Legible (.offered opening :: messages) (turn.messages (.frame data)) ∧
      Unblocked (messages ++ turn.messages (.frame data)) turn.fate := by
  intro turn
  have hheard : sentBlocks (messages ++ [.received data]) = [] := by
    rw [sentBlocks_append, hblocks]
    exact hquiet
  refine ⟨(Legible.heard (.frame data)).append (.command ?_ ?_ rfl), rfl, ?_⟩
  · apply awaitsSegment_of_nil
    rwa [Stimulus.heard, List.cons_append, sentBlocks_cons_offered]
  · have hlength := w.length_chunk_le
    change (UInt8.ofNat w.chunk.data.length).toNat ≤ 7
    simp only [Wire.segmentSize] at hlength
    rw [UInt8.toNat_ofNat']
    omega
  · change sentBlocks (messages ++ ([.received data] ++ [.offered (w.chunkRequest toggle)])) = []
    rw [← List.append_assoc, sentBlocks_append, hheard]
    rfl

theorem Unblocked.respond {config : Config} {messages : List Message} {a : Active}
    (h : Unblocked messages (.goesOn a)) (opening : Request) (s : Stimulus) :
    Legible (.offered opening :: messages) ((a.respond config s).messages s) ∧
      Unblocked (messages ++ (a.respond config s).messages s) (a.respond config s).fate := by
  cases a with
  | reading r => exact h.elim
  | writing w =>
    obtain ⟨hplain, hblocks⟩ := h
    cases s with
    | lapse => exact ⟨legible_abort _ _ _ _, trivial⟩
    | tick ready =>
      have hidle : w.sending? = none := by
        cases hsending : w.sending? with
        | none => rfl
        | some o =>
          obtain ⟨hphase, -⟩ := w.sending?_eq_some hsending
          rw [hphase] at hplain
          cases hplain
      simp only [Active.respond, Active.paced, hidle]
      exact ⟨.nil, hplain, by simpa [Turn.messages, Stimulus.heard] using hblocks⟩
    | frame data =>
      simp only [Active.respond]
      rcases w.reactTo_cases config data with ⟨code, ha⟩ | ⟨code, ha⟩ | ⟨response, hread, hanswered⟩
      · rw [ha]
        exact ⟨legible_abort _ _ _ _, trivial⟩
      · rw [ha]
        exact ⟨.heard (.frame data), trivial⟩
      · generalize (Active.writing w).reactTo config data = reaction at hanswered ⊢
        cases hanswered with
        | abort code => exact ⟨legible_abort _ _ _ _, trivial⟩
        | finish confirmed => exact ⟨.heard (.frame data), trivial⟩
        | opened phase read | continued phase read more =>
          subst read
          exact unblocked_sendChunk hblocks (by simp [absorb, hread]) opening _
        | blocksOpened phase | resends phase | concludes phase | advances phase =>
          rw [phase] at hplain
          cases hplain

/-! ## Downloads in blocks -/

/-- seven octets for every confirmed segment -/
theorem SentBlock.length_confirmed (b : SentBlock) :
    b.confirmed.length = 7 * (b.segments.take b.acknowledged).length := by
  rw [confirmed, List.length_flatMap]
  simp [Nat.mul_comm]

/-- blocks after which the payload goes on have not ended it -/
theorem unfinished_of_laidFrom {payload : List UInt8} {start : Nat} {closed : List SentBlock}
    (h : LaidFrom payload start closed) (hin : Within payload (start + (closed.flatMap SentBlock.confirmed).length)) :
    closed.all SentBlock.unfinished = true := by
  induction closed generalizing start with
  | nil => rfl
  | cons b rest ih =>
    obtain ⟨hb, hrest⟩ := h
    rw [List.flatMap_cons, List.length_append, ← Nat.add_assoc] at hin
    rw [List.all_cons, ih hrest hin, Bool.and_true]
    refine List.all_eq_true.2 fun s hs => ?_
    obtain ⟨i, hi⟩ := List.getElem?_of_mem hs
    obtain ⟨hlt, -⟩ := List.getElem?_eq_some_iff.1 hi
    have hlength := b.length_confirmed
    -- a last segment would have taken the confirmed octets up to the end of the payload
    have hsegment : b.segments[i]? = some s := by
      rw [← hi, List.getElem?_take_of_lt (hlt.trans_le (List.length_take_le _ _))]
    obtain ⟨-, -, hlast, -⟩ := hb.segment hsegment
    rw [Bool.not_eq_true', Bool.eq_false_iff]
    intro hs
    rcases hlast.1 hs with rfl | ⟨-, hend⟩ <;> rcases hin with hin | ⟨hempty, hin⟩
    · exact absurd hin (Nat.not_lt_zero _)
    · omega
    · omega
    · omega

namespace BlockDownload

variable {config : Config} {id : ObjectId} {payload : List UInt8} {messages : List Message}

/-- in the middle of a block the server waits for the next segment -/
theorem Sending.awaits {position : Nat} {o : Output} {closed : List SentBlock} {current : SentBlock}
    (h : Sending config id payload messages position o closed current) : awaitsSegment messages = true := by
  have hunfinished : closed.all SentBlock.unfinished = true := by
    apply unfinished_of_laidFrom h.laid
    rw [h.length_confirmed, Nat.zero_add]
    exact h.start
  rw [awaitsSegment, h.blocks, List.dropLast_concat, hunfinished, Bool.and_true]
  simp

/-- once a whole block with the end of the payload is confirmed, it waits for none -/
theorem Sending.satisfied {position : Nat} {o : Output} {closed : List SentBlock} {current : SentBlock}
    (h : Sending config id payload messages position o closed current) {data : List UInt8} {ackseq blksize : UInt8}
    (hp : Response.parse data = .ok (.blockDownloadAck ackseq blksize)) (hk : ackseq.toNat = o.seqno)
    (ha : o.awaitingAck = true) (hend : payload.length ≤ o.blockStart + 7 * o.seqno) :
    awaitsSegment (messages ++ [.received data]) = false := by
  have hpos := h.awaiting ha
  obtain ⟨n, hn⟩ := Nat.exists_eq_succ_of_ne_zero hpos.ne'
  have hlast : (current.acknowledge ackseq.toNat).unfinished = false := by
    change (current.segments.take ackseq.toNat).all _ = false
    have hstop : payload.length ≤ o.blockStart + 7 * n + 7 := by omega
    rw [hk, List.take_of_length_le h.length_current.le, h.segments, hn, slices_succ, List.all_append]
    simp [hstop]
  rw [awaitsSegment, h.blocks_acknowledged hp, List.dropLast_concat, List.all_append, List.all_cons, hlast]
  simp

/-- every turn of a block download is legible -/
theorem Sound.legible {a : Active} (h : Sound config id payload messages (.goesOn a)) (opening : Request)
    (s : Stimulus) : Legible (.offered opening :: messages) ((a.respond config s).messages s) := by
  cases a with
  | reading r => exact h.elim
  | writing w =>
    obtain ⟨-, hpayload, hsized, hphase⟩ := h
    cases s with
    | lapse => exact legible_abort _ _ _ _
    | tick ready =>
      simp only [Active.respond, Active.paced]
      split
      · rename_i o hsending
        obtain ⟨hw, hready⟩ := w.sending?_eq_some hsending
        rw [hw] at hphase
        obtain ⟨closed, current, hs⟩ := hphase
        cases ready with
        | false => exact .nil
        | true =>
          refine .segment ?_ ?_
          · rw [awaitsSegment_congr (sentBlocks_cons_offered _ _), hs.awaits]
          · obtain ⟨hlt, -⟩ := hs.ready hready
            have hvalid := hs.valid
            simp only [Wire.blockMax] at hvalid
            simp only [Request.InRange, UInt8.toNat_ofNat']
            omega
      · exact .nil
    | frame data =>
      simp only [Active.respond]
      rcases w.reactTo_cases config data with ⟨code, ha⟩ | ⟨code, ha⟩ | ⟨response, hread, hanswered⟩
      · rw [ha]
        exact legible_abort _ _ _ _
      · rw [ha]
        exact .heard (.frame data)
      · generalize (Active.writing w).reactTo config data = reaction at hanswered ⊢
        cases hanswered with
        | abort code => exact legible_abort _ _ _ _
        | finish | blocksOpened | resends | advances => exact Legible.heard (.frame data)
        | opened phase | continued phase =>
          rw [phase] at hphase
          exact hphase.elim
        | @concludes o ackseq blksize phase awaits read whole sent =>
          subst read
          rw [phase] at hphase
          obtain ⟨closed, current, hs⟩ := hphase
          have hsize : w.size = payload.length := hsized.trans (congrArg List.length hpayload)
          have hend : payload.length ≤ o.blockStart + 7 * o.seqno := hs.sent_iff.1 (hsize ▸ sent)
          refine (Legible.heard (.frame data)).append (.command ?_ ?_ rfl)
          · rw [Stimulus.heard, List.cons_append, awaitsSegment_congr (sentBlocks_cons_offered _ _)]
            exact hs.satisfied hread whole awaits hend
          · have hpadding := finalPadding_le w.size
            change (UInt8.ofNat (finalPadding w.size)).toNat ≤ 7
            rw [UInt8.toNat_ofNat']
            omega

end BlockDownload

/-! ## Every download -/

/-- the opening request is understood by a server that has heard nothing yet -/
theorem legible_begin (config : Config) (id : ObjectId) (v : Value) (payload : List UInt8) :
    Legible [] [.offered (Transfer.begin config ⟨id, .write v payload⟩).2] := by
  have hquiet : awaitsSegment [] = false := rfl
  simp only [Transfer.begin]
  split
  · exact .command hquiet trivial rfl
  · split
    · rename_i hsize
      refine .command hquiet ?_ rfl
      simp only [Request.InRange, UInt8.toNat_ofNat', Wire.expeditedMax] at hsize ⊢
      omega
    · exact .command hquiet trivial rfl

namespace Engine

/-- **The server understands what the client says.** Whatever happens while a download is in progress, the requests are
read off their frames as they were meant. -/
theorem understood_course {e : Engine} {d : Dictionary} {id : ObjectId} {v : Value} {payload : List UInt8}
    (ha : e.active = some (Transfer.begin e.config ⟨id, .write v payload⟩).1) (os : List Occasion) :
    let conversation := .offered (Transfer.begin e.config ⟨id, .write v payload⟩).2 ::
      (e.course d (Transfer.begin e.config ⟨id, .write v payload⟩).1 os).messages
    understood (conversation.map Message.passing) = conversation := by
  intro conversation
  let opening : Request := (Transfer.begin e.config ⟨id, .write v payload⟩).2
  have hopening : Legible [] [.offered opening] := legible_begin e.config id v payload
  have hlegible : Legible [.offered opening]
      (e.course d (Transfer.begin e.config ⟨id, .write v payload⟩).1 os).messages := by
    cases hid : id.usesBlocks with
    | true =>
      have hcourse := course_invariant (d := d) e.config
        (fun ms fate => BlockDownload.Sound e.config id payload ms fate ∧ Legible [.offered opening] ms)
        (fun ms a s h => ⟨h.1.respond s, h.2.append (h.1.legible opening s)⟩)
        rfl ha [] ⟨BlockDownload.Sound.begin hid, .nil⟩ os
      exact hcourse.2
    | false =>
      have hbegin : Unblocked [] (.goesOn (Transfer.begin e.config ⟨id, .write v payload⟩).1) := by
        simp only [Transfer.begin, hid, Bool.false_eq_true, if_false]
        split <;> exact ⟨rfl, rfl⟩
      have hcourse := course_invariant (d := d) e.config
        (fun ms fate => Unblocked ms fate ∧ Legible [.offered opening] ms)
        (fun ms a s h => ⟨(h.1.respond opening s).2, h.2.append (h.1.respond opening s).1⟩)
        rfl ha [] ⟨hbegin, .nil⟩ os
      exact hcourse.2
  exact hopening.append hlegible

/-- **Delivery on the bus.** Once a write completes, the server has taken its payload from the frames. -/
theorem received_understood {e : Engine} {d : Dictionary} {id : ObjectId} {v : Value} {payload : List UInt8}
    (ha : e.active = some (Transfer.begin e.config ⟨id, .write v payload⟩).1) (os : List Occasion)
    {stored : Option Value} :
    let t : Transfer := ⟨id, .write v payload⟩
    let c := e.course d (t.begin e.config).1 os
    c.fate = .ends (.completed stored) →
      ∃ messages, understood ((.offered (t.begin e.config).2 :: c.messages).map Message.passing) =
        .offered (t.begin e.config).2 :: messages ∧ t.received e.config messages = payload := by
  intro t c hdone
  exact ⟨c.messages, understood_course ha os, received_completed ha os hdone⟩

end Engine

end SdoClient
