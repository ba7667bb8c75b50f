/-
What a block transfer holds between two events, in every state that a new engine can reach. The traffic of a run ends
with the request that opened the transfer in progress and with what passed since, so the state of the transfer can be
set against the messages that led to it.

Main statements:
- `block_download_state`: where a block download stands in its payload, when it waits for an acknowledgement, and that
  a short acknowledgement takes it back to the first octet of the first segment that was not confirmed;
- `block_upload_state`: a block upload keeps whole segments only, so the padding that the server reports at the end
  lies within the last segment.
-/
import Mathlib.Tactic
import SdoClient.Proofs.BlockRetries
import SdoClient.Proofs.Traffic

namespace SdoClient

/-! ## Block downloads -/

/-- the write taken back to `position`, to go on from there with a block of `granted` segments -/
def Writing.sentBack (w : Writing) (o : Output) (position granted : Nat) : Writing :=
  { w with
    offset := position
    phase := .block { blksize := granted, blockStart := position, attempts := o.attempts + 1, crc := o.crc } }

namespace BlockDownload

/-- where a block download stands when it waits for an acknowledgement, and when it has come to its end -/
structure Measured (w : Writing) : Prop where
  inside : w.offset ≤ w.payload.length
  awaiting : ∀ o, w.phase = .block o → o.awaitingAck = true → o.blksize ≤ o.seqno ∨ w.size ≤ w.offset
  ended : w.phase = .blockEnd → w.size ≤ w.offset

/-- what a block download keeps of its messages -/
def Downloading (config : Config) (messages : List Message) : Fate → Prop
  | .goesOn (.writing w) =>
    w.target.usesBlocks = true → w.Sized → Measured w ∧
      ∃ ms, messages = ms.flatMap (Meeting.messages config) ∧
        Economical config w.target w.payload ms (.goesOn (.writing w))
  | _ => True

/-- a block of a download between two events -/
structure Positioned (w : Writing) (o : Output) : Prop where
  attempts : o.attempts ≤ maxBlockRetries
  start : o.blockStart ≤ w.payload.length
  aligned : o.blockStart % 7 = 0
  offset : w.offset = min (o.blockStart + 7 * o.seqno) w.payload.length
  granted : 1 ≤ o.blksize ∧ o.blksize ≤ 127
  seqno : o.seqno ≤ o.blksize
  awaiting : o.awaitingAck = true ↔ 1 ≤ o.seqno ∧ (o.seqno = o.blksize ∨ w.offset = w.payload.length)

section download

variable {config : Config} {messages : List Message} {w : Writing} {o : Output}

/-- a turn that goes on leaves the download where it can stand -/
theorem Measured.step {next : Writing} {s : Stimulus} {turn : Turn} (h : Measured w) (hsized : w.Sized)
    (hstep : Step w s turn) (hnext : turn.fate = .goesOn (.writing next)) : Measured next := by
  have hinside := h.inside
  cases hstep with
  | rests =>
    cases hnext
    exact h
  | @sends o phase ready =>
    cases hnext
    refine ⟨Nat.min_le_right _ _, fun o' ho hawaits => ?_, fun hend => by cases hend⟩
    cases ho
    rcases Bool.or_eq_true_iff.1 hawaits with hlast | hfull
    · exact .inr (of_decide_eq_true hlast)
    · exact .inl (of_decide_eq_true hfull)
  | opened phase =>
    cases hnext
    exact ⟨hinside, fun o' ho hawaits => (by cases ho; cases hawaits), fun hend => by cases hend⟩
  | resends phase awaits read short again back =>
    cases hnext
    have hstart : _ ≤ w.payload.length := back ▸ (Nat.min_le_right _ _).trans hsized.le
    exact ⟨hstart, fun o' ho hawaits => (by cases ho; cases hawaits), fun hend => by cases hend⟩
  | advances phase awaits read whole more =>
    cases hnext
    exact ⟨hinside, fun o' ho hawaits => (by cases ho; cases hawaits), fun hend => by cases hend⟩
  | concludes phase awaits read whole done =>
    cases hnext
    exact ⟨hinside, fun o' ho => (by cases ho), fun _ => done⟩
  | refused phase awaits read reason => cases hnext
  | ends unacknowledged closing => cases hnext

/-- a new block download has nothing to wait for yet -/
theorem measured_begin (id : ObjectId) (v : Value) (payload : List UInt8) :
    Measured { target := id, value := v, payload, phase := .blockOpening } :=
  ⟨Nat.zero_le _, fun o ho => (by cases ho), fun hend => by cases hend⟩

theorem downloading_begin (config : Config) (t : Transfer) : Downloading config [] (.goesOn (t.begin config).1) := by
  have htarget := t.target_begin config
  obtain ⟨id, job⟩ := t
  by_cases hid : id.usesBlocks = true
  · cases job with
    | read =>
      rw [BlockUpload.begin_read config hid]
      trivial
    | write v payload size =>
      have heconomical : Economical config id payload [] _ := Economical.begin (v := v) hid
      simp only [Transfer.begin, hid, if_true] at heconomical ⊢
      rintro - hsized
      obtain rfl : size = payload.length := hsized
      exact ⟨measured_begin id v payload, [], rfl, heconomical⟩
  · generalize (Transfer.begin config ⟨id, job⟩).1 = a at htarget
    cases a with
    | reading r => trivial
    | writing w =>
      have htarget : w.target = id := htarget
      exact fun hblocks _ => absurd (htarget ▸ hblocks) hid

/-- **Step lemma.** Every turn keeps what a block download keeps of its messages. -/
theorem Downloading.respond {a : Active} (h : Downloading config messages (.goesOn a)) (s : Stimulus) :
    Downloading config (messages ++ (a.respond config s).messages s) (a.respond config s).fate := by
  cases hfate : (a.respond config s).fate with
  | ends ending => trivial
  | goesOn next =>
    have htransfer := Active.transfer_respond hfate
    cases next with
    | reading r => trivial
    | writing next =>
      cases a with
      | reading r => simp [Active.transfer] at htransfer
      | writing w =>
        obtain ⟨htarget, -, hpayload, hsize⟩ : next.target = w.target ∧ next.value = w.value ∧
            next.payload = w.payload ∧ next.size = w.size := by
          simpa [Active.transfer] using htransfer
        intro hid hsized
        rw [htarget] at hid
        have hsized : w.Sized := by rwa [Writing.Sized, hpayload, hsize] at hsized
        obtain ⟨hmeasured, ms, rfl, heconomical⟩ := h hid hsized
        have hkept := heconomical.respond s
        rw [hfate] at hkept
        refine ⟨hmeasured.step hsized (step_respond config heconomical.blockwise s) hfate, ms ++ [⟨.writing w, s⟩], ?_, ?_⟩
        · rw [List.flatMap_append, List.flatMap_singleton]
          rfl
        · rwa [htarget, hpayload]

/-- the layout of the messages and the acknowledgements so far put the block in its place -/
theorem positioned_of_sending {id : ObjectId} {x : Account} {closed : List SentBlock} {current : SentBlock}
    (hs : Sending config id w.payload messages w.offset o closed current) (hcost : Progress x o) (hw : Measured w)
    (hsized : w.Sized) (hphase : w.phase = .block o) : Positioned w o := by
  have hseqno := hs.seqno
  have hmost : o.blksize ≤ 127 := hs.valid
  have hreached := hs.reached
  constructor
  case attempts => exact hcost.attempts
  case start => exact within_le hs.start
  case aligned => exact hs.aligned
  case offset => exact hs.reached
  case seqno => exact hs.seqno
  case granted =>
    refine ⟨?_, hmost⟩
    cases hawaits : o.awaitingAck with
    | true => exact (hs.awaiting hawaits).trans_le hseqno
    | false => exact Nat.zero_lt_of_lt (hs.ready hawaits).1
  case awaiting =>
    constructor
    · intro hawaits
      refine ⟨hs.awaiting hawaits, ?_⟩
      rcases hw.awaiting o hphase hawaits with hfull | hend
      · exact .inl (Nat.le_antisymm hseqno hfull)
      · exact .inr (Nat.le_antisymm hw.inside (hsized.ge.trans hend))
    · rintro ⟨hsent, hcomplete⟩
      by_contra hready
      obtain ⟨hroom, hmore⟩ := hs.ready (by simpa using hready)
      -- a block that is still being sent has room and something left to send
      rcases hcomplete with hfull | hend
      · omega
      · rcases hmore with hmore | ⟨-, hstart⟩ <;> omega

/-! ### Short acknowledgements -/

/-- a short acknowledgement takes the download back, unless none is awaited, it grants an invalid size, or there were
too many of them in a row; then it aborts the download -/
theorem fate_short (config : Config) (hphase : w.phase = .block o) {data : List UInt8} {ackseq granted : UInt8}
    (hread : Response.parse data = .ok (.blockDownloadAck ackseq granted)) (hshort : ackseq.toNat < o.seqno)
    (hinside : o.blockStart + 7 * ackseq.toNat ≤ w.size) :
    ∃ code, ((Active.writing w).respond config (.frame data)).fate =
      if o.awaitingAck = true ∧ Wire.validBlockSize granted.toNat = true ∧ o.attempts < maxBlockRetries then
        .goesOn (.writing (w.sentBack o (o.blockStart + 7 * ackseq.toNat) granted.toNat))
      else .ends (.aborted code) := by
  have hposition : min (o.blockStart + ackseq.toNat * Wire.segmentSize) w.size =
      o.blockStart + 7 * ackseq.toNat := by
    rw [Wire.segmentSize, Nat.mul_comm]
    exact Nat.min_eq_left hinside
  have hnotmore : ¬o.seqno < ackseq.toNat := hshort.asymm
  rw [Active.respond, Active.reactTo_response hread (fun _ _ habort => by cases habort) rfl, Active.answer,
    Writing.reaction_answer, hphase]
  simp only
  by_cases hawaits : o.awaitingAck = true
  · rw [if_pos hawaits, Writing.reaction_acknowledged]
    cases hvalid : Wire.validBlockSize granted.toNat with
    | false => exact ⟨.invalidBlockSize, by simp [Reaction.turn]⟩
    | true =>
      by_cases hagain : o.attempts < maxBlockRetries
      · have hallowed : ¬maxBlockRetries < o.attempts + 1 := by omega
        refine ⟨.invalidSequenceNumber, ?_⟩
        rw [if_neg (by decide), if_neg hnotmore, if_pos hshort, if_neg hallowed, hposition, if_pos ⟨hawaits, rfl, hagain⟩]
        rfl
      · have hexhausted : maxBlockRetries < o.attempts + 1 := by omega
        refine ⟨.invalidSequenceNumber, ?_⟩
        rw [if_neg (by decide), if_neg hnotmore, if_pos hshort, if_pos hexhausted, if_neg fun hall => hagain hall.2.2]
        rfl
  · rw [if_neg hawaits]
    exact ⟨.commandNotValid, by simp [hawaits, Reaction.turn]⟩

end download

/-- what an acknowledgement of `ackseq` segments does when more of the block were sent. The first one that it leaves out
has its octets from a position inside the payload on, and the download goes back to exactly there; or it is aborted,
because no acknowledgement was due, the size granted is invalid, or there were too many in a row. -/
structure TakesBack (s : Service) (w : Writing) (o : Output) (sent : List SentSegment) (ackseq granted : UInt8) :
    Prop where
  inside : Within w.payload (o.blockStart + 7 * ackseq.toNat)
  uncut : min (o.blockStart + ackseq.toNat * 7) w.size = o.blockStart + 7 * ackseq.toNat
  segment : ∃ segment, sent[ackseq.toNat]? = some segment ∧ segment.seqno.toNat = ackseq.toNat + 1 ∧
    segment.data = Wire.padded 7 (w.payload.drop (o.blockStart + 7 * ackseq.toNat))
  back : ∀ (occasion : Engine.Occasion) (frame : CanFrame), occasion.event = .frame frame →
    frame.id = s.engine.responseId → Response.parse frame.data = .ok (.blockDownloadAck ackseq granted) →
    if o.awaitingAck = true ∧ Wire.validBlockSize granted.toNat = true ∧ o.attempts < maxBlockRetries then
      (s.engine.step s.dictionary occasion).engine.active =
        some (.writing (w.sentBack o (o.blockStart + 7 * ackseq.toNat) granted.toNat))
    else s.engine.finished? occasion = some ⟨(Active.writing w).transfer, true⟩

/-- a short acknowledgement of the block that is being sent -/
theorem Sending.takesBack {s : Service} {config : Config} {id : ObjectId} {messages : List Message} {w : Writing}
    {o : Output} {closed : List SentBlock} {current : SentBlock} {ackseq granted : UInt8}
    (h : Sending config id w.payload messages w.offset o closed current) (hsized : w.Sized)
    (ha : s.engine.active = some (.writing w)) (hphase : w.phase = .block o) (hshort : ackseq.toNat < o.seqno) :
    TakesBack s w o current.segments ackseq granted := by
  have hin := h.within _ hshort
  have hle : o.blockStart + 7 * ackseq.toNat ≤ w.size := (within_le hin).trans hsized.ge
  have hsent : ackseq.toNat < current.segments.length := by rwa [h.length_current]
  obtain ⟨segment, hsegment⟩ : ∃ segment, current.segments[ackseq.toNat]? = some segment :=
    ⟨_, List.getElem?_eq_getElem hsent⟩
  obtain ⟨hnumber, hdata, -, -⟩ := h.laid_current.segment hsegment
  refine ⟨hin, ?_, ⟨segment, hsegment, hnumber, hdata⟩, fun occasion frame hevent hframe hread => ?_⟩
  · rw [Nat.mul_comm]
    exact Nat.min_eq_left hle
  · have hstimulus : s.engine.stimulus? occasion = some (.frame frame.data) := by
      simp [Engine.stimulus?, hevent, hframe]
    obtain ⟨code, hfate⟩ := fate_short s.engine.config hphase hread hshort hle
    split <;> rename_i hallowed
    · rw [if_pos hallowed] at hfate
      have hcarries := Engine.step_active (d := s.dictionary) ha hstimulus
      rw [Engine.Carries, hfate] at hcarries
      exact hcarries.1
    · rw [if_neg hallowed] at hfate
      simp [Engine.finished?, ha, hstimulus, hfate, Ending.failed]

end BlockDownload

namespace Service

open BlockDownload

/-- **The state of a block download.** In every state that a new engine can reach with a block download in progress, the
size is the length of the payload, and the size announced to the server; the offset lies inside. Either the server has
not answered and nothing is sent; or the end is announced and all of the payload sent; or a block is in progress, as
`Positioned` says. Then the last block in the messages since the download was opened has the granted size and as many
segments as the block number tells, and an acknowledgement of fewer segments takes the download back to exactly the
first octet of the next one. -/
theorem block_download_state (node : UInt8) (config : Config) (d : Dictionary) (ms : List Move) (w : Writing)
    (ha : ((start node config d).run ms).engine.active = some (.writing w)) (hid : w.target.usesBlocks = true) :
    let s := (start node config d).run ms
    let size := (Active.writing w).size
    size = (Active.writing w).data.length ∧ w.offset ≤ size ∧
      (w.phase = .blockOpening ∧ w.offset = 0 ∨ (∃ o, w.phase = .block o ∧ Positioned w o) ∨
        w.phase = .blockEnd ∧ w.offset = size) ∧
      ∃ earlier messages,
        (start node config d).traffic ms =
          earlier ++ .offered (.blockDownloadInitiate w.target.mux (announced size) config.crc) :: messages ∧
        ∀ o, w.phase = .block o → ∃ closed current, sentBlocks messages = closed ++ [current] ∧
          current.granted = o.blksize ∧ current.segments.length = o.seqno ∧
          ∀ ackseq granted : UInt8, ackseq.toNat < o.seqno → TakesBack s w o current.segments ackseq granted := by
  intro s size
  obtain ⟨earlier, messages, htraffic, hdownloading⟩ :=
    current_of_run (downloading_begin config) (fun _ _ stimulus h => h.respond stimulus) node d ms ha
  have hsized : w.Sized := writing_sized ha
  obtain ⟨hmeasured, met, hmessages, heconomical⟩ := hdownloading hid hsized
  have hinside : w.offset ≤ size := hmeasured.inside.trans hsized.ge
  have hopened : (Active.writing w).transfer.begin config =
      ((Active.writing w).transfer.begin config |>.1,
        .blockDownloadInitiate w.target.mux (announced size) config.crc) := by
    simp only [Active.transfer, Transfer.begin, hid, if_true, size, Active.size]
  rw [hopened] at htraffic
  refine ⟨hsized, hinside, ?_, earlier, messages, htraffic, fun o hphase => ?_⟩
  · rcases heconomical.blockwise with hphase | ⟨o, hphase⟩ | hphase
    · have hnothing := heconomical.1.2.2.2
      rw [hphase] at hnothing
      exact .inl ⟨hphase, hnothing.2⟩
    · obtain ⟨-, hcost, closed, current, hsending⟩ := heconomical.block hphase
      exact .inr (.inl ⟨o, hphase, positioned_of_sending hsending hcost hmeasured hsized hphase⟩)
    · exact .inr (.inr ⟨hphase, Nat.le_antisymm hinside (hmeasured.ended hphase)⟩)
  · obtain ⟨-, -, closed, current, hsending⟩ := heconomical.block hphase
    rw [← hmessages] at hsending
    exact ⟨closed, current, hsending.blocks, hsending.granted, hsending.length_current,
      fun ackseq granted hshort => hsending.takesBack hsized ha hphase hshort⟩

/-- sixteen octets in blocks of two segments; one of the first two is confirmed, and the other one and the rest go out
again -/
def resentTail : List Move :=
  [.event ⟨0, true, .download fileId (.octets (List.range 16 |>.map UInt8.ofNat))⟩,
    .event ⟨1, true, .frame ⟨0x585, [0xa4, 0x01, 0x20, 0, 2, 0, 0, 0]⟩⟩, .event ⟨2, true, .tick⟩,
    .event ⟨3, true, .tick⟩, .event ⟨4, true, .frame ⟨0x585, [0xa2, 1, 127, 0, 0, 0, 0, 0]⟩⟩, .event ⟨5, true, .tick⟩,
    .event ⟨6, true, .tick⟩]

/-- the block with the rest of the octets -/
def tailBlock : Output :=
  { blksize := 127, seqno := 2, blockStart := 7, attempts := 1, awaitingAck := true, crc := false }

def tailSent : Writing :=
  { target := fileId
    value := .octets (List.range 16 |>.map UInt8.ofNat)
    payload := List.range 16 |>.map UInt8.ofNat
    offset := 16
    phase := .block tailBlock }

/-- the server misses the last segment, of two octets -/
theorem block_download_state_resent :
    let s := (start 5 {} twoEntries).run resentTail
    let ack : Engine.Occasion := ⟨7, true, .frame ⟨0x585, [0xa2, 1, 5, 0, 0, 0, 0, 0]⟩⟩
    s.engine.active = some (.writing tailSent) ∧ tailSent.target.usesBlocks = true ∧ Positioned tailSent tailBlock ∧
      (s.engine.step s.dictionary ack).engine.active = some (.writing (tailSent.sentBack tailBlock 14 5)) := by
  intro s ack
  have ha : s.engine.active = some (.writing tailSent) := by decide +kernel
  have hid : tailSent.target.usesBlocks = true := rfl
  obtain ⟨-, -, hstands, _, _, -, hblock⟩ := block_download_state 5 {} twoEntries resentTail tailSent ha hid
  obtain ⟨closed, current, -, -, -, hshort⟩ := hblock tailBlock rfl
  have hback := (hshort 1 5 (by decide)).back ack _ rfl (by decide +kernel) (by decide)
  rw [if_pos (by decide)] at hback
  rcases hstands with ⟨hphase, -⟩ | ⟨o, hphase, hpositioned⟩ | ⟨hphase, -⟩
  · cases hphase
  · cases hphase
    exact ⟨ha, hid, hpositioned, hback⟩
  · cases hphase

end Service

/-! ## Block uploads -/

/-- a block that comes in, between two events: whole segments, as many as the number of the last one tells, and none
that ends the transfer -/
structure Intake.Framed (i : Intake) : Prop where
  block : i.block.length = 7 * i.seqno
  seqno : i.seqno ≤ Wire.blockMax
  ongoing : i.lastReceived = false

/-- what a segment can do to a block -/
theorem Intake.take_cases (i : Intake) (s : Segment) :
    i.take s = i ∨ i.take s = { i with gap := true } ∨
      s.seqno = i.seqno + 1 ∧
        i.take s = { i with seqno := s.seqno, block := i.block ++ s.data.toList, lastReceived := s.last } := by
  unfold take
  split
  · exact .inl rfl
  · split
    · rename_i hnext
      exact .inr (.inr ⟨hnext, rfl⟩)
    · exact .inr (.inl rfl)

namespace BlockUpload

/-- the last segment was received in order, and its block acknowledged: the upload is `kept` and the octets of `final` -/
structure LastConfirmed (messages : List Message) (data kept : List UInt8) (final : Segment) : Prop where
  octets : data = kept ++ final.data.toList
  last : final.last = true
  acknowledged : ∃ earlier frame ackseq blksize,
    messages = earlier ++ [.received frame, .offered (.blockUploadAck ackseq blksize)] ∧
      Segment.parse frame = .ok final ∧ ackseq.toNat = final.seqno

/-- what a block upload keeps, by its phase: the octets confirmed are those of whole segments -/
def Whole (messages : List Message) : Fate → Prop
  | .goesOn (.reading r) =>
    match r.phase with
    | .block i => r.data.length % 7 = 0 ∧ i.Framed
    | .blockEnd _ => r.data.length % 7 = 0 ∧ ∃ kept final, LastConfirmed messages r.data kept final
    | _ => True
  | _ => True

section upload

variable {config : Config} {messages : List Message} {r : Reading} {a : Active} {i : Intake} {s : Segment}
  {data kept : List UInt8}

theorem framed_nothing (blksize : Nat) (crc : Bool) : Intake.Framed { blksize, crc } :=
  ⟨rfl, Nat.zero_le _, rfl⟩

/-- a segment leaves a block of whole segments -/
theorem framed_take (h : i.Framed) (hs : s.seqno < 128) :
    (i.take s).block.length = 7 * (i.take s).seqno ∧ (i.take s).seqno ≤ Wire.blockMax := by
  rcases Intake.take_cases i s with htake | htake | ⟨hnext, htake⟩ <;> rw [htake]
  · exact ⟨h.block, h.seqno⟩
  · exact ⟨h.block, h.seqno⟩
  · refine ⟨?_, Nat.le_of_lt_succ hs⟩
    simp only [List.length_append, Vector.length_toList, h.block, hnext]
    omega

/-- only a last segment that is in order ends the transfer -/
theorem take_last (h : i.Framed) (hlast : (i.take s).lastReceived = true) :
    s.last = true ∧ (i.take s).seqno = s.seqno ∧ (i.take s).block = i.block ++ s.data.toList := by
  rcases Intake.take_cases i s with htake | htake | ⟨-, htake⟩ <;> rw [htake] at hlast ⊢
  · exact absurd (h.ongoing.symm.trans hlast) Bool.false_ne_true
  · exact absurd (h.ongoing.symm.trans hlast) Bool.false_ne_true
  · exact ⟨hlast, rfl, rfl⟩

/-- a response keeps whole segments: the one that opens a block upload starts with none -/
theorem whole_answer (r : Reading) (response : Response) :
    Whole messages ((r.answer config response).reaction.turn a).fate := by
  have hanswered := r.answered_answer config response
  generalize (r.answer config response).reaction = reaction at hanswered
  cases hanswered with
  | abort | finish | closes => trivial
  | opened phase target waits | continued phase target waits => simp only [Reaction.turn, Whole, waits]
  | blocksOpened phase target empty waits =>
    simp only [Reaction.turn, Whole, waits, empty]
    exact ⟨rfl, framed_nothing _ _⟩

/-- a segment keeps whole segments, and the last one leaves its octets at the end -/
theorem whole_segment (hdata : r.data.length % 7 = 0) (hi : i.Framed) {frame : List UInt8}
    (hs : Segment.parse frame = .ok s) :
    Whole (messages ++ ((r.segment config i s).reaction.turn a).messages (.frame frame))
      ((r.segment config i s).reaction.turn a).fate := by
  have hnumber := Segment.seqno_of_parse hs
  obtain ⟨hblock, hseqno⟩ := framed_take hi hnumber
  rw [Reading.reaction_segment]
  split
  · -- the block ends: it is confirmed or comes again
    have hgathered : (r.gathered (i.take s)).data.length % 7 = 0 := by
      simp only [Reading.gathered]
      split
      · exact hdata
      · rw [List.length_append, hblock]
        omega
    rw [Reading.acknowledge_eq]
    by_cases hlast : (!(i.take s).gap && (i.take s).lastReceived) = true
    · obtain ⟨hgap, hlastReceived⟩ : (i.take s).gap = false ∧ (i.take s).lastReceived = true := by simpa using hlast
      obtain ⟨hfinal, hsame, htaken⟩ := take_last hi hlastReceived
      simp only [hlast, if_true]
      refine ⟨hgathered, r.data ++ i.block, s, ?_, hfinal, messages, frame, _, _, rfl, hs, ?_⟩
      · simp only [Reading.gathered, hgap, htaken, List.append_assoc]
        rfl
      · simp only [hgap, hsame, UInt8.toNat_ofNat', Bool.false_eq_true, if_false]
        omega
    · simp only [hlast]
      exact ⟨hgathered, framed_nothing _ _⟩
  · rename_i hwithin
    refine ⟨hdata, hblock, hseqno, ?_⟩
    by_contra hlast
    obtain ⟨hfinal, -⟩ := take_last hi (by simpa using hlast)
    exact hwithin (by simp [Intake.endsWith, hfinal])

theorem whole_begin (config : Config) (t : Transfer) : Whole [] (.goesOn (t.begin config).1) := by
  obtain ⟨id, job⟩ := t
  cases job with
  | read =>
    simp only [Transfer.begin]
    split <;> trivial
  | write v payload =>
    simp only [Transfer.begin]
    split
    · trivial
    · split <;> trivial

/-- **Step lemma.** Every turn keeps whole segments. -/
theorem whole_respond (h : Whole messages (.goesOn a)) (stimulus : Stimulus) :
    Whole (messages ++ (a.respond config stimulus).messages stimulus) (a.respond config stimulus).fate := by
  cases a with
  | writing w =>
    cases hfate : ((Active.writing w).respond config stimulus).fate with
    | ends ending => trivial
    | goesOn next =>
      cases next with
      | writing next => trivial
      | reading r =>
        have htransfer := Active.transfer_respond hfate
        simp [Active.transfer] at htransfer
  | reading r =>
    cases stimulus with
    | lapse => trivial
    | tick ready => simpa [Active.respond, Active.paced, Turn.messages, Stimulus.heard] using h
    | frame data =>
      rw [Active.respond]
      rcases (Active.reading r).reactTo_cases config data with ⟨code, ha⟩ | ⟨mux, code, -, ha⟩ | ⟨response, -, ha⟩ |
        ⟨r', i, segment, hr, hphase, hsegment, ha⟩ <;> rw [ha]
      · trivial
      · trivial
      · exact whole_answer r response
      · cases hr
        simp only [Whole, hphase] at h
        exact whole_segment h.1 h.2 hsegment

/-! ### The padding at the end -/

theorem LastConfirmed.prepend (h : LastConfirmed messages data kept s) (before : List Message) :
    LastConfirmed (before ++ messages) data kept s := by
  obtain ⟨hdata, hlast, earlier, frame, ackseq, blksize, hmessages, hframe, hack⟩ := h
  refine ⟨hdata, hlast, before ++ earlier, frame, ackseq, blksize, ?_, hframe, hack⟩
  rw [hmessages, List.append_assoc]

/-- seven octets at most are cut off at the end of an upload, and they are octets of its last segment -/
theorem LastConfirmed.cut (h : LastConfirmed messages data kept s) {unused : Nat} (hunused : unused ≤ 7) :
    unused ≤ data.length ∧ data.take (data.length - unused) = kept ++ s.data.toList.take (7 - unused) := by
  have hlength : data.length = kept.length + 7 := by
    rw [h.octets, List.length_append, Vector.length_toList]
  refine ⟨by omega, ?_⟩
  have hbehind : kept.length ≤ data.length - unused := by omega
  rw [h.octets, List.take_append, ← h.octets, List.take_of_length_le hbehind]
  congr 2
  omega

end upload

end BlockUpload

/-- the padding of a block upload has three bits -/
theorem Response.unused_of_parse {data : List UInt8} {unused : Nat} {sum : UInt16}
    (h : parse data = .ok (.blockUploadEnd unused sum)) : unused ≤ 7 := by
  unfold parse at h
  split at h
  · dsimp only at h
    split at h
    · cases h
    · cases h
    · cases h
    · cases h
    · cases h
    · split at h <;> cases h
    · split at h <;> cases h
      omega
    · cases h
  · cases h

namespace Service

open BlockUpload

/-- **The state of a block upload.** In every state that a new engine can reach with a block upload in progress that the
server has opened: the confirmed octets are those of whole segments, the block that comes in has seven octets for each
segment up to the number of the last one, which has seven bits, and no segment that ends the transfer has come in. Once
the client waits for the frame that ends the upload, the traffic ends with the last segment and its acknowledgement, and
its octets are the last ones confirmed. So the padding that any such frame can report lies within that segment, and
there are octets enough to cut it off. -/
theorem block_upload_state (node : UInt8) (config : Config) (d : Dictionary) (ms : List Move) (r : Reading)
    (ha : ((start node config d).run ms).engine.active = some (.reading r)) :
    (∀ i, r.phase = .block i →
      r.data.length % 7 = 0 ∧ i.block.length = 7 * i.seqno ∧ i.seqno ≤ 127 ∧ i.lastReceived = false) ∧
      ∀ checked, r.phase = .blockEnd checked →
        r.data.length % 7 = 0 ∧ r.data ≠ [] ∧
          ∃ kept final, LastConfirmed ((start node config d).traffic ms) r.data kept final ∧
            ∀ data unused sum, Response.parse data = .ok (.blockUploadEnd unused sum) →
              unused ≤ 7 ∧ unused ≤ r.data.length ∧
                r.data.take (r.data.length - unused) = kept ++ final.data.toList.take (7 - unused) := by
  obtain ⟨earlier, messages, htraffic, hwhole⟩ :=
    current_of_run (whole_begin config) (fun _ _ stimulus h => whole_respond h stimulus) node d ms ha
  refine ⟨fun i hphase => ?_, fun checked hphase => ?_⟩
  · simp only [Whole, hphase] at hwhole
    obtain ⟨hdata, hframed⟩ := hwhole
    exact ⟨hdata, hframed.block, hframed.seqno, hframed.ongoing⟩
  · simp only [Whole, hphase] at hwhole
    obtain ⟨hdata, kept, final, hclosing⟩ := hwhole
    have hclosed : LastConfirmed ((start node config d).traffic ms) r.data kept final := by
      rw [htraffic, List.append_cons]
      exact hclosing.prepend _
    refine ⟨hdata, ?_, kept, final, hclosed, fun data unused sum hparse => ?_⟩
    · rw [hclosing.octets]
      simp
    · have hunused := Response.unused_of_parse hparse
      exact ⟨hunused, hclosed.cut hunused⟩

/-- ten octets, announced as such; the first segment gets lost and the block comes again -/
def lostFirst : List Move :=
  [.event ⟨0, true, .upload fileId⟩, .event ⟨1, true, .frame ⟨0x585, [0xc2, 0x01, 0x20, 0, 10, 0, 0, 0]⟩⟩,
    .event ⟨2, true, .frame ⟨0x585, [0x82, 3, 2, 1, 0, 0, 0, 0]⟩⟩,
    .event ⟨3, true, .frame ⟨0x585, [0x01, 10, 9, 8, 7, 6, 5, 4]⟩⟩,
    .event ⟨4, true, .frame ⟨0x585, [0x82, 3, 2, 1, 0, 0, 0, 0]⟩⟩, .event ⟨5, true, .tick⟩]

/-- both segments are confirmed, with the padding -/
def bothSegments : Reading :=
  { target := fileId, size := 10, data := [10, 9, 8, 7, 6, 5, 4, 3, 2, 1, 0, 0, 0, 0], phase := .blockEnd false }

/-- the server reports four octets of padding -/
theorem block_upload_state_padded :
    ((start 5 {} twoEntries).run lostFirst).engine.active = some (.reading bothSegments) ∧
      bothSegments.data.length % 7 = 0 ∧
      ∃ kept final, LastConfirmed ((start 5 {} twoEntries).traffic lostFirst) bothSegments.data kept final ∧
        4 ≤ bothSegments.data.length ∧
        bothSegments.data.take (bothSegments.data.length - 4) = kept ++ final.data.toList.take 3 := by
  have ha : ((start 5 {} twoEntries).run lostFirst).engine.active = some (.reading bothSegments) := by decide +kernel
  obtain ⟨-, hend⟩ := block_upload_state 5 {} twoEntries lostFirst bothSegments ha
  obtain ⟨hdata, -, kept, final, hclosing, hcut⟩ := hend false rfl
  obtain ⟨-, henough, hkept⟩ := hcut [0xd1, 0, 0, 0, 0, 0, 0, 0] 4 0 (by decide)
  exact ⟨ha, hdata, kept, final, hclosing, henough, hkept⟩

end Service

end SdoClient
