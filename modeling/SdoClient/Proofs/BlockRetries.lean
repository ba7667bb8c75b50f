/-
How long a block download can go on. A server may confirm a block short, and then the rest is sent again. Every block
that is confirmed whole moves the start of the next one by at least a segment, and at most three blocks in a row may be
short, so the number of blocks is bounded by the payload alone.

Main statement: `block_retries_bounded`. Whatever the server acknowledges and whatever block sizes it grants, a download
of `size` octets starts at most `4 * segmentCount size` blocks, each no earlier in the payload than the one before.
-/
import Mathlib.Tactic
import SdoClient.Proofs.BlockDownload
import SdoClient.Proofs.RequestFrames

namespace SdoClient

/-! ## Blocks and acknowledgements as the engine meets them -/

/-- where in the payload the block begins that a turn starts -/
def Turn.start? (a : Active) (turn : Turn) : Option Nat :=
  match turn.fate with
  | .goesOn (.writing w) => if a.paces then none else w.sending?.map Output.blockStart
  | .goesOn (.reading _) | .ends _ => none

/-- where in the payload the block begins that is started at a meeting -/
def Meeting.start? (config : Config) (m : Meeting) : Option Nat := (m.active.respond config m.stimulus).start? m.active

/-- an acknowledgement: the segments of the block that were sent, those that the server confirms, and how many it grants
for the next block -/
structure BlockAck where
  sent : Nat
  confirmed : Nat
  granted : Nat
  deriving DecidableEq

/-- some segments of the block are to be sent again -/
def BlockAck.Short (x : BlockAck) : Prop := x.confirmed < x.sent

instance (x : BlockAck) : Decidable x.Short := inferInstanceAs (Decidable (_ < _))

/-- the acknowledgement that comes while the client waits for one -/
def Meeting.ack? (m : Meeting) : Option BlockAck :=
  match m with
  | ⟨.writing w, .frame data⟩ =>
    match w.phase, Response.parse data with
    | .block o, .ok (.blockDownloadAck ackseq blksize) =>
      if o.awaitingAck then some ⟨o.seqno, ackseq.toNat, blksize.toNat⟩ else none
    | _, _ => none
  | _ => none

/-- how many segments of blocks were offered -/
def blockSegments (messages : List Message) : Nat := (said messages).countP Request.isBlockSegment

theorem blockSegments_append (messages : List Message) (turn : Turn) (s : Stimulus) :
    blockSegments (messages ++ turn.messages s) =
      blockSegments messages + turn.requests.countP Request.isBlockSegment := by
  rw [blockSegments, said_append, List.countP_append, said_messages]
  rfl

namespace BlockDownload

/-! ## The turns of a block download -/

/-- what a stimulus can make of a write that moves a domain -/
inductive Step (w : Writing) : Stimulus → Turn → Prop
  /-- a tick when there is nothing to send, or while the bus is busy -/
  | rests {ready : Bool} : Step w (.tick ready) ⟨[], .goesOn (.writing w)⟩
  /-- the next segment -/
  | sends {o : Output} (phase : w.phase = .block o) (ready : o.awaitingAck = false) :
      Step w (.tick true) ⟨[(w.tick o).2], .goesOn (.writing (w.tick o).1)⟩
  /-- the server accepts the download -/
  | opened {data : List UInt8} {blksize : Nat} {crc : Bool} (phase : w.phase = .blockOpening) :
      Step w (.frame data) ⟨[], .goesOn (.writing { w with phase := .block { blksize, crc } })⟩
  /-- some segments were not confirmed -/
  | resends {data : List UInt8} {o : Output} {ackseq blksize : UInt8} (phase : w.phase = .block o)
      (awaits : o.awaitingAck = true) (read : Response.parse data = .ok (.blockDownloadAck ackseq blksize))
      (short : ackseq.toNat < o.seqno) (again : o.attempts < maxBlockRetries) {start : Nat}
      (back : start = min (o.blockStart + ackseq.toNat * 7) w.size) :
      Step w (.frame data) ⟨[], .goesOn (.writing { w with
        offset := start
        phase := .block { blksize := blksize.toNat, blockStart := start, attempts := o.attempts + 1, crc := o.crc } })⟩
  /-- the whole block was confirmed, and there is more to send -/
  | advances {data : List UInt8} {o : Output} {ackseq blksize : UInt8} (phase : w.phase = .block o)
      (awaits : o.awaitingAck = true) (read : Response.parse data = .ok (.blockDownloadAck ackseq blksize))
      (whole : ackseq.toNat = o.seqno) (more : w.offset < w.size) :
      Step w (.frame data) ⟨[], .goesOn (.writing { w with
        phase := .block { blksize := blksize.toNat, blockStart := w.offset, attempts := 0, crc := o.crc } })⟩
  /-- all of the payload was confirmed -/
  | concludes {data : List UInt8} {o : Output} {ackseq blksize unused : UInt8} {crc : UInt16}
      (phase : w.phase = .block o) (awaits : o.awaitingAck = true)
      (read : Response.parse data = .ok (.blockDownloadAck ackseq blksize))
      (whole : ackseq.toNat = o.seqno) (done : w.size ≤ w.offset) :
      Step w (.frame data) ⟨[.blockDownloadEnd unused crc], .goesOn (.writing { w with phase := .blockEnd })⟩
  /-- an acknowledgement that is not accepted; the size granted is looked at first -/
  | refused {data : List UInt8} {o : Output} {ackseq blksize : UInt8} {code : AbortCode} (phase : w.phase = .block o)
      (awaits : o.awaitingAck = true) (read : Response.parse data = .ok (.blockDownloadAck ackseq blksize))
      (reason : code =
        if Wire.validBlockSize blksize.toNat then .invalidSequenceNumber else .invalidBlockSize) :
      Step w (.frame data) ⟨[.abort w.target.mux code], .ends (.aborted code)⟩
  /-- anything else -/
  | ends {s : Stimulus} {requests : List Request} {ending : Ending}
      (unacknowledged : Meeting.ack? ⟨.writing w, s⟩ = none)
      (closing : requests.countP Request.isBlockSegment = 0) : Step w s ⟨requests, .ends ending⟩

/-- the phases of a write in blocks -/
def Blockwise (w : Writing) : Prop :=
  w.phase = .blockOpening ∨ (∃ o, w.phase = .block o) ∨ w.phase = .blockEnd

section steps

variable {config : Config} {w : Writing} {data : List UInt8}

/-- a block is paced until all of its segments are sent -/
theorem paces_block {o : Output} (phase : w.phase = .block o) : (Active.writing w).paces = !o.awaitingAck := by
  cases hawaits : o.awaitingAck <;> simp [Active.paces, Writing.sending?, phase, hawaits]

theorem ack?_awaiting {o : Output} {ackseq blksize : UInt8} (phase : w.phase = .block o)
    (awaits : o.awaitingAck = true) (read : Response.parse data = .ok (.blockDownloadAck ackseq blksize)) :
    Meeting.ack? ⟨.writing w, .frame data⟩ = some ⟨o.seqno, ackseq.toNat, blksize.toNat⟩ := by
  simp [Meeting.ack?, phase, read, awaits]

/-- the client gives up -/
theorem Step.abort {s : Stimulus} (h : Meeting.ack? ⟨.writing w, s⟩ = none) (code : AbortCode) :
    Step w s ((Reaction.abort code).turn (.writing w)) := .ends h rfl

theorem step_acknowledged {o : Output} {ackseq blksize : UInt8} (phase : w.phase = .block o)
    (awaits : o.awaitingAck = true) (read : Response.parse data = .ok (.blockDownloadAck ackseq blksize)) :
    Step w (.frame data) ((w.acknowledged o ackseq.toNat blksize.toNat).reaction.turn (.writing w)) := by
  rw [Writing.reaction_acknowledged]
  split
  · rename_i hinvalid
    exact .refused phase awaits read (by simp [hinvalid])
  rename_i hvalid
  have hvalid : Wire.validBlockSize blksize.toNat = true := by simpa using hvalid
  split
  · exact .refused phase awaits read (by simp [hvalid])
  split
  · rename_i hshort
    split
    · exact .refused phase awaits read (by simp [hvalid])
    · rename_i hagain
      exact .resends phase awaits read hshort (by omega) rfl
  · have hwhole : ackseq.toNat = o.seqno := by omega
    split
    · rename_i hdone
      exact .concludes phase awaits read hwhole hdone
    · rename_i hmore
      exact .advances phase awaits read hwhole (by omega)

theorem step_answer (hblocks : Blockwise w) {response : Response} (hread : Response.parse data = .ok response) :
    Step w (.frame data) ((w.answer config response).reaction.turn (.writing w)) := by
  rw [Writing.reaction_answer]
  split <;> rename_i hphase
  · simp [Blockwise, hphase] at hblocks
  · simp [Blockwise, hphase] at hblocks
  · have hnone : Meeting.ack? ⟨.writing w, .frame data⟩ = none := by simp [Meeting.ack?, hphase]
    split
    · rw [Writing.reaction_blocksOpened]
      split
      · exact .opened hphase
      · exact .abort hnone _
    · exact .abort hnone _
  · split
    · rename_i hawaits
      exact step_acknowledged hphase hawaits hread
    · rename_i hbusy
      exact .abort (by simp [Meeting.ack?, hphase, hread, hbusy]) _
  · exact .ends (by simp [Meeting.ack?, hphase]) rfl
  · refine .abort ?_ _
    rename_i hother
    simp only [Meeting.ack?]
    split
    · rename_i o ackseq blksize hphase hack
      exact absurd (Except.ok.inj (hread.symm.trans hack)) (hother o ackseq blksize hphase)
    · rfl

/-- **Step inversion.** -/
theorem step_respond (config : Config) (hblocks : Blockwise w) (s : Stimulus) :
    Step w s ((Active.writing w).respond config s) := by
  cases s with
  | lapse => exact .abort rfl _
  | tick ready =>
    simp only [Active.respond, Active.paced]
    split
    · rename_i o hsending
      obtain ⟨hphase, hready⟩ := w.sending?_eq_some hsending
      cases ready with
      | false => exact .rests
      | true => exact .sends hphase hready
    · exact .rests
  | frame data =>
    rw [Active.respond]
    cases hread : Response.parse data with
    | error fault =>
      have hnone : Meeting.ack? ⟨.writing w, .frame data⟩ = none := by simp [Meeting.ack?, hread]
      rcases (Active.writing w).reactTo_cases config data with ⟨code, ha⟩ | ⟨_, _, hok, -⟩ | ⟨_, hok, -⟩ |
        ⟨_, _, _, hr, -⟩
      · rw [ha]
        exact .abort hnone code
      · cases hread.symm.trans hok
      · cases hread.symm.trans hok
      · cases hr
    | ok response =>
      by_cases habort : ∃ mux code, response = .abort mux code
      · obtain ⟨mux, code, rfl⟩ := habort
        have hgiven : (Active.writing w).reactTo config data = .abandon code := by
          rw [Active.reactTo_answered (Response.length_of_parse hread) (.inl rfl), Active.answered, hread]
        rw [hgiven]
        exact .ends (by simp [Meeting.ack?, hread]) rfl
      · rw [Active.reactTo_response hread (fun mux code h => habort ⟨mux, code, h⟩) rfl]
        exact step_answer hblocks hread

end steps

/-! ## Acknowledgements in a row -/

/-- at most `most` of the last acknowledgements are short in a row -/
def Streak (acks : List BlockAck) (most : Nat) : Prop :=
  ∀ run, run <:+ acks → (∀ x ∈ run, x.Short) → run.length ≤ most

/-- at most `most` acknowledgements anywhere are short in a row -/
def Patient (acks : List BlockAck) (most : Nat) : Prop :=
  ∀ run, run <:+: acks → (∀ x ∈ run, x.Short) → run.length ≤ most

section rows

variable {acks : List BlockAck} {most : Nat} {x : BlockAck}

theorem Streak.concat (h : Streak acks most) (x : BlockAck) : Streak (acks ++ [x]) (most + 1) := by
  intro run hrun hshort
  rcases List.suffix_concat_iff.1 hrun with rfl | ⟨init, rfl, hinit⟩
  · exact Nat.zero_le _
  · have hinner := h init hinit fun y hy => hshort y (List.mem_append_left _ hy)
    rw [List.length_append, List.length_singleton]
    omega

/-- a whole block breaks the row -/
theorem streak_whole (acks : List BlockAck) (most : Nat) (hx : ¬x.Short) : Streak (acks ++ [x]) most := by
  intro run hrun hshort
  rcases List.suffix_concat_iff.1 hrun with rfl | ⟨init, rfl, -⟩
  · exact Nat.zero_le _
  · exact absurd (hshort x List.mem_concat_self) hx

theorem patient_none (most : Nat) : Patient [] most := by
  intro run hrun _
  rw [List.infix_nil.1 hrun]
  exact Nat.zero_le _

theorem Patient.streak (h : Patient acks most) : Streak acks most := fun run hrun hshort => h run hrun.isInfix hshort

theorem Patient.concat (h : Patient acks most) (hlast : Streak (acks ++ [x]) most) : Patient (acks ++ [x]) most := by
  intro run hrun hshort
  rcases List.infix_concat_iff.1 hrun with hrun | hrun
  · exact hlast run hrun hshort
  · exact h run hrun hshort

/-- the code with which an acknowledgement is refused; the size granted is looked at first -/
def refusal (x : BlockAck) : AbortCode :=
  if Wire.validBlockSize x.granted then .invalidSequenceNumber else .invalidBlockSize

/-- no more short acknowledgements in a row than are allowed, or a last one that was refused -/
def Halted (acks : List BlockAck) (ending : Ending) : Prop :=
  Patient acks maxBlockRetries ∨
    ∃ before x, acks = before ++ [x] ∧ Patient before maxBlockRetries ∧ ending = .aborted (refusal x)

/-- one short acknowledgement too many is the last one -/
theorem Halted.exhausted {ending : Ending} (h : Halted acks ending) {before run after : List BlockAck}
    (hacks : acks = before ++ run ++ after) (hshort : ∀ x ∈ run, x.Short) :
    run.length ≤ maxBlockRetries + 1 ∧
      (run.length = maxBlockRetries + 1 →
        after = [] ∧ ∃ x, run.getLast? = some x ∧ ending = .aborted (refusal x)) := by
  rcases h with hpatient | ⟨init, x, rfl, hpatient, hending⟩
  · have hle := hpatient run ⟨before, after, hacks.symm⟩ hshort
    exact ⟨by omega, by omega⟩
  · rcases List.eq_nil_or_concat after with rfl | ⟨after, y, rfl⟩
    · have hlast : run <:+ init ++ [x] := ⟨before, by rw [hacks, List.append_nil]⟩
      refine ⟨hpatient.streak.concat x run hlast hshort, fun hlength => ⟨rfl, x, ?_, hending⟩⟩
      rcases List.suffix_concat_iff.1 hlast with rfl | ⟨_, rfl, -⟩
      · cases hlength
      · exact List.getLast?_concat
    · have hinit : init = before ++ run ++ after := by
        rw [List.concat_eq_append, ← List.append_assoc] at hacks
        exact (List.append_inj' hacks rfl).1
      have hle := hpatient run ⟨before, after, hinit.symm⟩ hshort
      exact ⟨by omega, by omega⟩

end rows

/-! ## The accounts of a download -/

/-- the blocks started, by where they begin, the acknowledgements, and the number of segments offered -/
structure Account where
  starts : List Nat
  acks : List BlockAck
  segments : Nat

namespace Account

/-- what one meeting adds -/
def add (x : Account) (start : Option Nat) (ack : Option BlockAck) (segments : Nat) : Account :=
  ⟨x.starts ++ start.toList, x.acks ++ ack.toList, x.segments + segments⟩

theorem add_none (x : Account) : x.add none none 0 = x := by
  simp [add]

end Account

/-- the account of what a transfer has met -/
def account (config : Config) (ms : List Meeting) : Account :=
  { starts := ms.filterMap (Meeting.start? config)
    acks := ms.filterMap Meeting.ack?
    segments := blockSegments (ms.flatMap (Meeting.messages config)) }

theorem account_concat {config : Config} {a : Active} {s : Stimulus} {turn : Turn} (ms : List Meeting)
    (hturn : a.respond config s = turn) :
    account config (ms ++ [⟨a, s⟩]) = (account config ms).add (turn.start? a) (Meeting.ack? ⟨a, s⟩)
      (turn.requests.countP Request.isBlockSegment) := by
  subst hturn
  simp only [account, Account.add, List.filterMap_append, List.flatMap_append, List.flatMap_singleton,
    Meeting.messages, blockSegments_append, Account.mk.injEq, and_true]
  constructor <;> simp only [Meeting.start?, List.filterMap_cons, List.filterMap_nil] <;> split <;> simp [*]

/-- what a download has cost up to the block `o` -/
structure Progress (x : Account) (o : Output) : Prop where
  begun : x.starts.length ≤ 4 * (o.blockStart / 7) + o.attempts + 1
  behind : ∀ start ∈ x.starts, start ≤ o.blockStart
  ascending : x.starts.Pairwise (· ≤ ·)
  attempts : o.attempts ≤ maxBlockRetries
  offered : x.segments + Wire.blockMax ≤ Wire.blockMax * x.starts.length + o.seqno
  streak : Streak x.acks o.attempts
  patient : Patient x.acks maxBlockRetries

/-- what a download of `payload` may cost in all -/
structure Bounded (payload : List UInt8) (x : Account) : Prop where
  begun : x.starts.length ≤ 4 * segmentCount payload.length
  ascending : x.starts.Pairwise (· ≤ ·)
  offered : x.segments ≤ Wire.blockMax * x.starts.length

section accounts

variable {x : Account} {o : Output} {payload : List UInt8}

theorem Progress.bounded (h : Progress x o) (hin : Within payload o.blockStart) (hsize : o.seqno ≤ Wire.blockMax) :
    Bounded payload x := by
  have hbegun := h.begun
  have hattempts : o.attempts ≤ 3 := h.attempts
  have hoffered := h.offered
  have hstart : o.blockStart / 7 < segmentCount payload.length := by
    rw [lt_segmentCount]
    rcases hin with hin | ⟨rfl, hin⟩
    · exact .inl (by omega)
    · exact .inr ⟨rfl, by omega⟩
  exact ⟨by omega, h.ascending, by omega⟩

/-- the block goes on -/
theorem Progress.sent (h : Progress x o) (o' : Output) (hstart : o'.blockStart = o.blockStart)
    (hattempts : o'.attempts = o.attempts) (hseqno : o'.seqno = o.seqno + 1) : Progress (x.add none none 1) o' := by
  have hoffered := h.offered
  rw [Account.add, Option.toList_none, Option.toList_none, List.append_nil, List.append_nil]
  constructor
  case begun => simpa [hstart, hattempts] using h.begun
  case behind => simpa [hstart] using h.behind
  case ascending => exact h.ascending
  case attempts => simpa [hattempts] using h.attempts
  case offered => simp only [hseqno]; omega
  case streak => simpa [hattempts] using h.streak
  case patient => exact h.patient

/-- the next block: every one begins at least a segment further on, or counts as another attempt -/
theorem Progress.next (h : Progress x o) (o' : Output) (hsize : o.seqno ≤ Wire.blockMax)
    (hstart : o.blockStart ≤ o'.blockStart)
    (hadvance : 4 * (o.blockStart / 7) + o.attempts + 1 ≤ 4 * (o'.blockStart / 7) + o'.attempts)
    (hattempts : o'.attempts ≤ maxBlockRetries) (hseqno : o'.seqno = 0) {ack : BlockAck}
    (hstreak : Streak (x.acks ++ [ack]) o'.attempts) :
    Progress (x.add (some o'.blockStart) (some ack) 0) o' := by
  have hbegun := h.begun
  have hoffered := h.offered
  constructor
  case begun =>
    simp only [Account.add, Option.toList_some, List.length_append, List.length_singleton]
    omega
  case behind =>
    intro start hs
    rcases List.mem_append.1 hs with hs | hs
    · exact (h.behind start hs).trans hstart
    · exact (List.mem_singleton.1 hs).le
  case ascending =>
    refine List.pairwise_append.2 ⟨h.ascending, List.pairwise_singleton _ _, ?_⟩
    intro start hs last hl
    rw [List.mem_singleton.1 hl]
    exact (h.behind start hs).trans hstart
  case attempts => exact hattempts
  case offered =>
    simp only [Account.add, Option.toList_some, List.length_append, List.length_singleton, hseqno, Nat.mul_add,
      Nat.mul_one]
    omega
  case streak => exact hstreak
  case patient =>
    refine h.patient.concat fun run hrun hshort => ?_
    exact (hstreak run hrun hshort).trans hattempts

/-- the first block -/
theorem progress_first (blksize : Nat) (crc : Bool) :
    Progress (Account.add ⟨[], [], 0⟩ (some 0) none 0) { blksize, crc } := by
  constructor
  case begun => simp [Account.add]
  case behind => simp [Account.add]
  case ascending => exact List.pairwise_singleton _ _
  case attempts => exact Nat.zero_le _
  case offered => simp [Account.add]
  case streak => exact (patient_none _).streak
  case patient => exact patient_none _

theorem Bounded.acknowledged (h : Bounded payload x) (ack : Option BlockAck) : Bounded payload (x.add none ack 0) := by
  simpa [Account.add] using ⟨h.begun, h.ascending, h.offered⟩

end accounts

/-! ## Runs -/

/-- what a block download keeps, by its phase -/
def Economical (config : Config) (id : ObjectId) (payload : List UInt8) (ms : List Meeting) (fate : Fate) : Prop :=
  Sound config id payload (ms.flatMap (Meeting.messages config)) fate ∧
    match fate with
    | .goesOn (.writing w) =>
      match w.phase with
      | .blockOpening => account config ms = ⟨[], [], 0⟩
      | .block o => Progress (account config ms) o
      | _ => Bounded payload (account config ms) ∧ Patient (account config ms).acks maxBlockRetries
    | .goesOn (.reading _) => False
    | .ends ending => Bounded payload (account config ms) ∧ Halted (account config ms).acks ending

section runs

variable {config : Config} {id : ObjectId} {payload : List UInt8} {ms : List Meeting} {w : Writing}

theorem bounded_none (payload : List UInt8) : Bounded payload ⟨[], [], 0⟩ :=
  ⟨Nat.zero_le _, List.Pairwise.nil, Nat.zero_le _⟩

/-- a block that is under way: where it stands in the payload, and what it has cost -/
theorem Economical.block (h : Economical config id payload ms (.goesOn (.writing w))) {o : Output}
    (hphase : w.phase = .block o) :
    w.size = payload.length ∧ Progress (account config ms) o ∧
      ∃ closed current, Sending config id payload (ms.flatMap (Meeting.messages config)) w.offset o closed current := by
  obtain ⟨⟨-, hpayload, hsized, hs⟩, hcost⟩ := h
  rw [hphase] at hs
  simp only [hphase] at hcost
  exact ⟨hpayload ▸ hsized, hcost, hs⟩

theorem Sending.seqno_le {messages : List Message} {position : Nat} {o : Output} {closed : List SentBlock}
    {current : SentBlock} (h : Sending config id payload messages position o closed current) :
    o.seqno ≤ Wire.blockMax := h.seqno.trans h.valid

theorem Economical.blockwise (h : Economical config id payload ms (.goesOn (.writing w))) : Blockwise w := by
  obtain ⟨⟨-, -, -, hs⟩, -⟩ := h
  unfold Blockwise
  split at hs <;> rename_i hphase
  · exact .inl hphase
  · exact .inr (.inl ⟨_, hphase⟩)
  · exact .inr (.inr hphase)
  · exact hs.elim

/-- in every phase the bounds hold -/
theorem Economical.bounded (h : Economical config id payload ms (.goesOn (.writing w))) :
    Bounded payload (account config ms) ∧ Patient (account config ms).acks maxBlockRetries := by
  rcases h.blockwise with hphase | ⟨o, hphase⟩ | hphase
  · have hcost := h.2
    simp only [hphase] at hcost
    rw [hcost]
    exact ⟨bounded_none payload, patient_none _⟩
  · obtain ⟨-, hcost, _, _, hs⟩ := h.block hphase
    exact ⟨hcost.bounded hs.start hs.seqno_le, hcost.patient⟩
  · have hcost := h.2
    simp only [hphase] at hcost
    exact hcost

theorem Sending.advanced {messages : List Message} {o : Output} {closed : List SentBlock} {current : SentBlock}
    (h : Sending config id payload messages w.offset o closed current) (hsize : w.size = payload.length)
    (hawaits : o.awaitingAck = true) (hmore : w.offset < w.size) :
    o.blockStart + 7 ≤ w.offset := by
  have hpos := h.awaiting hawaits
  have hreached := h.reached
  rw [hsize] at hmore
  omega

/-- **Step lemma.** Every turn of a block download keeps the bounds. -/
theorem Economical.respond {a : Active} (h : Economical config id payload ms (.goesOn a)) (s : Stimulus) :
    Economical config id payload (ms ++ [⟨a, s⟩]) (a.respond config s).fate := by
  cases a with
  | reading r => exact h.2.elim
  | writing w =>
    have hsound : Sound config id payload ((ms ++ [(⟨.writing w, s⟩ : Meeting)]).flatMap (Meeting.messages config))
        ((Active.writing w).respond config s).fate := by
      rw [List.flatMap_append, List.flatMap_singleton]
      exact h.1.respond s
    refine ⟨hsound, ?_⟩
    obtain ⟨hbounded, hpatient⟩ := h.bounded
    have hstep := step_respond config h.blockwise s
    generalize hturn : (Active.writing w).respond config s = turn at hstep
    rw [account_concat ms hturn]
    cases hstep with
    | rests =>
      have hstart : (⟨[], .goesOn (.writing w)⟩ : Turn).start? (.writing w) = none := by
        cases hsending : w.sending? <;> simp [Turn.start?, Active.paces, hsending]
      have hsame := Account.add_none (account config ms)
      rw [hstart]
      exact hsame.symm ▸ h.2
    | @sends o phase ready =>
      obtain ⟨-, hcost, -⟩ := h.block phase
      have hstart : (⟨[(w.tick o).2], .goesOn (.writing (w.tick o).1)⟩ : Turn).start? (.writing w) = none := by
        simp [Turn.start?, paces_block phase, ready]
      rw [hstart]
      exact hcost.sent { o with seqno := o.seqno + 1, awaitingAck := _ } rfl rfl rfl
    | @opened data blksize crc phase =>
      have hnone := h.2
      simp only [phase] at hnone
      have hidle : (Active.writing w).paces = false := by simp [Active.paces, Writing.sending?, phase]
      have hack : Meeting.ack? ⟨.writing w, .frame data⟩ = none := by simp [Meeting.ack?, phase]
      rw [hack, hnone]
      simp only [Turn.start?, hidle]
      exact progress_first blksize crc
    | @resends data o ackseq blksize phase awaits read short again start back =>
      obtain ⟨hsize, hcost, _, _, hs⟩ := h.block phase
      have hin := within_le hs.start
      have hahead : o.blockStart ≤ start := by
        rw [back, hsize]
        omega
      have hslow : 4 * (o.blockStart / 7) + o.attempts + 1 ≤ 4 * (start / 7) + (o.attempts + 1) := by omega
      rw [ack?_awaiting phase awaits read]
      simp only [Turn.start?, paces_block phase, awaits]
      exact hcost.next { blksize := blksize.toNat, blockStart := start, attempts := o.attempts + 1, crc := o.crc }
        hs.seqno_le hahead hslow again rfl (hcost.streak.concat _)
    | @advances data o ackseq blksize phase awaits read whole more =>
      obtain ⟨hsize, hcost, _, _, hs⟩ := h.block phase
      have hahead := hs.advanced hsize awaits more
      have hattempts : o.attempts ≤ 3 := hcost.attempts
      have hfar : 4 * (o.blockStart / 7) + o.attempts + 1 ≤ 4 * (w.offset / 7) + 0 := by omega
      have hback : o.blockStart ≤ w.offset := by omega
      rw [ack?_awaiting phase awaits read]
      simp only [Turn.start?, paces_block phase, awaits]
      exact hcost.next { blksize := blksize.toNat, blockStart := w.offset, attempts := 0, crc := o.crc }
        hs.seqno_le hback hfar (Nat.zero_le _) rfl (streak_whole _ _ (Nat.not_lt.2 whole.ge))
    | @concludes data o ackseq blksize unused crc phase awaits read whole done =>
      have hstart : (⟨[.blockDownloadEnd unused crc], .goesOn (.writing { w with phase := .blockEnd })⟩ : Turn).start?
          (.writing w) = none := by simp [Turn.start?, Writing.sending?]
      rw [ack?_awaiting phase awaits read, hstart]
      exact ⟨hbounded.acknowledged _, hpatient.concat (streak_whole _ _ (Nat.not_lt.2 whole.ge))⟩
    | @refused data o ackseq blksize code phase awaits read reason =>
      rw [ack?_awaiting phase awaits read]
      exact ⟨hbounded.acknowledged _, .inr ⟨_, _, rfl, hpatient, congrArg Ending.aborted reason⟩⟩
    | @ends _ requests ending unacknowledged closing =>
      have hsame := Account.add_none (account config ms)
      rw [unacknowledged, closing]
      exact hsame.symm ▸ ⟨hbounded, .inl hpatient⟩

/-- what holds at any time: the bounds, and that one short acknowledgement too many ends the download -/
theorem Economical.settled {fate : Fate} (h : Economical config id payload ms fate) :
    Bounded payload (account config ms) ∧
      ∀ before run after, (account config ms).acks = before ++ run ++ after → (∀ x ∈ run, x.Short) →
        run.length ≤ maxBlockRetries + 1 ∧
          (run.length = maxBlockRetries + 1 →
            after = [] ∧ ∃ x, run.getLast? = some x ∧ fate = .ends (.aborted (refusal x))) := by
  rcases fate with (r | w) | ending
  · exact h.2.elim
  · obtain ⟨hbounded, hpatient⟩ := h.bounded
    refine ⟨hbounded, fun before run after hacks hshort => ?_⟩
    have hle := hpatient run ⟨before, after, hacks.symm⟩ hshort
    exact ⟨by omega, by omega⟩
  · obtain ⟨-, hbounded, hhalted⟩ := h
    refine ⟨hbounded, fun before run after hacks hshort => ?_⟩
    simpa using hhalted.exhausted hacks hshort

theorem Economical.begin {v : Value} (hid : id.usesBlocks = true) :
    Economical config id payload [] (.goesOn (Transfer.begin config ⟨id, .write v payload⟩).1) := by
  refine ⟨Sound.begin hid, ?_⟩
  simp only [Transfer.begin, hid, if_true]
  rfl

end runs

end BlockDownload

namespace Engine

open BlockDownload

/-- **The retries of a block download are bounded.** Whatever happens while a domain is written: the download starts at
most four blocks for every segment that the payload needs, so it offers at most 127 times as many segments, and no block
starts further back in the payload than the one before. At most three blocks in a row are acknowledged short; one more
is the last, and aborts the download because of its sequence number, unless the size that it grants is invalid too,
which is looked at first. -/
theorem block_retries_bounded (e : Engine) (d : Dictionary) (id : ObjectId) (v : Value) (payload : List UInt8)
    (os : List Occasion) (hid : id.usesBlocks = true)
    (ha : e.active = some (Transfer.begin e.config ⟨id, .write v payload⟩).1) :
    let c := e.course d (Transfer.begin e.config ⟨id, .write v payload⟩).1 os
    let ms := e.meetings d (Transfer.begin e.config ⟨id, .write v payload⟩).1 os
    let starts := ms.filterMap (Meeting.start? e.config)
    let needed := segmentCount payload.length
    c.messages = ms.flatMap (Meeting.messages e.config) ∧ said c.messages <+: offers (e.run d os).effects ∧
      starts.length ≤ (maxBlockRetries + 1) * needed ∧
      blockSegments c.messages ≤ Wire.blockMax * ((maxBlockRetries + 1) * needed) ∧ starts.Pairwise (· ≤ ·) ∧
      ∀ before run after, ms.filterMap Meeting.ack? = before ++ run ++ after → (∀ x ∈ run, x.Short) →
        run.length ≤ maxBlockRetries + 1 ∧
          (run.length = maxBlockRetries + 1 →
            after = [] ∧ ∃ x, run.getLast? = some x ∧
              c.fate = .ends (.aborted
                (if Wire.validBlockSize x.granted then .invalidSequenceNumber else .invalidBlockSize))) := by
  intro c ms starts needed
  have hmessages : c.messages = ms.flatMap (Meeting.messages e.config) := messages_meetings e.config rfl ha os
  have hkept : Economical e.config id payload ms c.fate :=
    meetings_invariant (d := d) e.config (Economical e.config id payload) (fun _ _ s h => h.respond s) rfl ha []
      (Economical.begin hid) os
  obtain ⟨hbounded, hrows⟩ := hkept.settled
  have hstarts : starts.length ≤ 4 * needed := hbounded.begun
  have hoffered : blockSegments c.messages ≤ 127 * starts.length := hmessages ▸ hbounded.offered
  have hsegments : blockSegments c.messages ≤ 127 * (4 * needed) := by omega
  exact ⟨hmessages, said_course_isPrefix ha os, hstarts, hsegments, hbounded.ascending, hrows⟩

/-- an engine that writes one octet to the domain -/
def sendingOne : Engine :=
  { node := 5, active := some (Transfer.begin {} ⟨firmwareId, .write (.octets [0xff]) [0xff]⟩).1 }

/-- the server grants one segment, confirms none of it three times, and once more while it grants `granted` segments -/
def unheard (granted : UInt8) : List Occasion :=
  let acknowledge (granted : UInt8) : List Occasion :=
    [⟨1, true, .tick⟩, ⟨2, true, .frame ⟨0x585, [0xa2, 0, granted, 0, 0, 0, 0, 0]⟩⟩]
  ⟨0, true, .frame ⟨0x585, [0xa0, 0x01, 0x20, 0, 1, 0, 0, 0]⟩⟩ ::
    (acknowledge 1 ++ acknowledge 1 ++ acknowledge 1 ++ acknowledge granted)

theorem block_retries_bounded_unheard :
    let opened := (Transfer.begin sendingOne.config ⟨firmwareId, .write (.octets [0xff]) [0xff]⟩).1
    let c := sendingOne.course { bus := 0, node := 5 } opened (unheard 1)
    let ms := sendingOne.meetings { bus := 0, node := 5 } opened (unheard 1)
    firmwareId.usesBlocks = true ∧ (ms.filterMap (Meeting.start? sendingOne.config)) = [0, 0, 0, 0] ∧
      blockSegments c.messages ≤ 127 * (4 * segmentCount 1) ∧
      c.fate = .ends (.aborted .invalidSequenceNumber) := by
  intro opened c ms
  obtain ⟨-, -, -, hsegments, -, hrows⟩ := block_retries_bounded sendingOne { bus := 0, node := 5 } firmwareId
    (.octets [0xff]) [0xff] (unheard 1) rfl rfl
  have hacks : ms.filterMap Meeting.ack? = [] ++ List.replicate 4 ⟨1, 0, 1⟩ ++ [] := by decide +kernel
  obtain ⟨-, hexhausted⟩ := hrows [] (List.replicate 4 ⟨1, 0, 1⟩) [] hacks (by decide)
  obtain ⟨-, x, hx, hfate⟩ := hexhausted rfl
  obtain rfl : (⟨1, 0, 1⟩ : BlockAck) = x := Option.some.inj hx
  exact ⟨rfl, by decide +kernel, hsegments, hfate⟩

/-- four short acknowledgements in a row need not end the download because of the sequence number: the last of them may
grant an invalid size -/
theorem fourth_short_other_code :
    ¬∀ (e : Engine) (d : Dictionary) (id : ObjectId) (v : Value) (payload : List UInt8) (os : List Occasion),
      id.usesBlocks = true → e.active = some (Transfer.begin e.config ⟨id, .write v payload⟩).1 →
      ∀ run, run <:+: (e.meetings d (Transfer.begin e.config ⟨id, .write v payload⟩).1 os).filterMap Meeting.ack? →
        (∀ x ∈ run, x.Short) → run.length = maxBlockRetries + 1 →
        (e.course d (Transfer.begin e.config ⟨id, .write v payload⟩).1 os).fate =
          .ends (.aborted .invalidSequenceNumber) := by
  intro hclaimed
  let run : List BlockAck := List.replicate 3 ⟨1, 0, 1⟩ ++ [⟨1, 0, 0⟩]
  have hacks : (sendingOne.meetings { bus := 0, node := 5 }
      (Transfer.begin sendingOne.config ⟨firmwareId, .write (.octets [0xff]) [0xff]⟩).1 (unheard 0)).filterMap
        Meeting.ack? = run := by decide +kernel
  have hfate : (sendingOne.course { bus := 0, node := 5 }
      (Transfer.begin sendingOne.config ⟨firmwareId, .write (.octets [0xff]) [0xff]⟩).1 (unheard 0)).fate =
        .ends (.aborted .invalidBlockSize) := by decide +kernel
  have hclaim := hclaimed sendingOne { bus := 0, node := 5 } firmwareId (.octets [0xff]) [0xff] (unheard 0) rfl rfl run
    (hacks ▸ List.infix_rfl) (by decide) rfl
  rw [hfate] at hclaim
  exact absurd hclaim (by decide)

end Engine

end SdoClient
