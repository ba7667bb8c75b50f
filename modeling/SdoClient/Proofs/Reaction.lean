/-
What a frame makes of the transfer in progress, without the reports on the way. A block upload that streams takes every
frame of eight octets but an abort as a segment; otherwise a frame is read as a response, and an abort of the server
ends any transfer.

Main statements:
- `reactTo_answered`, `reactTo_segment`: the two ways in which a frame of eight octets is read;
- `Reading.answered_answer`, `Writing.answered_answer`: what a response can do to a transfer, phase by phase;
- `reactTo_lawful`: what a frame can make of a transfer, whatever its octets.
-/
import Mathlib.Tactic
import SdoClient.Engine

namespace SdoClient

namespace Judgement

@[simp] theorem reaction_plain (r : Reaction) : (plain r).reaction = r := rfl

@[simp] theorem reaction_fault (report : Report) (code : AbortCode) : (fault report code).reaction = .abort code := rfl

end Judgement

/-- a response with another address ends the transfer -/
theorem ObjectId.reaction_checked (id : ObjectId) (mux : Mux) (j : Judgement) :
    (id.checked mux j).reaction = if mux = id.mux then j.reaction else .abort .commandNotValid := by
  unfold checked
  split <;> rfl

/-! ## Frames as responses and as segments -/

namespace Active

variable {config : Config} {a : Active} {data : List UInt8}

/-- what a response makes of a transfer -/
def answer (config : Config) (a : Active) (response : Response) : Judgement :=
  match a with
  | reading r => r.answer config response
  | writing w => w.answer config response

/-- what a frame makes of a transfer when it is read as a response -/
def answered (config : Config) (a : Active) (data : List UInt8) : Reaction :=
  match Response.parse data with
  | .error _ => .abort .commandNotValid
  | .ok (.abort _ code) => .abandon code
  | .ok response => (a.answer config response).reaction

/-- what a frame of any length makes of a transfer -/
def reactTo (config : Config) (a : Active) (data : List UInt8) : Reaction :=
  if data.length ≠ Wire.size then .abort .generalError else (Engine.judge config a data).reaction

/-- the block that streams, if the transfer is a block upload -/
def streaming? : Active → Option (Reading × Intake)
  | reading r =>
    match r.phase with
    | .block intake => some (r, intake)
    | _ => none
  | writing _ => none

theorem streaming?_reading {r : Reading} {i : Intake} (h : a.streaming? = some (r, i)) :
    a = .reading r ∧ r.phase = .block i := by
  unfold streaming? at h
  split at h
  · split at h
    · rename_i hp
      cases h
      exact ⟨rfl, hp⟩
    · cases h
  · cases h

theorem reactTo_length (hl : data.length ≠ Wire.size) : a.reactTo config data = .abort .generalError := by
  simp [reactTo, hl]

/-- every frame of eight octets is read as a response, unless a block streams; then an abort alone is -/
theorem reactTo_answered (hl : data.length = Wire.size) (hs : a.streaming? = none ∨ isAbortFrame data = true) :
    a.reactTo config data = a.answered config data := by
  simp only [reactTo, hl, ne_eq, not_true_eq_false, if_false]
  unfold Engine.judge answered
  cases a with
  | writing w =>
    cases Response.parse data with
    | error fault => rfl
    | ok response => cases response <;> rfl
  | reading r =>
    simp only
    split
    · rename_i i hp
      have ha : isAbortFrame data = true := hs.resolve_left (by simp [streaming?, hp])
      rw [if_pos ha]
      cases Response.parse data with
      | error fault => rfl
      | ok response => cases response <;> rfl
    · cases Response.parse data with
      | error fault => rfl
      | ok response => cases response <;> rfl

theorem answered_response {response : Response} (hread : Response.parse data = .ok response)
    (habort : ∀ mux code, response ≠ .abort mux code) :
    a.answered config data = (a.answer config response).reaction := by
  unfold answered
  rw [hread]
  cases response with
  | abort mux code => exact absurd rfl (habort mux code)
  | _ => rfl

/-- octets read as a response either end the transfer at once or reach the rules of reads and writes -/
theorem answered_cases (config : Config) (a : Active) (data : List UInt8) :
    a.answered config data = .abort .commandNotValid ∨
      (∃ mux code, Response.parse data = .ok (.abort mux code) ∧ a.answered config data = .abandon code) ∨
      ∃ response, Response.parse data = .ok response ∧
        a.answered config data = (a.answer config response).reaction := by
  cases hread : Response.parse data with
  | error fault => exact .inl (by rw [answered, hread])
  | ok response =>
    by_cases habort : ∃ mux code, response = .abort mux code
    · obtain ⟨mux, code, rfl⟩ := habort
      exact .inr (.inl ⟨mux, code, rfl, by rw [answered, hread]⟩)
    · have habort : ∀ mux code, response ≠ .abort mux code := fun mux code h => habort ⟨mux, code, h⟩
      exact .inr (.inr ⟨response, rfl, answered_response hread habort⟩)

/-- a response other than an abort, where no block streams -/
theorem reactTo_response {response : Response} (hread : Response.parse data = .ok response)
    (habort : ∀ mux code, response ≠ .abort mux code) (hs : a.streaming? = none) :
    a.reactTo config data = (a.answer config response).reaction := by
  rw [reactTo_answered (Response.length_of_parse hread) (.inl hs), answered_response hread habort]

/-- while a block streams, every other frame of eight octets is a segment -/
theorem reactTo_segment {r : Reading} {i : Intake} {s : Segment} (hp : r.phase = .block i)
    (ha : isAbortFrame data = false) (hs : Segment.parse data = .ok s) :
    (Active.reading r).reactTo config data = (r.segment config i s).reaction := by
  have hl : data.length = Wire.size := Segment.length_of_parse hs
  simp [reactTo, hl, Engine.judge, hp, ha, hs]

end Active

/-- eight octets can always be read as a segment -/
theorem Segment.parse_isOk {data : List UInt8} (hl : data.length = Wire.size) : ∃ s, parse data = .ok s := by
  match data, hl with
  | [_, _, _, _, _, _, _, _], _ => exact ⟨_, rfl⟩

/-- a code that the client raises on its own -/
abbrev AbortCode.Own : Type := { code : AbortCode // code.isProtocolError = true }

/-- a frame ends the transfer at once, or it is a response or a segment for the rules of reads and writes -/
theorem Active.reactTo_cases (config : Config) (a : Active) (data : List UInt8) :
    (∃ code : AbortCode.Own, a.reactTo config data = .abort code.1) ∨
      (∃ mux code, Response.parse data = .ok (.abort mux code) ∧ a.reactTo config data = .abandon code) ∨
      (∃ response, Response.parse data = .ok response ∧
        a.reactTo config data = (a.answer config response).reaction) ∨
      ∃ r i s, a = .reading r ∧ r.phase = .block i ∧ Segment.parse data = .ok s ∧
        a.reactTo config data = (r.segment config i s).reaction := by
  by_cases hl : data.length = Wire.size
  · by_cases hs : a.streaming? = none ∨ isAbortFrame data = true
    · rw [reactTo_answered hl hs]
      rcases a.answered_cases config data with h | h | h
      · exact .inl ⟨⟨_, rfl⟩, h⟩
      · exact .inr (.inl h)
      · exact .inr (.inr (.inl h))
    · obtain ⟨hstreams, hab⟩ := not_or.1 hs
      obtain ⟨⟨r, i⟩, hstreaming⟩ := Option.ne_none_iff_exists'.1 hstreams
      obtain ⟨rfl, hp⟩ := streaming?_reading hstreaming
      obtain ⟨s, hread⟩ := Segment.parse_isOk hl
      exact .inr (.inr (.inr ⟨r, i, s, rfl, hp, hread, reactTo_segment hp (by simpa using hab) hread⟩))
  · exact .inl ⟨⟨_, rfl⟩, reactTo_length hl⟩

/-! ## Reads -/

namespace Reading

variable (r : Reading) (config : Config)

/-- the octets received suffice for the declared type -/
def Suffices (id : ObjectId) (data : List UInt8) : Prop :=
  ∀ needed, id.type.byteLength? = some needed → needed ≤ data.length

instance (id : ObjectId) (data : List UInt8) : Decidable (Suffices id data) :=
  match h : id.type.byteLength? with
  | none => .isTrue fun _ hn => by simp [h] at hn
  | some needed => decidable_of_iff (needed ≤ data.length) (by simp [Suffices, h])

theorem reaction_finish (closing : Option Request) :
    (r.finish closing).reaction =
      if Suffices r.target r.data then .finish (Value.decode r.data r.target.type) closing
      else .abort .lengthMismatch := by
  unfold finish
  split
  · rename_i needed hw
    by_cases hl : r.data.length < needed <;> simp [Suffices, hl, hw, Nat.not_le.mpr, Nat.le_of_not_lt]
  · rename_i hw
    simp [Suffices, hw]

theorem reaction_opened (expedited sizeIndicated : Bool) (unused : Nat) (field : Vector UInt8 4) :
    (r.opened expedited sizeIndicated unused field).reaction =
      if expedited then
        (finish { r with
          data := field.toList.take (if sizeIndicated then Wire.expeditedMax - unused else Wire.expeditedMax)
          size := if sizeIndicated then Wire.expeditedMax - unused else Wire.expeditedMax } none).reaction
      else
        .ask (.reading { r with
          size := if sizeIndicated then LittleEndian.decode field.toList else 0
          data := []
          phase := .segment false }) (.uploadSegment false) := by
  cases expedited <;> rfl

theorem reaction_continued (toggle answered : Bool) (len : Nat) (last : Bool) (field : Vector UInt8 7) :
    (r.continued toggle answered len last field).reaction =
      if answered ≠ toggle then .abort .toggleNotAlternated
      else if last then
        if r.size ≠ 0 ∧ (r.data ++ field.toList.take len).length ≠ r.size then .abort .lengthMismatch
        else (finish { r with data := r.data ++ field.toList.take len } none).reaction
      else
        .ask (.reading { r with data := r.data ++ field.toList.take len, phase := .segment (!toggle) })
          (.uploadSegment (!toggle)) := by
  unfold continued
  split
  · rfl
  · cases last
    · rfl
    · simp only [if_true]
      split <;> rfl

theorem reaction_blocksOpened (blksize : Nat) (crc : Bool) (size : Option UInt32) :
    (r.blocksOpened config blksize crc size).reaction =
      .ask (.reading { r with
        size := (size.map UInt32.toNat).getD 0
        data := []
        phase := .block { blksize, crc := config.crc && crc } }) .blockUploadStart := rfl

theorem reaction_segment (i : Intake) (s : Segment) :
    (r.segment config i s).reaction =
      if i.endsWith s then r.acknowledge config (i.take s)
      else .wait (.reading { r with phase := .block (i.take s) }) := by
  unfold segment
  simp only
  cases i.endsWith s <;> rfl

theorem reaction_blocksEnded (checked : Bool) (unused : Nat) (crc : UInt16) :
    (r.blocksEnded checked unused crc).reaction =
      if r.size ≠ 0 ∧ (r.data.take (r.data.length - unused)).length ≠ r.size then .abort .invalidBlockSize
      else if checked && Checksum.crc16 (r.data.take (r.data.length - unused)) ≠ crc then .abort .crcError
      else (finish { r with data := r.data.take (r.data.length - unused) } (some .blockUploadEnd)).reaction := by
  unfold blocksEnded
  simp only
  split
  · rfl
  · split <;> rfl

/-- without the reports, an answer to a read -/
theorem reaction_answer (response : Response) :
    (r.answer config response).reaction =
      match r.phase, response with
      | .opening, .uploadInitiate mux expedited sizeIndicated unused field =>
        if mux = r.target.mux then (r.opened expedited sizeIndicated unused field).reaction
        else .abort .commandNotValid
      | .segment toggle, .uploadSegment answered len last field =>
        (r.continued toggle answered len last field).reaction
      | .blockOpening blksize, .blockUploadInitiate mux crc size =>
        if mux = r.target.mux then (r.blocksOpened config blksize crc size).reaction else .abort .commandNotValid
      | .blockEnd checked, .blockUploadEnd unused crc => (r.blocksEnded checked unused crc).reaction
      | _, _ => .abort .commandNotValid := by
  unfold answer
  generalize r.phase = phase
  cases phase with
  | opening =>
    cases response with
    | uploadInitiate mux expedited sizeIndicated unused field => exact ObjectId.reaction_checked _ _ _
    | _ => rfl
  | blockOpening blksize =>
    cases response with
    | blockUploadInitiate mux crc size => exact ObjectId.reaction_checked _ _ _
    | _ => rfl
  | _ => cases response <;> rfl

/-- what a response can make of a read, by the phase it is in; a read that goes on asks for what it waits for next -/
inductive Answered : Reaction → Prop
  | abort (code : AbortCode.Own) : Answered (.abort code.1)
  | finish (value : Option Value) : Answered (.finish value none)
  /-- the end of a block upload, which the client confirms -/
  | closes {checked : Bool} (phase : r.phase = .blockEnd checked) (value : Option Value) :
      Answered (.finish value (some .blockUploadEnd))
  /-- a size, and the client asks for the first segment -/
  | opened {next : Reading} (phase : r.phase = .opening) (target : next.target = r.target)
      (waits : next.phase = .segment false) : Answered (.ask (.reading next) (.uploadSegment false))
  /-- a segment that is not the last one -/
  | continued {next : Reading} {toggle : Bool} (phase : r.phase = .segment toggle) (target : next.target = r.target)
      (waits : next.phase = .segment (!toggle)) : Answered (.ask (.reading next) (.uploadSegment (!toggle)))
  /-- the beginning of a block upload: no octets yet, and nothing of the first block -/
  | blocksOpened {next : Reading} {announced blksize : Nat} {crc : Bool} (phase : r.phase = .blockOpening announced)
      (target : next.target = r.target) (empty : next.data = []) (waits : next.phase = .block { blksize, crc }) :
      Answered (.ask (.reading next) .blockUploadStart)

variable {r} in
theorem answered_finish (r' : Reading) : r.Answered (r'.finish none).reaction := by
  rw [reaction_finish]
  split
  · exact .finish _
  · exact .abort ⟨_, rfl⟩

/-- **What a response can do to a read.** -/
theorem answered_answer (response : Response) : r.Answered (r.answer config response).reaction := by
  rw [reaction_answer]
  split <;> rename_i hphase
  · split
    · rw [reaction_opened]
      split
      · exact answered_finish _
      · exact .opened hphase rfl rfl
    · exact .abort ⟨_, rfl⟩
  · rw [reaction_continued]
    split
    · exact .abort ⟨_, rfl⟩
    · split
      · split
        · exact .abort ⟨_, rfl⟩
        · exact answered_finish _
      · exact .continued hphase rfl rfl
  · split
    · exact .blocksOpened hphase rfl rfl rfl
    · exact .abort ⟨_, rfl⟩
  · rw [reaction_blocksEnded]
    split
    · exact .abort ⟨_, rfl⟩
    · split
      · exact .abort ⟨_, rfl⟩
      · rw [reaction_finish]
        split
        · exact .closes hphase _
        · exact .abort ⟨_, rfl⟩
  · exact .abort ⟨_, rfl⟩

end Reading

/-! ## Writes -/

namespace Writing

variable (w : Writing) (config : Config)

/-- the request that the next chunk makes -/
def chunkRequest (toggle : Bool) : Request :=
  .downloadSegment toggle (Wire.padded 7 w.chunk.data) (UInt8.ofNat w.chunk.data.length) w.chunk.last

theorem reaction_sendChunk (toggle : Bool) :
    (w.sendChunk toggle).reaction =
      .ask (.writing { w with offset := w.chunk.stop, phase := .segment toggle }) (w.chunkRequest toggle) := rfl

theorem reaction_confirmed (toggle answered : Bool) :
    (w.confirmed toggle answered).reaction =
      if answered ≠ toggle then .abort .toggleNotAlternated
      else if w.size ≤ w.offset then .finish (some w.value) none
      else (w.sendChunk (!toggle)).reaction := by
  unfold confirmed
  split
  · rfl
  · split <;> rfl

theorem reaction_blocksOpened (crc : Bool) (blksize : UInt8) :
    (w.blocksOpened config crc blksize).reaction =
      if Wire.validBlockSize blksize.toNat then
        .pace (.writing { w with phase := .block { blksize := blksize.toNat, crc := config.crc && crc } })
      else .abort .invalidBlockSize := by
  unfold blocksOpened
  split <;> rfl

theorem reaction_acknowledged (o : Output) (ackseq blksize : Nat) :
    (w.acknowledged o ackseq blksize).reaction =
      if Wire.validBlockSize blksize = false then .abort .invalidBlockSize
      else if o.seqno < ackseq then .abort .invalidSequenceNumber
      else if ackseq < o.seqno then
        if maxBlockRetries < o.attempts + 1 then .abort .invalidSequenceNumber
        else
          nextBlock { w with offset := min (o.blockStart + ackseq * Wire.segmentSize) w.size } o blksize
            (o.attempts + 1)
      else if w.size ≤ w.offset then w.blocksDone o
      else w.nextBlock o blksize 0 := by
  unfold acknowledged
  cases Wire.validBlockSize blksize
  · rfl
  · simp only [Bool.not_true, Bool.false_eq_true, if_false]
    split
    · rfl
    · split
      · split <;> rfl
      · split <;> rfl

/-- without the reports, an answer to a write -/
theorem reaction_answer (response : Response) :
    (w.answer config response).reaction =
      match w.phase, response with
      | .opening expedited, .downloadInitiate mux =>
        if mux = w.target.mux then
          if expedited then .finish (some w.value) none else (w.sendChunk false).reaction
        else .abort .commandNotValid
      | .segment toggle, .downloadSegment answered => (w.confirmed toggle answered).reaction
      | .blockOpening, .blockDownloadInitiate mux crc blksize =>
        if mux = w.target.mux then (w.blocksOpened config crc blksize).reaction else .abort .commandNotValid
      | .block o, .blockDownloadAck ackseq blksize =>
        if o.awaitingAck then (w.acknowledged o ackseq.toNat blksize.toNat).reaction else .abort .commandNotValid
      | .blockEnd, .blockDownloadEnd => .finish (some w.value) none
      | _, _ => .abort .commandNotValid := by
  unfold answer
  generalize w.phase = phase
  cases phase with
  | opening expedited =>
    cases response with
    | downloadInitiate mux =>
      rw [ObjectId.reaction_checked]
      cases expedited <;> rfl
    | _ => rfl
  | segment toggle => cases response <;> rfl
  | blockOpening =>
    cases response with
    | blockDownloadInitiate mux crc blksize => exact ObjectId.reaction_checked _ _ _
    | _ => rfl
  | block o =>
    cases response with
    | blockDownloadAck ackseq blksize =>
      simp only
      split <;> rfl
    | _ => rfl
  | blockEnd => cases response <;> rfl

/-- what a response can make of a write, by the phase it is in. Chunks follow one another as they are confirmed; a block
follows the answer to the initiate request or the acknowledgement of the block before it. -/
inductive Answered (response : Response) : Reaction → Prop
  | abort (code : AbortCode.Own) : Answered response (.abort code.1)
  /-- the payload is confirmed: it went out at once, in chunks up to the last one, or in blocks up to their end -/
  | finish (confirmed : w.phase = .opening true ∨ (∃ toggle, w.phase = .segment toggle ∧ w.size ≤ w.offset) ∨
      w.phase = .blockEnd) : Answered response (.finish (some w.value) none)
  /-- the first chunk -/
  | opened (phase : w.phase = .opening false) (read : response = .downloadInitiate w.target.mux) :
      Answered response (w.sendChunk false).reaction
  /-- the next chunk -/
  | continued {toggle : Bool} (phase : w.phase = .segment toggle) (read : response = .downloadSegment toggle)
      (more : w.offset < w.size) : Answered response (w.sendChunk (!toggle)).reaction
  /-- the first block -/
  | blocksOpened {crc : Bool} {blksize : UInt8} (phase : w.phase = .blockOpening)
      (read : response = .blockDownloadInitiate w.target.mux crc blksize)
      (valid : Wire.validBlockSize blksize.toNat = true) :
      Answered response
        (.pace (.writing { w with phase := .block { blksize := blksize.toNat, crc := config.crc && crc } }))
  /-- the acknowledgement of a part of a block: the next one begins with the first segment left out -/
  | resends {o : Output} {ackseq blksize : UInt8} (phase : w.phase = .block o) (awaits : o.awaitingAck = true)
      (read : response = .blockDownloadAck ackseq blksize) (valid : Wire.validBlockSize blksize.toNat = true)
      (short : ackseq.toNat < o.seqno) :
      Answered response
        (nextBlock { w with offset := min (o.blockStart + ackseq.toNat * Wire.segmentSize) w.size } o blksize.toNat
          (o.attempts + 1))
  /-- the acknowledgement of a whole block with the end of the payload -/
  | concludes {o : Output} {ackseq blksize : UInt8} (phase : w.phase = .block o) (awaits : o.awaitingAck = true)
      (read : response = .blockDownloadAck ackseq blksize) (whole : ackseq.toNat = o.seqno)
      (sent : w.size ≤ w.offset) : Answered response (w.blocksDone o)
  /-- the acknowledgement of a whole block before it -/
  | advances {o : Output} {ackseq blksize : UInt8} (phase : w.phase = .block o) (awaits : o.awaitingAck = true)
      (read : response = .blockDownloadAck ackseq blksize) (valid : Wire.validBlockSize blksize.toNat = true)
      (whole : ackseq.toNat = o.seqno) (more : w.offset < w.size) :
      Answered response (w.nextBlock o blksize.toNat 0)

variable {w config} in
theorem answered_acknowledged {o : Output} {ackseq blksize : UInt8} (phase : w.phase = .block o)
    (awaits : o.awaitingAck = true) :
    w.Answered config (.blockDownloadAck ackseq blksize) (w.acknowledged o ackseq.toNat blksize.toNat).reaction := by
  rw [reaction_acknowledged]
  split
  · exact .abort ⟨_, rfl⟩
  rename_i hvalid
  have hvalid : Wire.validBlockSize blksize.toNat = true := by simpa using hvalid
  split
  · exact .abort ⟨_, rfl⟩
  rename_i hle
  split
  · rename_i hshort
    split
    · exact .abort ⟨_, rfl⟩
    · exact .resends phase awaits rfl hvalid hshort
  · rename_i hall
    have hwhole : ackseq.toNat = o.seqno := Nat.le_antisymm (Nat.not_lt.1 hle) (Nat.not_lt.1 hall)
    split
    · rename_i hsent
      exact .concludes phase awaits rfl hwhole hsent
    · rename_i hmore
      exact .advances phase awaits rfl hvalid hwhole (Nat.not_le.1 hmore)

/-- **What a response can do to a write.** -/
theorem answered_answer (response : Response) : w.Answered config response (w.answer config response).reaction := by
  rw [reaction_answer]
  split <;> rename_i hphase
  · split
    · rename_i expedited _ hmux
      subst hmux
      cases expedited with
      | true => exact .finish (.inl hphase)
      | false => exact .opened hphase rfl
    · exact .abort ⟨_, rfl⟩
  · rw [reaction_confirmed]
    split
    · exact .abort ⟨_, rfl⟩
    · rename_i htoggle
      obtain rfl := not_not.1 htoggle
      split
      · rename_i hsent
        exact .finish (.inr (.inl ⟨_, hphase, hsent⟩))
      · rename_i hmore
        exact .continued hphase rfl (Nat.not_le.1 hmore)
  · split
    · rename_i hmux
      subst hmux
      rw [reaction_blocksOpened]
      split
      · rename_i hvalid
        exact .blocksOpened hphase rfl hvalid
      · exact .abort ⟨_, rfl⟩
    · exact .abort ⟨_, rfl⟩
  · split
    · rename_i hawaits
      exact answered_acknowledged hphase hawaits
    · exact .abort ⟨_, rfl⟩
  · exact .finish (.inr (.inr hphase))
  · exact .abort ⟨_, rfl⟩

/-- a frame ends a write at once, or a response is read in it -/
theorem reactTo_cases (data : List UInt8) :
    (∃ code, (Active.writing w).reactTo config data = .abort code) ∨
      (∃ code, (Active.writing w).reactTo config data = .abandon code) ∨
      ∃ response, Response.parse data = .ok response ∧
        w.Answered config response ((Active.writing w).reactTo config data) := by
  rcases (Active.writing w).reactTo_cases config data with ⟨code, ha⟩ | ⟨mux, code, -, ha⟩ | ⟨response, hread, ha⟩ |
    ⟨r, i, s, hr, -, -, -⟩
  · exact .inl ⟨code, ha⟩
  · exact .inr (.inl ⟨code, ha⟩)
  · exact .inr (.inr ⟨response, hread, ha ▸ w.answered_answer config response⟩)
  · cases hr

end Writing

/-! ## What a frame can make of a transfer -/

/-- the transfer as it stood in the queue -/
def Active.transfer : Active → Transfer
  | reading r => ⟨r.target, .read⟩
  | writing w => ⟨w.target, .write w.value w.payload w.size⟩

theorem Writing.Sized.transfer {w : Writing} (h : w.Sized) :
    (Active.writing w).transfer = ⟨w.target, .write w.value w.payload⟩ := by
  have hsize : w.size = w.payload.length := h
  rw [Active.transfer, hsize]

theorem Active.target_transfer (a : Active) : a.transfer.target = a.target := by
  cases a <;> rfl

theorem Active.direction_transfer (a : Active) : a.transfer.direction = a.direction := by
  cases a <;> rfl

/-- the transfer is a block download with segments to send -/
def Active.paces : Active → Bool
  | reading _ => false
  | writing w => w.sending?.isSome

/-- the octets that a read has in hand when it completes with a response -/
def Reading.assembled (r : Reading) : Response → List UInt8
  | .uploadInitiate _ _ sizeIndicated unused field =>
    field.toList.take (if sizeIndicated then Wire.expeditedMax - unused else Wire.expeditedMax)
  | .uploadSegment _ len _ field => r.data ++ field.toList.take len
  | .blockUploadEnd unused _ => r.data.take (r.data.length - unused)
  | _ => r.data

/-- what a transfer that completes with a response stores: a write its value, a read what its octets say -/
def Active.result (a : Active) (response : Response) : Option Value :=
  match a with
  | reading r => Value.decode (r.assembled response) r.target.type
  | writing w => some w.value

/-- what the frame `data` can make of the transfer `a`. A transfer that goes on is still the transfer that was asked
for, and it needs the pacing timer as before unless its segments are due now; one that completes does so with a
response; one that the client aborts gets one of the client's own codes, and one that is given up was aborted by the
server. -/
inductive Reaction.Lawful (a : Active) (data : List UInt8) : Reaction → Prop
  | wait {next : Active} (kept : next.transfer = a.transfer) (paces : next.paces = a.paces) : Lawful a data (.wait next)
  | ask {next : Active} {request : Request} (kept : next.transfer = a.transfer) (paces : next.paces = a.paces) :
      Lawful a data (.ask next request)
  | pace {next : Active} (kept : next.transfer = a.transfer) (paces : next.paces = true) : Lawful a data (.pace next)
  | finish {response : Response} {value : Option Value} {closing : Option Request}
      (read : Response.parse data = .ok response) (result : value = a.result response) :
      Lawful a data (.finish value closing)
  | abort {code : AbortCode} (own : code.isProtocolError = true) : Lawful a data (.abort code)
  | abandon {mux : Mux} {code : AbortCode} (read : Response.parse data = .ok (.abort mux code)) :
      Lawful a data (.abandon code)

theorem Reaction.lawful_ite {a : Active} {data : List UInt8} {c : Prop} [Decidable c] {x y : Reaction}
    (hx : x.Lawful a data) (hy : y.Lawful a data) : (if c then x else y).Lawful a data := by
  split
  · exact hx
  · exact hy

section lawful

open Reaction (lawful_ite)

variable {config : Config} {data : List UInt8} {response : Response}

theorem Reading.lawful_finish {r r' : Reading} {closing : Option Request} (hread : Response.parse data = .ok response)
    (hresult : Value.decode r'.data r'.target.type = (Active.reading r).result response) :
    (r'.finish closing).reaction.Lawful (.reading r) data := by
  rw [reaction_finish]
  exact lawful_ite (.finish hread hresult) (.abort rfl)

theorem Reading.lawful_answer (r : Reading) (hread : Response.parse data = .ok response) :
    (r.answer config response).reaction.Lawful (.reading r) data := by
  rw [reaction_answer]
  split
  · rw [reaction_opened]
    exact lawful_ite (lawful_ite (lawful_finish hread rfl) (.ask rfl rfl)) (.abort rfl)
  · rw [reaction_continued]
    refine lawful_ite (.abort rfl) (lawful_ite ?_ (.ask rfl rfl))
    exact lawful_ite (.abort rfl) (lawful_finish hread rfl)
  · exact lawful_ite (.ask rfl rfl) (.abort rfl)
  · rw [reaction_blocksEnded]
    exact lawful_ite (.abort rfl) (lawful_ite (.abort rfl) (lawful_finish hread rfl))
  · exact .abort rfl

theorem Reading.lawful_segment (r : Reading) (i : Intake) (s : Segment) :
    (r.segment config i s).reaction.Lawful (.reading r) data := by
  rw [reaction_segment]
  refine lawful_ite (.ask ?_ rfl) (.wait rfl rfl)
  cases (i.take s).gap <;> rfl

/-- the server is heard either while the client waits for it, or to start the segments of a block -/
theorem Writing.lawful_answer (w : Writing) (hread : Response.parse data = .ok response) :
    (w.answer config response).reaction.Lawful (.writing w) data := by
  have hquiet : ∀ w' : Writing, w'.sending? = none → w.sending? = none →
      (Active.writing w').paces = (Active.writing w).paces := by
    intro w' h' h
    simp only [Active.paces, h', h]
  rw [reaction_answer]
  split
  · rename_i hp
    have hidle : w.sending? = none := by simp [sending?, hp]
    exact lawful_ite (lawful_ite (.finish hread rfl) (.ask rfl (hquiet _ rfl hidle))) (.abort rfl)
  · rename_i hp
    have hidle : w.sending? = none := by simp [sending?, hp]
    rw [reaction_confirmed]
    exact lawful_ite (.abort rfl) (lawful_ite (.finish hread rfl) (.ask rfl (hquiet _ rfl hidle)))
  · rw [reaction_blocksOpened]
    exact lawful_ite (lawful_ite (.pace rfl rfl) (.abort rfl)) (.abort rfl)
  · rename_i o ackseq blksize hp
    split
    · rename_i hwait
      have hidle : w.sending? = none := by simp [sending?, hp, hwait]
      rw [reaction_acknowledged]
      refine lawful_ite (.abort rfl) (lawful_ite (.abort rfl) (lawful_ite ?_ ?_))
      · exact lawful_ite (.abort rfl) (.pace rfl rfl)
      · exact lawful_ite (.ask rfl (hquiet _ rfl hidle)) (.pace rfl rfl)
    · exact .abort rfl
  · exact .finish hread rfl
  · exact .abort rfl

/-- **What a frame can do.** Whatever the octets, the transfer follows the rules. -/
theorem Active.reactTo_lawful (config : Config) (a : Active) (data : List UInt8) :
    (a.reactTo config data).Lawful a data := by
  rcases a.reactTo_cases config data with ⟨code, h⟩ | ⟨mux, code, hread, h⟩ | ⟨response, hread, h⟩ |
    ⟨r, i, s, rfl, -, -, h⟩ <;> rw [h]
  · exact .abort code.2
  · exact .abandon hread
  · cases a with
    | reading r => exact r.lawful_answer hread
    | writing w => exact w.lawful_answer hread
  · exact r.lawful_segment i s

end lawful

end SdoClient
