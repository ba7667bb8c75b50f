/-
The rules of reads and writes once more, with the operations of a machine in place of exact arithmetic. A rule that
needs no such operation is taken over as it is.

What keeps the operations in their ranges is not visible in a single rule: a segment number has room for the next one
because received numbers are masked and because a granted block size is checked before a block is sent, an offset stays
within the payload, and so does the start of a block. `InRange` says this of a transfer in progress.

Main statements: `answerRead_gives`, `segment_gives`, `answerWrite_gives`, `tick_eq`. Of a transfer in range the rules
give what they give without checks, and leave it in range.
-/
import Mathlib.Tactic
import SdoClient.Proofs.Chunks
import SdoClient.Proofs.Machine
import SdoClient.Proofs.Turn

namespace SdoClient

/-! ## Ranges -/

/-- octets that memory can hold: a collection takes up less than half of the addresses -/
def Platform.Holds [Platform] (data : List UInt8) : Prop := 2 * data.length < Platform.word

/-- the counts that a response carries lie within its field -/
def Response.InRange : Response → Prop
  | .uploadInitiate _ _ _ unused _ => unused ≤ Wire.expeditedMax
  | .uploadSegment _ len _ _ => len ≤ Wire.segmentSize
  | _ => True

theorem Response.inRange_of_parse {data : List UInt8} {response : Response} (h : parse data = .ok response) :
    response.InRange := by
  unfold parse at h
  split at h
  · dsimp only at h
    split at h
    · cases h
      simp only [InRange, Wire.segmentSize]
      omega
    · cases h
      trivial
    · cases h
      simp only [InRange, Wire.expeditedMax]
      omega
    · cases h
      trivial
    · cases h
      trivial
    · split at h <;> cases h <;> trivial
    · split at h <;> cases h <;> trivial
    · cases h
  · cases h

/-- a read whose counters have room -/
structure Reading.InRange (r : Reading) : Prop where
  size : r.size < 2 ^ 32
  seqno : ∀ i, r.phase = .block i → i.seqno ≤ Wire.blockMax

/-- a block of a write of `size` octets whose counters have room -/
structure Output.InRange (size : Nat) (o : Output) : Prop where
  attempts : o.attempts ≤ maxBlockRetries
  blockStart : o.blockStart ≤ size
  granted : o.blksize ≤ Wire.blockMax
  room : o.awaitingAck = false → o.seqno < o.blksize

section platform

variable [Platform]

/-- a write whose counters have room -/
structure Writing.InRange (w : Writing) : Prop where
  memory : Platform.Holds w.payload
  sized : w.Sized
  offset : w.offset ≤ w.payload.length
  block : ∀ o, w.phase = .block o → o.InRange w.payload.length

/-- a transfer in progress whose counters have room -/
def Active.InRange : Active → Prop
  | .reading r => r.InRange
  | .writing w => w.InRange

/-- what a reaction leaves in progress is in range -/
def Reaction.InRange : Reaction → Prop
  | .wait next | .ask next _ | .pace next => next.InRange
  | .finish _ _ | .abort _ | .abandon _ => True

/-- the octets of a waiting write fit into memory, and the size kept beside them is their number -/
def Transfer.InRange (t : Transfer) : Prop :=
  match t.job with
  | .read => True
  | .write _ payload size => Platform.Holds payload ∧ size = payload.length

theorem Transfer.InRange.sized {t : Transfer} (h : t.InRange) : t.Sized := by
  unfold Transfer.Sized
  split
  · trivial
  · rename_i hjob
    simp only [Transfer.InRange, hjob] at h
    exact h.2

end platform

namespace Checked

open Machine

/-- a checked rule gives this judgement, and leaves a transfer in range -/
structure Gives [Platform] (checked : Option Judgement) (j : Judgement) : Prop where
  result : checked = some j
  kept : j.reaction.InRange

theorem gives_fault [Platform] (report : Report) (code : AbortCode) :
    Gives (some (.fault report code)) (.fault report code) := ⟨rfl, trivial⟩

/-! ## Reads -/

section reads

variable {r : Reading} {config : Config}

/-- ends a read with the data received, if they are enough for the declared type -/
def finishRead (r : Reading) (closing : Option Request) : Option Judgement :=
  match r.target.type.byteLength? with
  | some needed =>
    if r.data.length < needed then some (.fault (.tooShort r.target r.data.length needed) .lengthMismatch)
    else (decode r.data r.target.type).map fun v => .plain (.finish v closing)
  | none => (decode r.data r.target.type).map fun v => .plain (.finish v closing)

/-- the answer to the initiate request: the data themselves, or their size -/
def opened (r : Reading) (expedited sizeIndicated : Bool) (unused : Nat) (field : Vector UInt8 4) :
    Option Judgement :=
  if expedited then do
    let len ← (if sizeIndicated then sub Wire.expeditedMax unused else some Wire.expeditedMax)
    let data ← slice field.toList 0 len
    finishRead { r with data, size := len } none
  else some (r.opened expedited sizeIndicated unused field)

/-- a segment that answers the request with the toggle bit `toggle` -/
def continued (r : Reading) (toggle answered : Bool) (len : Nat) (last : Bool) (field : Vector UInt8 7) :
    Option Judgement :=
  if answered ≠ toggle then some (.plain (.abort .toggleNotAlternated))
  else do
    let part ← slice field.toList 0 len
    let r := { r with data := r.data ++ part }
    if last then
      if r.size ≠ 0 ∧ r.data.length ≠ r.size then
        some (.fault (.sizeDiffers r.target r.data.length r.size) .lengthMismatch)
      else finishRead r none
    else some (.plain (.ask (.reading { r with phase := .segment (!toggle) }) (.uploadSegment (!toggle))))

/-- takes in a segment: the next in order is kept, another one leaves a gap, and after a gap nothing counts -/
def take (i : Intake) (s : Segment) : Option Intake :=
  if i.gap then some i
  else do
    let next ← add octetRange i.seqno 1
    if s.seqno = next then
      some { i with seqno := s.seqno, block := i.block ++ s.data.toList, lastReceived := s.last }
    else some { i with gap := true }

/-- the frame that ends a block upload -/
def blocksEnded (r : Reading) (checked : Bool) (unused : Nat) (crc : UInt16) : Option Judgement :=
  let r := { r with data := r.data.take (r.data.length - unused) }
  if r.size ≠ 0 ∧ r.data.length ≠ r.size then
    some (.fault (.blockSizeDiffers r.target r.data.length r.size) .invalidBlockSize)
  else if checked && Checksum.crc16 r.data ≠ crc then some (.plain (.abort .crcError))
  else finishRead r (some .blockUploadEnd)

/-- a response of the server to a read -/
def answerRead (r : Reading) (config : Config) (response : Response) : Option Judgement :=
  match r.phase, response with
  | .opening, .uploadInitiate mux expedited sizeIndicated unused field =>
    if mux = r.target.mux then opened r expedited sizeIndicated unused field
    else some (.fault (.misaddressed r.target mux) .commandNotValid)
  | .segment toggle, .uploadSegment answered len last field => continued r toggle answered len last field
  | .blockEnd checked, .blockUploadEnd unused crc => blocksEnded r checked unused crc
  | _, _ => some (r.answer config response)

variable [Platform]

/-- how many segments a block needs for `remaining` octets, at least one and at most `most` -/
def blockSizeFor (remaining : Nat) (most : UInt8) : Option UInt8 := do
  let most ← clamp 1 Wire.blockMax most.toNat
  let whole := remaining / Wire.segmentSize
  let segments ← (if remaining % Wire.segmentSize = 0 then some whole else add Platform.word whole 1)
  octet (← clamp 1 most segments)

/-- the block size to ask for next -/
def nextBlockSize (r : Reading) (config : Config) : Option UInt8 :=
  if r.size = 0 then some config.blockSize else blockSizeFor (r.size - r.data.length) config.blockSize

/-- acknowledges a block that has ended: all its segments, or none if one was missing -/
def acknowledge (r : Reading) (config : Config) (i : Intake) : Option Reaction := do
  let r := if i.gap then r else { r with data := r.data ++ i.block }
  let ackseq ← octet (if i.gap then 0 else i.seqno)
  let blksize ← nextBlockSize r config
  let phase := if !i.gap && i.lastReceived then .blockEnd i.crc else .block { blksize := blksize.toNat, crc := i.crc }
  some (.ask (.reading { r with phase }) (.blockUploadAck ackseq blksize))

/-- a segment of a block upload -/
def segment (r : Reading) (config : Config) (i : Intake) (s : Segment) : Option Judgement := do
  let taken ← take i s
  let reports := if taken.gap && !i.gap then [.segmentGap r.target (i.seqno + 1) s.seqno] else []
  if i.endsWith s then (acknowledge r config taken).map fun reaction => ⟨reports, reaction⟩
  else some ⟨reports, .wait (.reading { r with phase := .block taken })⟩

theorem finishRead_gives (r : Reading) (closing : Option Request) :
    Gives (finishRead r closing) (r.finish closing) := by
  have hkept : (r.finish closing).reaction.InRange := by
    rw [Reading.reaction_finish]
    split <;> trivial
  refine ⟨?_, hkept⟩
  unfold finishRead Reading.finish
  rw [decode_eq]
  cases r.target.type.byteLength? with
  | none => rfl
  | some needed =>
    dsimp only
    split <;> rfl

/-- the inline data of an answer lie within its field -/
theorem opened_gives (r : Reading) (expedited sizeIndicated : Bool) {unused : Nat}
    (hunused : unused ≤ Wire.expeditedMax) (field : Vector UInt8 4) :
    Gives (opened r expedited sizeIndicated unused field) (r.opened expedited sizeIndicated unused field) := by
  cases expedited with
  | true =>
    have hlen : (if sizeIndicated then sub Wire.expeditedMax unused else some Wire.expeditedMax) =
        some (if sizeIndicated then Wire.expeditedMax - unused else Wire.expeditedMax) := by
      cases sizeIndicated
      · rfl
      · exact sub_eq hunused
    have hpart : slice field.toList 0 (if sizeIndicated then Wire.expeditedMax - unused else Wire.expeditedMax) =
        some (field.toList.take (if sizeIndicated then Wire.expeditedMax - unused else Wire.expeditedMax)) := by
      refine slice_zero ?_
      rw [Vector.length_toList]
      simp only [Wire.expeditedMax]
      split <;> omega
    simp only [opened, if_true, hlen, hpart, Option.bind_eq_bind, Option.bind_some, Reading.opened]
    exact finishRead_gives _ _
  | false =>
    refine ⟨rfl, ?_, fun i hi => by cases hi⟩
    cases sizeIndicated with
    | true =>
      have hlt := LittleEndian.decode_lt field.toList
      rwa [Vector.length_toList] at hlt
    | false => exact Nat.two_pow_pos 32

/-- the data of a segment lie within its field -/
theorem continued_gives (h : r.InRange) (toggle answered : Bool) {len : Nat} (hlen : len ≤ Wire.segmentSize)
    (last : Bool) (field : Vector UInt8 7) :
    Gives (continued r toggle answered len last field) (r.continued toggle answered len last field) := by
  have hpart : slice field.toList 0 len = some (field.toList.take len) :=
    slice_zero (by rw [Vector.length_toList]; exact hlen)
  unfold continued Reading.continued
  split
  · exact ⟨rfl, trivial⟩
  · simp only [hpart, Option.bind_eq_bind, Option.bind_some]
    split
    · split
      · exact gives_fault _ _
      · exact finishRead_gives _ _
    · exact ⟨rfl, h.size, fun i hi => by cases hi⟩

omit [Platform] in
/-- the number of a segment in order is one that fits into seven bits, so the next one fits into an octet -/
theorem take_eq {i : Intake} (h : i.seqno ≤ Wire.blockMax) (s : Segment) : take i s = some (i.take s) := by
  have hnext : add octetRange i.seqno 1 = some (i.seqno + 1) := by
    refine add_eq ?_
    simp only [Wire.blockMax, octetRange] at h ⊢
    omega
  unfold take Intake.take
  split
  · rfl
  · simp only [hnext, Option.bind_eq_bind, Option.bind_some]
    split <;> rfl

/-- with all eight bits of a number taken in, its successor would not fit -/
example : take { blksize := 127, seqno := 255, crc := false } ⟨0, false, Vector.replicate 7 0⟩ = none := by decide

omit [Platform] in
theorem seqno_take {i : Intake} (h : i.seqno ≤ Wire.blockMax) {s : Segment} (hs : s.seqno ≤ Wire.blockMax) :
    (i.take s).seqno ≤ Wire.blockMax := by
  unfold Intake.take
  split
  · exact h
  · split
    · exact hs
    · exact h

theorem blocksEnded_gives (r : Reading) (checked : Bool) (unused : Nat) (crc : UInt16) :
    Gives (blocksEnded r checked unused crc) (r.blocksEnded checked unused crc) := by
  unfold blocksEnded Reading.blocksEnded
  dsimp only
  split
  · exact gives_fault _ _
  · split
    · exact ⟨rfl, trivial⟩
    · exact finishRead_gives _ _

/-- the bounds of a block size are in order, and it fits into an octet -/
theorem blockSizeFor_eq {remaining : Nat} (h : remaining < 2 ^ 32) (most : UInt8) :
    blockSizeFor remaining most = some (UInt8.ofNat (SdoClient.blockSizeFor remaining most)) := by
  have hword : 2 ^ 32 ≤ Platform.word := Platform.large
  have hmost : clamp 1 Wire.blockMax most.toNat = some (max 1 (min most.toNat Wire.blockMax)) := clamp_eq (by decide)
  have hsegments : (if remaining % Wire.segmentSize = 0 then some (remaining / Wire.segmentSize)
      else add Platform.word (remaining / Wire.segmentSize) 1) = some ((remaining + 6) / Wire.segmentSize) := by
    by_cases hwhole : remaining % Wire.segmentSize = 0
    · rw [if_pos hwhole]
      simp only [Wire.segmentSize] at hwhole ⊢
      congr 1
      omega
    · rw [if_neg hwhole]
      simp only [Wire.segmentSize] at hwhole ⊢
      rw [add_eq (by omega)]
      congr 1
      omega
  have hclamped : clamp 1 (max 1 (min most.toNat Wire.blockMax)) ((remaining + 6) / Wire.segmentSize) =
      some (SdoClient.blockSizeFor remaining most) := clamp_eq (Nat.le_max_left _ _)
  simp only [blockSizeFor, hmost, hsegments, hclamped, Option.bind_eq_bind, Option.bind_some]
  refine octet_eq ?_
  simp only [SdoClient.blockSizeFor, Wire.blockMax]
  omega

theorem nextBlockSize_eq (h : r.InRange) (config : Config) :
    nextBlockSize r config = some (UInt8.ofNat (r.nextBlockSize config)) := by
  unfold nextBlockSize Reading.nextBlockSize
  split
  · rw [UInt8.ofNat_toNat]
  · have := h.size
    exact blockSizeFor_eq (by omega) _

omit [Platform] in
theorem nextBlockSize_lt (r : Reading) (config : Config) : r.nextBlockSize config < 256 := by
  unfold Reading.nextBlockSize
  split
  · exact config.blockSize.toNat_lt
  · simp only [SdoClient.blockSizeFor, Wire.blockMax]
    omega

theorem acknowledge_eq (h : r.InRange) (config : Config) {i : Intake} (hi : i.seqno ≤ Wire.blockMax) :
    acknowledge r config i = some (r.acknowledge config i) ∧ (r.acknowledge config i).InRange := by
  obtain ⟨r', hr'⟩ : ∃ r', (if i.gap then r else { r with data := r.data ++ i.block }) = r' := ⟨_, rfl⟩
  have hrange : r'.InRange := by
    rw [← hr']
    split
    · exact h
    · exact ⟨h.size, h.seqno⟩
  have hackseq : octet (if i.gap then 0 else i.seqno) = some (UInt8.ofNat (if i.gap then 0 else i.seqno)) := by
    refine octet_eq ?_
    simp only [Wire.blockMax] at hi
    split <;> omega
  have hsize : (UInt8.ofNat (r'.nextBlockSize config)).toNat = r'.nextBlockSize config := by
    rw [UInt8.toNat_ofNat']
    exact Nat.mod_eq_of_lt (nextBlockSize_lt r' config)
  refine ⟨?_, ?_⟩
  · simp only [acknowledge, Reading.acknowledge, hr', hackseq, nextBlockSize_eq hrange, hsize, Option.bind_eq_bind,
      Option.bind_some]
  · simp only [Reading.acknowledge, hr']
    refine ⟨hrange.size, fun next hnext => ?_⟩
    dsimp only at hnext
    split at hnext
    · cases hnext
    · cases hnext
      exact Nat.zero_le _

/-- a segment, whatever its number, keeps the count of the segments within seven bits -/
theorem segment_gives (h : r.InRange) (config : Config) {i : Intake} (hi : i.seqno ≤ Wire.blockMax) {s : Segment}
    (hs : s.seqno ≤ Wire.blockMax) : Gives (segment r config i s) (r.segment config i s) := by
  have htaken := seqno_take hi hs
  obtain ⟨hacknowledged, hrange⟩ := acknowledge_eq h config htaken
  unfold segment Reading.segment
  simp only [take_eq hi, Option.bind_eq_bind, Option.bind_some, hacknowledged, Option.map_some]
  split
  · exact ⟨rfl, hrange⟩
  · refine ⟨rfl, h.size, fun next hnext => ?_⟩
    cases hnext
    exact htaken

theorem answerRead_gives (h : r.InRange) (config : Config) {response : Response} (hresponse : response.InRange) :
    Gives (answerRead r config response) (r.answer config response) := by
  unfold answerRead Reading.answer
  generalize r.phase = phase
  cases phase with
  | opening =>
    cases response with
    | uploadInitiate mux expedited sizeIndicated unused field =>
      dsimp only [ObjectId.checked]
      split
      · exact opened_gives r _ _ hresponse _
      · exact gives_fault _ _
    | _ => exact ⟨rfl, trivial⟩
  | segment toggle =>
    cases response with
    | uploadSegment answered len last field => exact continued_gives h _ _ hresponse _ _
    | _ => exact ⟨rfl, trivial⟩
  | blockOpening blksize =>
    cases response with
    | blockUploadInitiate mux crc size =>
      refine ⟨rfl, ?_⟩
      rw [ObjectId.reaction_checked]
      split
      · refine ⟨?_, fun i hi => ?_⟩
        · cases size with
          | none => exact Nat.two_pow_pos 32
          | some n => exact n.toNat_lt
        · cases hi
          exact Nat.zero_le _
      · trivial
    | _ => exact ⟨rfl, trivial⟩
  | block i => cases response <;> exact ⟨rfl, trivial⟩
  | blockEnd checked =>
    cases response with
    | blockUploadEnd unused crc => exact blocksEnded_gives r _ _ _
    | _ => exact ⟨rfl, trivial⟩

end reads

/-! ## Writes -/

/-- a piece of a payload as a segment carries it -/
structure Packed where
  field : Vector UInt8 7
  len : UInt8
  stop : Nat
  last : Bool

section writes

variable {w : Writing} {o : Output}

/-- the padding of the last segment of a payload of `size` octets -/
def finalPadding (size : Nat) : Option UInt8 := do
  let tail := size % Wire.segmentSize
  octet (← (if tail = 0 then some (if 0 < size then 0 else Wire.segmentSize) else sub Wire.segmentSize tail))

/-- the end of a block download, once all blocks are confirmed -/
def blocksDone (w : Writing) (o : Output) : Option Reaction := do
  let crc := if o.crc then Checksum.crc16 w.payload else 0
  let unused ← finalPadding w.size
  some (.ask (.writing { w with phase := .blockEnd }) (.blockDownloadEnd unused crc))

variable [Platform]

/-- the next chunk of up to seven octets, copied into a field of its own -/
def chunk (w : Writing) : Option Packed := do
  let start := min w.offset w.payload.length
  let stop := min (← add Platform.word start Wire.segmentSize) w.payload.length
  let count ← sub stop start
  let field ← fill 7 count (← slice w.payload start stop)
  let len ← octet count
  some ⟨field, len, stop, w.size ≤ stop⟩

/-- sends the next chunk with the given toggle bit -/
def sendChunk (w : Writing) (toggle : Bool) : Option Judgement :=
  (chunk w).map fun c =>
    .plain (.ask (.writing { w with offset := c.stop, phase := .segment toggle })
      (.downloadSegment toggle c.field c.len c.last))

/-- the confirmation of the chunk with the toggle bit `toggle` -/
def confirmed (w : Writing) (toggle answered : Bool) : Option Judgement :=
  if answered ≠ toggle then some (.plain (.abort .toggleNotAlternated))
  else if w.size ≤ w.offset then some w.finish
  else sendChunk w (!toggle)

/-- the acknowledgement of a block: of all its segments, or only of the first `ackseq` -/
def acknowledged (w : Writing) (o : Output) (ackseq blksize : Nat) : Option Judgement :=
  if !Wire.validBlockSize blksize then some (.plain (.abort .invalidBlockSize))
  else if o.seqno < ackseq then some (.plain (.abort .invalidSequenceNumber))
  else if ackseq < o.seqno then do
    let attempts ← add octetRange o.attempts 1
    if maxBlockRetries < attempts then some (.fault (.retriesExhausted w.target) .invalidSequenceNumber)
    else do
      let confirmed ← mul Platform.word ackseq Wire.segmentSize
      let reached ← add Platform.word o.blockStart confirmed
      let w := { w with offset := min reached w.size }
      some ⟨[.resending w.target ackseq o.seqno], w.nextBlock o blksize attempts⟩
  else if w.size ≤ w.offset then (blocksDone w o).map .plain
  else some (.plain (w.nextBlock o blksize 0))

/-- a response of the server to a write -/
def answerWrite (w : Writing) (config : Config) (response : Response) : Option Judgement :=
  match w.phase, response with
  | .opening expedited, .downloadInitiate mux =>
    if mux = w.target.mux then (if expedited then some w.finish else sendChunk w false)
    else some (.fault (.misaddressed w.target mux) .commandNotValid)
  | .segment toggle, .downloadSegment answered => confirmed w toggle answered
  | .block o, .blockDownloadAck ackseq blksize =>
    if o.awaitingAck then acknowledged w o ackseq.toNat blksize.toNat
    else some ((Active.writing w).unexpected response)
  | _, _ => some (w.answer config response)

/-- sends the next segment of a block -/
def tick (w : Writing) (o : Output) : Option (Writing × Request) := do
  let seqno ← add octetRange o.seqno 1
  let c ← chunk w
  some ({ w with offset := c.stop, phase := .block { o with seqno, awaitingAck := c.last || o.blksize ≤ seqno } },
    .blockDownloadSegment (UInt8.ofNat seqno) c.field c.last)

omit [Platform] in
/-- the padding of a segment fits into it -/
theorem finalPadding_eq (size : Nat) : finalPadding size = some (UInt8.ofNat (SdoClient.finalPadding size)) := by
  have hlt : size % Wire.segmentSize < Wire.segmentSize := Nat.mod_lt _ (by decide)
  have hunused : (if size % Wire.segmentSize = 0 then some (if 0 < size then 0 else Wire.segmentSize)
      else sub Wire.segmentSize (size % Wire.segmentSize)) = some (SdoClient.finalPadding size) := by
    unfold SdoClient.finalPadding
    by_cases htail : size % Wire.segmentSize = 0
    · by_cases hpos : 0 < size <;> simp [htail, hpos]
    · rw [if_neg htail, sub_eq hlt.le]
      simp [htail]
  simp only [finalPadding, hunused, Option.bind_eq_bind, Option.bind_some]
  exact octet_eq (lt_of_le_of_lt (SdoClient.finalPadding_le size) (by decide))

omit [Platform] in
/-- the octets between the offset and the end of a chunk -/
theorem chunk_data (w : Writing) :
    (w.payload.take (min (min w.offset w.payload.length + Wire.segmentSize) w.payload.length)).drop
      (min w.offset w.payload.length) = w.chunk.data := by
  have hskipped : w.payload.drop (min w.offset w.payload.length) = w.payload.drop w.offset := by
    rcases Nat.le_total w.offset w.payload.length with h | h
    · rw [Nat.min_eq_left h]
    · rw [Nat.min_eq_right h, List.drop_length, List.drop_of_length_le h]
  rw [List.drop_take, hskipped, Writing.chunk]
  apply List.take_eq_take_iff.2
  rw [List.length_drop]
  omega

/-- a chunk lies within the payload and fits into its field -/
theorem chunk_eq (h : Platform.Holds w.payload) :
    chunk w = some ⟨Wire.padded 7 w.chunk.data, UInt8.ofNat w.chunk.data.length, w.chunk.stop, w.chunk.last⟩ := by
  have hword : 2 ^ 32 ≤ Platform.word := Platform.large
  have hstop : w.chunk.stop = min (min w.offset w.payload.length + Wire.segmentSize) w.payload.length := by
    simp only [Writing.chunk]
    omega
  have hcount : w.chunk.data.length = w.chunk.stop - min w.offset w.payload.length := by
    rw [← chunk_data, List.length_drop, List.length_take, hstop]
    omega
  have hlen : w.chunk.data.length ≤ 7 := w.length_chunk_le
  have hstart : min w.offset w.payload.length ≤ w.chunk.stop := by
    rw [hstop]
    omega
  have hend : w.chunk.stop ≤ w.payload.length := by
    rw [hstop]
    exact Nat.min_le_right _ _
  have hsum : add Platform.word (min w.offset w.payload.length) Wire.segmentSize =
      some (min w.offset w.payload.length + Wire.segmentSize) := by
    refine add_eq ?_
    simp only [Platform.Holds] at h
    simp only [Wire.segmentSize]
    omega
  have hslice : slice w.payload (min w.offset w.payload.length) w.chunk.stop = some w.chunk.data := by
    rw [slice_eq hstart hend, hstop, chunk_data]
  simp only [chunk, hsum, Option.bind_eq_bind, Option.bind_some, ← hstop, sub_eq hstart, hslice, ← hcount,
    fill_eq hlen rfl, octet_eq (lt_of_le_of_lt hlen (by decide : 7 < 256))]
  rfl

omit [Platform] in
theorem stop_chunk_le (w : Writing) : w.chunk.stop ≤ w.payload.length := Nat.min_le_right _ _

theorem sendChunk_gives (h : w.InRange) (toggle : Bool) : Gives (sendChunk w toggle) (w.sendChunk toggle) := by
  refine ⟨?_, h.memory, h.sized, stop_chunk_le w, fun o ho => by cases ho⟩
  rw [sendChunk, chunk_eq h.memory]
  rfl

theorem confirmed_gives (h : w.InRange) (toggle answered : Bool) :
    Gives (confirmed w toggle answered) (w.confirmed toggle answered) := by
  unfold confirmed Writing.confirmed
  split
  · exact ⟨rfl, trivial⟩
  · split
    · exact ⟨rfl, trivial⟩
    · exact sendChunk_gives h _

/-- a new block begins within the payload and has room for a segment -/
theorem nextBlock_inRange (h : w.InRange) {blksize attempts : Nat} (hsize : Wire.validBlockSize blksize = true)
    (hattempts : attempts ≤ maxBlockRetries) (o : Output) : (w.nextBlock o blksize attempts).InRange := by
  simp only [Wire.validBlockSize, Bool.and_eq_true, decide_eq_true_eq] at hsize
  refine ⟨h.memory, h.sized, h.offset, fun next hnext => ?_⟩
  cases hnext
  exact ⟨hattempts, h.offset, hsize.2, fun _ => hsize.1⟩

/-- an acknowledgement, whatever its numbers, keeps the offset within the payload and the attempts within their bound -/
theorem acknowledged_gives (h : w.InRange) (ho : o.InRange w.payload.length) {ackseq : Nat} (hack : ackseq < 256)
    (blksize : Nat) : Gives (acknowledged w o ackseq blksize) (w.acknowledged o ackseq blksize) := by
  have hword : 2 ^ 32 ≤ Platform.word := Platform.large
  have hmemory := h.memory
  have hstart := ho.blockStart
  have htries := ho.attempts
  simp only [Platform.Holds, maxBlockRetries] at hmemory htries
  have hattempts : add octetRange o.attempts 1 = some (o.attempts + 1) := by
    refine add_eq ?_
    simp only [octetRange]
    omega
  have hconfirmed : mul Platform.word ackseq Wire.segmentSize = some (ackseq * Wire.segmentSize) := by
    refine mul_eq ?_
    simp only [Wire.segmentSize]
    omega
  have hreached : add Platform.word o.blockStart (ackseq * Wire.segmentSize) =
      some (o.blockStart + ackseq * Wire.segmentSize) := by
    refine add_eq ?_
    simp only [Wire.segmentSize]
    omega
  unfold acknowledged Writing.acknowledged
  cases hvalid : Wire.validBlockSize blksize with
  | false => exact ⟨rfl, trivial⟩
  | true =>
    simp only [Bool.not_true, Bool.false_eq_true, if_false]
    split
    · exact ⟨rfl, trivial⟩
    · split
      · simp only [hattempts, hconfirmed, hreached, Option.bind_eq_bind, Option.bind_some]
        split
        · exact gives_fault _ _
        · rename_i hfew
          let back := { w with offset := min (o.blockStart + ackseq * Wire.segmentSize) w.size }
          have hback : back.InRange := ⟨h.memory, h.sized, (Nat.min_le_right _ _).trans h.sized.le, h.block⟩
          exact ⟨rfl, nextBlock_inRange hback hvalid (Nat.not_lt.1 hfew) o⟩
      · split
        · refine ⟨?_, h.memory, h.sized, h.offset, fun o ho => by cases ho⟩
          simp only [blocksDone, finalPadding_eq, Option.bind_eq_bind, Option.bind_some]
          rfl
        · exact ⟨rfl, nextBlock_inRange h hvalid (Nat.zero_le _) o⟩

theorem answerWrite_gives (h : w.InRange) (config : Config) (response : Response) :
    Gives (answerWrite w config response) (w.answer config response) := by
  have hblock := h.block
  unfold answerWrite Writing.answer
  generalize w.phase = phase at hblock ⊢
  cases phase with
  | opening expedited =>
    cases response with
    | downloadInitiate mux =>
      dsimp only [ObjectId.checked]
      split
      · split
        · exact ⟨rfl, trivial⟩
        · exact sendChunk_gives h _
      · exact gives_fault _ _
    | _ => exact ⟨rfl, trivial⟩
  | segment toggle =>
    cases response with
    | downloadSegment answered => exact confirmed_gives h _ _
    | _ => exact ⟨rfl, trivial⟩
  | blockOpening =>
    cases response with
    | blockDownloadInitiate mux crc blksize =>
      refine ⟨rfl, ?_⟩
      rw [ObjectId.reaction_checked]
      split
      · rw [Writing.reaction_blocksOpened]
        split
        · rename_i hvalid
          simp only [Wire.validBlockSize, Bool.and_eq_true, decide_eq_true_eq] at hvalid
          refine ⟨h.memory, h.sized, h.offset, fun o ho => ?_⟩
          cases ho
          exact ⟨Nat.zero_le _, Nat.zero_le _, hvalid.2, fun _ => hvalid.1⟩
        · trivial
      · trivial
    | _ => exact ⟨rfl, trivial⟩
  | block o =>
    cases response with
    | blockDownloadAck ackseq blksize =>
      dsimp only
      split
      · exact acknowledged_gives h (hblock o rfl) ackseq.toNat_lt _
      · exact gives_fault _ _
    | _ => exact ⟨rfl, trivial⟩
  | blockEnd => cases response <;> exact ⟨rfl, trivial⟩

/-- a tick counts up to the size of its block at most -/
theorem tick_eq (h : w.InRange) (hs : w.sending? = some o) :
    tick w o = some (w.tick o) ∧ (w.tick o).1.InRange := by
  obtain ⟨hphase, hwaits⟩ := w.sending?_eq_some hs
  have ho := h.block o hphase
  have hroom := ho.room hwaits
  have hgranted := ho.granted
  simp only [Wire.blockMax] at hgranted
  have hseqno : add octetRange o.seqno 1 = some (o.seqno + 1) := by
    refine add_eq ?_
    simp only [octetRange]
    omega
  refine ⟨?_, h.memory, h.sized, stop_chunk_le w, fun next hnext => ?_⟩
  · simp only [tick, hseqno, chunk_eq h.memory, Option.bind_eq_bind, Option.bind_some]
    rfl
  · cases hnext
    refine ⟨ho.attempts, ho.blockStart, ho.granted, fun hmore => ?_⟩
    simp only [Bool.or_eq_false_iff, decide_eq_false_iff_not, not_le] at hmore
    exact hmore.2

end writes

end Checked

end SdoClient
