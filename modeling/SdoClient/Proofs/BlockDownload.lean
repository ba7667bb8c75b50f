/-
Block downloads. What the messages say of the blocks is set against the payload, whatever the server acknowledges and
whatever the bus takes.

Main statement: `block_download_exact`. The segments of every block are numbered from one, keep to the granted size and
carry the payload on from what was confirmed before; when the client ends the download, the confirmed segments without
the reported padding are the payload.
-/
import Mathlib.Tactic
import SdoClient.Proofs.SentBlocks

namespace SdoClient

namespace BlockDownload

/-! ## The invariant -/

/-- the server accepted the download of `id`, with or without a checksum -/
def Accepted (id : ObjectId) (messages : List Message) (checked : Bool) : Prop :=
  ∃ data rest blksize, messages = .received data :: rest ∧
    Response.parse data = .ok (.blockDownloadInitiate id.mux checked blksize)

theorem Accepted.append {id : ObjectId} {messages : List Message} {checked : Bool} (h : Accepted id messages checked)
    (more : List Message) : Accepted id (messages ++ more) checked := by
  obtain ⟨data, rest, blksize, rfl, hp⟩ := h
  exact ⟨data, rest ++ more, blksize, rfl, hp⟩

/-- what the end of a block download has to say: the confirmed octets are the payload and the padding, and the checksum
is that of the payload if both sides want one -/
structure Concluded (config : Config) (id : ObjectId) (payload : List UInt8) (messages : List Message)
    (unused : UInt8) (crc : UInt16) : Prop where
  whole : (confirmedOctets messages).length = payload.length + unused.toNat
  exact : (confirmedOctets messages).take payload.length = payload
  padding : unused.toNat = finalPadding payload.length
  checksum : ∃ checked, Accepted id messages checked ∧
    crc = if config.crc && checked then Checksum.crc16 payload else 0

/-- what the messages of a block download say at any time -/
structure Faithful (config : Config) (id : ObjectId) (payload : List UInt8) (messages : List Message) : Prop where
  laid : LaidFrom payload 0 (sentBlocks messages)
  concluded : ∀ unused crc, .offered (.blockDownloadEnd unused crc) ∈ messages →
    Concluded config id payload messages unused crc

/-- a block download that has come to `position` in the middle of the block `current`, after the blocks `closed` -/
structure Sending (config : Config) (id : ObjectId) (payload : List UInt8) (messages : List Message)
    (position : Nat) (o : Output) (closed : List SentBlock) (current : SentBlock) : Prop where
  blocks : sentBlocks messages = closed ++ [current]
  laid : LaidFrom payload 0 closed
  confirmed : closed.flatMap SentBlock.confirmed = payload.take o.blockStart
  aligned : o.blockStart % 7 = 0
  start : Within payload o.blockStart
  granted : current.granted = o.blksize
  valid : o.blksize ≤ Wire.blockMax
  segments : current.segments = slices payload o.blockStart o.seqno
  seqno : o.seqno ≤ o.blksize
  within : ∀ i < o.seqno, Within payload (o.blockStart + 7 * i)
  reached : position = min (o.blockStart + 7 * o.seqno) payload.length
  ready : o.awaitingAck = false → o.seqno < o.blksize ∧ Within payload (o.blockStart + 7 * o.seqno)
  awaiting : o.awaitingAck = true → 0 < o.seqno
  accepted : ∃ checked, Accepted id messages checked ∧ o.crc = (config.crc && checked)
  unfinished : ∀ unused crc, .offered (.blockDownloadEnd unused crc) ∉ messages

/-- what a block download of `payload` keeps, by its phase -/
def Sound (config : Config) (id : ObjectId) (payload : List UInt8) (messages : List Message) : Fate → Prop
  | .goesOn (.writing w) =>
    w.target = id ∧ w.payload = payload ∧ w.Sized ∧
      match w.phase with
      | .blockOpening => messages = [] ∧ w.offset = 0
      | .block o => ∃ closed current, Sending config id payload messages w.offset o closed current
      | .blockEnd =>
        Faithful config id payload messages ∧
          ∃ closed current, sentBlocks messages = closed ++ [current] ∧ current.segments = []
      | _ => False
  | .goesOn (.reading _) => False
  | .ends _ => Faithful config id payload messages

variable {config : Config} {id : ObjectId} {payload : List UInt8} {messages : List Message}

namespace Sending

variable {position : Nat} {o : Output} {closed : List SentBlock} {current : SentBlock}

theorem length_current (h : Sending config id payload messages position o closed current) :
    current.segments.length = o.seqno := by
  rw [h.segments, length_slices]

theorem length_confirmed (h : Sending config id payload messages position o closed current) :
    (closed.flatMap SentBlock.confirmed).length = o.blockStart := by
  rw [h.confirmed, List.length_take, Nat.min_eq_left (within_le h.start)]

theorem laid_current (h : Sending config id payload messages position o closed current) :
    Laid payload o.blockStart current := by
  refine ⟨?_, ?_, ?_, ?_⟩
  · rw [h.length_current]
    exact h.segments
  · rw [h.length_current, h.granted]
    exact h.seqno
  · rw [h.length_current]
    exact h.seqno.trans h.valid
  · rw [h.length_current]
    exact h.within

theorem faithful (h : Sending config id payload messages position o closed current) :
    Faithful config id payload messages := by
  refine ⟨?_, fun unused crc hm => absurd hm (h.unfinished unused crc)⟩
  rw [h.blocks, laidFrom_append, h.length_confirmed, Nat.zero_add]
  exact ⟨h.laid, h.laid_current, trivial⟩

/-- the payload is sent to its end exactly if the segments of the block reach it -/
theorem sent_iff (h : Sending config id payload messages position o closed current) :
    payload.length ≤ position ↔ payload.length ≤ o.blockStart + 7 * o.seqno := by
  rw [h.reached]
  omega

/-- the first `k` segments of the block put together -/
theorem confirmed_current (h : Sending config id payload messages position o closed current) {k : Nat}
    (hk : k ≤ o.seqno) :
    (current.acknowledge k).confirmed = (Wire.padded (7 * k) (payload.drop o.blockStart)).toList := by
  change (current.segments.take k).flatMap _ = _
  rw [h.segments, take_slices _ _ hk, octets_slices]

end Sending

/-! ## What keeps the invariant -/

/-- messages that confirm nothing take back nothing -/
theorem Concluded.append {unused : UInt8} {crc : UInt16} (h : Concluded config id payload messages unused crc)
    {more : List Message} (hsame : confirmedOctets (messages ++ more) = confirmedOctets messages) :
    Concluded config id payload (messages ++ more) unused crc := by
  obtain ⟨checked, ha, hcrc⟩ := h.checksum
  refine ⟨?_, ?_, h.padding, checked, ha.append more, hcrc⟩
  · rw [hsame]
    exact h.whole
  · rw [hsame]
    exact h.exact

/-- a frame of the server takes nothing back -/
theorem Faithful.received (h : Faithful config id payload messages)
    (hend : ∀ unused crc, .offered (.blockDownloadEnd unused crc) ∈ messages →
      ∃ closed current, sentBlocks messages = closed ++ [current] ∧ current.segments = [])
    (data : List UInt8) : Faithful config id payload (messages ++ [.received data]) := by
  have hblocks : sentBlocks (messages ++ [.received data]) = absorb (sentBlocks messages) (.received data) :=
    sentBlocks_append _ _
  constructor
  · rw [hblocks]
    exact laidFrom_received h.laid data
  · intro unused crc hm
    have hm : .offered (.blockDownloadEnd unused crc) ∈ messages := by simpa using hm
    obtain ⟨closed, current, hcurrent, hnone⟩ := hend unused crc hm
    refine (h.concluded unused crc hm).append ?_
    -- the open block is empty, so whatever the server says of it confirms nothing
    rw [confirmedOctets, confirmedOctets, hblocks, hcurrent]
    simp only [absorb]
    split <;> simp [onLast_concat, SentBlock.confirmed, SentBlock.acknowledge, hnone]

/-- an abort of the client takes nothing back -/
theorem Faithful.aborted (h : Faithful config id payload messages) (mux : Mux) (code : AbortCode) :
    Faithful config id payload (messages ++ [.offered (.abort mux code)]) := by
  have hblocks : sentBlocks (messages ++ [.offered (.abort mux code)]) = sentBlocks messages := sentBlocks_append _ _
  constructor
  · rw [hblocks]
    exact h.laid
  · intro unused crc hm
    refine (h.concluded unused crc (by simpa using hm)).append ?_
    rw [confirmedOctets, hblocks]
    rfl

/-! ## A block being sent -/

namespace Sending

variable {position : Nat} {o : Output} {closed : List SentBlock} {current : SentBlock} {data : List UInt8}

/-- a tick offers the segment that carries the block on -/
theorem tick {w : Writing} (h : Sending config id payload messages w.offset o closed current)
    (hw : w.payload = payload) (hsized : w.Sized) (hr : o.awaitingAck = false) :
    ∃ o' current', (w.tick o).1.phase = .block o' ∧
      Sending config id payload (messages ++ [.offered (w.tick o).2]) (w.tick o).1.offset o' closed current' := by
  obtain ⟨hlt, hin⟩ := h.ready hr
  have hoffset : w.offset = o.blockStart + 7 * o.seqno := by
    rw [h.reached, Nat.min_eq_left (within_le hin)]
  have hsegment : (w.tick o).2 = .blockDownloadSegment (UInt8.ofNat (o.seqno + 1))
      (Wire.padded 7 (payload.drop (o.blockStart + 7 * o.seqno)))
      (decide (payload.length ≤ o.blockStart + 7 * o.seqno + 7)) := by
    simp only [Writing.tick, Writing.chunk_padded, Writing.chunk_last hsized, hw, hoffset]
  refine ⟨_, current.add ⟨UInt8.ofNat (o.seqno + 1), Wire.padded 7 (payload.drop (o.blockStart + 7 * o.seqno)),
    decide (payload.length ≤ o.blockStart + 7 * o.seqno + 7)⟩, rfl, ?_⟩
  constructor
  case blocks =>
    rw [sentBlocks_append, h.blocks, hsegment]
    exact onLast_concat _ _ _
  case segments => exact (congrArg (· ++ _) h.segments).trans (slices_succ _ _ _).symm
  case seqno => exact hlt
  case within =>
    intro i hi
    rcases Nat.lt_succ_iff_lt_or_eq.1 hi with hi | rfl
    · exact h.within i hi
    · exact hin
  case reached =>
    change min (w.offset + 7) w.payload.length = min (o.blockStart + 7 * (o.seqno + 1)) payload.length
    rw [hoffset, hw, Nat.mul_succ, Nat.add_assoc]
  case ready =>
    intro hwait
    have hwait : (w.chunk.last || decide (o.blksize ≤ o.seqno + 1)) = false := hwait
    rw [Writing.chunk_last hsized, hw, hoffset] at hwait
    simp only [Bool.or_eq_false_iff, decide_eq_false_iff_not, Nat.not_le] at hwait
    exact ⟨hwait.2, .inl (by simp only; omega)⟩
  case awaiting => exact fun _ => Nat.succ_pos _
  case accepted =>
    obtain ⟨checked, ha, hcrc⟩ := h.accepted
    exact ⟨checked, ha.append _, hcrc⟩
  case unfinished =>
    intro unused crc hm
    rw [hsegment] at hm
    exact h.unfinished unused crc (by simpa using hm)
  case laid => exact h.laid
  case confirmed => exact h.confirmed
  case aligned => exact h.aligned
  case start => exact h.start
  case granted => exact h.granted
  case valid => exact h.valid

/-- the blocks after an acknowledgement -/
theorem blocks_acknowledged (h : Sending config id payload messages position o closed current) {ackseq blksize : UInt8}
    (hp : Response.parse data = .ok (.blockDownloadAck ackseq blksize)) :
    sentBlocks (messages ++ [.received data]) =
      (closed ++ [current.acknowledge ackseq.toNat]) ++ [{ granted := blksize.toNat }] := by
  rw [sentBlocks_append, h.blocks]
  simp only [List.foldl_cons, List.foldl_nil, absorb, hp, onLast_concat]

/-- the end of the download adds nothing to the blocks -/
theorem blocks_concluded (h : Sending config id payload messages position o closed current) {ackseq blksize : UInt8}
    (hp : Response.parse data = .ok (.blockDownloadAck ackseq blksize)) (unused : UInt8) (crc : UInt16) :
    sentBlocks (messages ++ [.received data, .offered (.blockDownloadEnd unused crc)]) =
      (closed ++ [current.acknowledge ackseq.toNat]) ++ [{ granted := blksize.toNat }] := by
  rw [← h.blocks_acknowledged hp, List.append_cons, sentBlocks_append _ [.offered _]]
  rfl

theorem laid_acknowledged (h : Sending config id payload messages position o closed current) (k : Nat) :
    LaidFrom payload 0 (closed ++ [current.acknowledge k]) := by
  rw [laidFrom_append, h.length_confirmed, Nat.zero_add]
  exact ⟨h.laid, h.laid_current.acknowledge k, trivial⟩

/-- the next block begins after the segments that count, as long as there is something to send from there on -/
theorem nextBlock (h : Sending config id payload messages position o closed current) {ackseq blksize : UInt8}
    (hp : Response.parse data = .ok (.blockDownloadAck ackseq blksize)) (hk : ackseq.toNat ≤ o.seqno)
    (hvalid : Wire.validBlockSize blksize.toNat = true) (hin : Within payload (o.blockStart + 7 * ackseq.toNat))
    (attempts : Nat) (position' : Nat)
    (hposition : position' = o.blockStart + 7 * ackseq.toNat) :
    ∃ closed' current', Sending config id payload (messages ++ [.received data]) position'
      { blksize := blksize.toNat, blockStart := position', attempts, crc := o.crc } closed' current' := by
  obtain ⟨hpos, hmax⟩ : 1 ≤ blksize.toNat ∧ blksize.toNat ≤ Wire.blockMax := by
    simpa [Wire.validBlockSize] using hvalid
  have hinside := within_le hin
  have hoctets : (current.acknowledge ackseq.toNat).confirmed =
      (payload.drop o.blockStart).take (7 * ackseq.toNat) := by
    rw [h.confirmed_current hk, Wire.toList_padded_of_le]
    rw [List.length_drop]
    omega
  refine ⟨closed ++ [current.acknowledge ackseq.toNat], { granted := blksize.toNat }, ?_⟩
  constructor
  case blocks => exact h.blocks_acknowledged hp
  case laid => exact h.laid_acknowledged _
  case confirmed =>
    rw [List.flatMap_append, h.confirmed, List.flatMap_singleton, hoctets, ← List.take_add, hposition]
  case aligned =>
    have := h.aligned
    simp only [hposition]
    omega
  case start => rwa [hposition]
  case granted => rfl
  case valid => exact hmax
  case segments => rfl
  case seqno => exact Nat.zero_le _
  case within => exact fun i hi => absurd hi (Nat.not_lt_zero i)
  case reached => simp only [hposition, Nat.mul_zero, Nat.add_zero, Nat.min_eq_left hinside]
  case ready => exact fun _ => ⟨hpos, by simpa [hposition] using hin⟩
  case awaiting => exact fun hwait => absurd hwait Bool.false_ne_true
  case accepted =>
    obtain ⟨checked, ha, hcrc⟩ := h.accepted
    exact ⟨checked, ha.append _, hcrc⟩
  case unfinished =>
    intro unused crc hm
    exact h.unfinished unused crc (by simpa using hm)

/-- once a whole block reaches the end of the payload, it is all confirmed, and the padding is what is too much -/
theorem concluded (h : Sending config id payload messages position o closed current) {ackseq blksize : UInt8}
    (hp : Response.parse data = .ok (.blockDownloadAck ackseq blksize)) (hk : ackseq.toNat = o.seqno)
    (ha : o.awaitingAck = true) (hend : payload.length ≤ o.blockStart + 7 * o.seqno) (unused : UInt8)
    (hunused : unused = UInt8.ofNat (finalPadding payload.length)) (crc : UInt16)
    (hcrc : crc = if o.crc then Checksum.crc16 payload else 0) :
    Concluded config id payload (messages ++ [.received data, .offered (.blockDownloadEnd unused crc)]) unused crc := by
  have hinside := within_le h.start
  have hpadding : payload.length + finalPadding payload.length = 7 * (o.blockStart / 7 + o.seqno) := by
    have haligned := h.aligned
    have hpos := h.awaiting ha
    have hlast := h.within (o.seqno - 1) (by omega)
    refine finalPadding_eq (by omega) ?_ (by omega) ?_
    · rcases hlast with hlast | ⟨rfl, hlast⟩
      · omega
      · exact .inr rfl
    · intro hempty
      rcases hlast with hlast | ⟨-, hlast⟩ <;> omega
  have hpadded : unused.toNat = finalPadding payload.length := by
    have := finalPadding_le payload.length
    rw [hunused, UInt8.toNat_ofNat']
    omega
  -- everything confirmed: the blocks before, and the whole of the last one
  have hall : confirmedOctets (messages ++ [.received data, .offered (.blockDownloadEnd unused crc)]) =
      payload ++ List.replicate (finalPadding payload.length) 0 := by
    have hrest : (payload.drop o.blockStart).length ≤ 7 * o.seqno := by
      rw [List.length_drop]
      omega
    have hzeros : 7 * o.seqno - (payload.drop o.blockStart).length = finalPadding payload.length := by
      have := h.aligned
      rw [List.length_drop]
      omega
    rw [confirmedOctets, h.blocks_concluded hp, List.flatMap_append, List.flatMap_append,
      List.flatMap_singleton, List.flatMap_singleton, h.confirmed, h.confirmed_current hk.le, hk,
      Wire.toList_padded_of_ge hrest, hzeros, ← List.append_assoc, List.take_append_drop]
    exact List.append_nil _
  obtain ⟨checked, haccepted, hchecked⟩ := h.accepted
  refine ⟨?_, ?_, hpadded, checked, haccepted.append _, ?_⟩
  · rw [hall, List.length_append, List.length_replicate, hpadded]
  · rw [hall, List.take_left']
    rfl
  · rw [hcrc, hchecked]

end Sending

/-! ## Every turn -/

namespace Sound

variable {w : Writing} {data : List UInt8}

theorem faithful_received (h : Sound config id payload messages (.goesOn (.writing w))) :
    Faithful config id payload messages ∧
      ∀ data, Faithful config id payload (messages ++ [.received data]) := by
  obtain ⟨-, -, -, hphase⟩ := h
  split at hphase
  · obtain ⟨rfl, -⟩ := hphase
    have hnone : Faithful config id payload [] := ⟨trivial, fun _ _ hm => absurd hm List.not_mem_nil⟩
    exact ⟨hnone, hnone.received fun _ _ hm => absurd hm List.not_mem_nil⟩
  · obtain ⟨closed, current, hs⟩ := hphase
    exact ⟨hs.faithful, hs.faithful.received fun unused crc hm => absurd hm (hs.unfinished unused crc)⟩
  · obtain ⟨hf, hcurrent⟩ := hphase
    exact ⟨hf, hf.received fun _ _ _ => hcurrent⟩
  · exact hphase.elim

/-- an abort of the client, whatever it is about -/
theorem aborted (h : Sound config id payload messages (.goesOn (.writing w))) (code : AbortCode) (s : Stimulus) :
    Sound config id payload (messages ++ ((Reaction.abort code).turn (.writing w)).messages s)
      ((Reaction.abort code).turn (.writing w)).fate := by
  obtain ⟨hf, hreceived⟩ := h.faithful_received
  have hheard : Faithful config id payload (messages ++ s.heard) := by
    cases s with
    | frame data => exact hreceived data
    | lapse | tick ready => simpa [Stimulus.heard] using hf
  have haborted := hheard.aborted w.target.mux code
  rwa [List.append_assoc] at haborted

/-- the end of a transfer without a word of the client -/
theorem ended (h : Sound config id payload messages (.goesOn (.writing w))) (ending : Ending) :
    Sound config id payload (messages ++ [.received data]) (.ends ending) :=
  h.faithful_received.2 data

/-- the server accepts the download -/
theorem opened (h : Sound config id payload messages (.goesOn (.writing w))) (hp : w.phase = .blockOpening)
    {crc : Bool} {blksize : UInt8} (hr : Response.parse data = .ok (.blockDownloadInitiate w.target.mux crc blksize))
    (hvalid : Wire.validBlockSize blksize.toNat = true) :
    Sound config id payload (messages ++ [.received data])
      (.goesOn (.writing { w with phase := .block { blksize := blksize.toNat, crc := config.crc && crc } })) := by
  obtain ⟨hpos, hmax⟩ : 1 ≤ blksize.toNat ∧ blksize.toNat ≤ Wire.blockMax := by
    simpa [Wire.validBlockSize] using hvalid
  obtain ⟨rfl, rfl, hsized, hphase⟩ := h
  rw [hp] at hphase
  obtain ⟨rfl, hoffset⟩ := hphase
  have hstart : Within w.payload 0 := by
    rcases Nat.eq_zero_or_pos w.payload.length with hz | hz
    · exact .inr ⟨List.length_eq_zero_iff.1 hz, rfl⟩
    · exact .inl hz
  refine ⟨rfl, rfl, hsized, [], { granted := blksize.toNat }, ?_⟩
  constructor
  case blocks => simp [sentBlocks, absorb, hr]
  case start => exact hstart
  case ready => exact fun _ => ⟨hpos, hstart⟩
  case valid => exact hmax
  case reached => simp [hoffset]
  case accepted => exact ⟨crc, ⟨data, [], blksize, rfl, hr⟩, rfl⟩
  case unfinished => simp
  case within => exact fun i hi => absurd hi (Nat.not_lt_zero i)
  case awaiting => exact fun hwait => absurd hwait Bool.false_ne_true
  case laid => exact trivial
  case seqno => exact Nat.zero_le _
  case confirmed | aligned | granted | segments => rfl

/-- a response of the server -/
theorem answered (h : Sound config id payload messages (.goesOn (.writing w))) {response : Response}
    (hp : Response.parse data = .ok response) {reaction : Reaction} (hanswered : w.Answered config response reaction) :
    Sound config id payload (messages ++ (reaction.turn (.writing w)).messages (.frame data))
      (reaction.turn (.writing w)).fate := by
  have ⟨htarget, hpayload, hsized, hphase⟩ := h
  have hsize : w.size = payload.length := hsized.trans (congrArg List.length hpayload)
  cases hanswered with
  | abort code => exact h.aborted _ (.frame data)
  | finish confirmed => exact h.ended _
  | opened phase | continued phase =>
    rw [phase] at hphase
    exact hphase.elim
  | blocksOpened phase read valid =>
    subst read
    exact h.opened phase hp valid
  | @resends o ackseq blksize phase awaits read valid short =>
    subst read
    rw [phase] at hphase
    obtain ⟨closed, current, hs⟩ := hphase
    have hin := hs.within _ short
    refine ⟨htarget, hpayload, hsized, hs.nextBlock hp short.le valid hin (o.attempts + 1) _ ?_⟩
    have hinside := within_le hin
    simp only [Wire.segmentSize, hsize]
    omega
  | @concludes o ackseq blksize phase awaits read whole sent =>
    subst read
    rw [phase] at hphase
    obtain ⟨closed, current, hs⟩ := hphase
    have hend : payload.length ≤ o.blockStart + 7 * o.seqno := hs.sent_iff.1 (hsize ▸ sent)
    have hblocks := hs.blocks_concluded hp (UInt8.ofNat (finalPadding w.size))
      (if o.crc then Checksum.crc16 w.payload else 0)
    refine ⟨htarget, hpayload, hsized, ⟨?_, ?_⟩, _, _, hblocks, rfl⟩
    · refine hblocks ▸ (laidFrom_append payload 0 _ _).2 ?_
      exact ⟨hs.laid_acknowledged _, laid_empty _ _ _, trivial⟩
    · intro unused crc hm
      have hm : unused = UInt8.ofNat (finalPadding w.size) ∧
          crc = if o.crc then Checksum.crc16 w.payload else 0 := by
        simpa [Turn.messages, Stimulus.heard, Reaction.turn, Writing.blocksDone, hs.unfinished unused crc] using hm
      obtain ⟨rfl, rfl⟩ := hm
      exact hs.concluded hp whole awaits hend _ (by rw [hsize]) _ (by rw [hpayload])
  | @advances o ackseq blksize phase awaits read valid whole more =>
    subst read
    rw [phase] at hphase
    obtain ⟨closed, current, hs⟩ := hphase
    have hmore : o.blockStart + 7 * o.seqno < payload.length :=
      Nat.lt_of_not_le fun hend => (hsize ▸ more).not_ge (hs.sent_iff.2 hend)
    refine ⟨htarget, hpayload, hsized, hs.nextBlock hp whole.le valid (.inl ?_) 0 w.offset ?_⟩
    · omega
    · rw [hs.reached]
      omega

/-- at a tick the next segment goes out, or nothing happens -/
theorem paced (h : Sound config id payload messages (.goesOn (.writing w))) (ready : Bool) :
    Sound config id payload (messages ++ ((Active.writing w).paced ready).messages (.tick ready))
      ((Active.writing w).paced ready).fate := by
  have hsame : Sound config id payload
      (messages ++ (⟨[], .goesOn (.writing w)⟩ : Turn).messages (.tick ready)) (.goesOn (.writing w)) := by
    simpa [Turn.messages, Stimulus.heard] using h
  simp only [Active.paced]
  split
  · rename_i o hsending
    obtain ⟨hphase, hready⟩ := w.sending?_eq_some hsending
    cases ready with
    | false => exact hsame
    | true =>
      obtain ⟨htarget, hpayload, hsized, hs⟩ := h
      rw [hphase] at hs
      obtain ⟨closed, current, hs⟩ := hs
      obtain ⟨o', current', hnext, hs⟩ := hs.tick hpayload hsized hready
      refine ⟨htarget, hpayload, hsized, ?_⟩
      rw [hnext]
      exact ⟨closed, current', hs⟩
  · exact hsame

theorem received (h : Sound config id payload messages (.goesOn (.writing w))) (data : List UInt8) :
    Sound config id payload
      (messages ++ (((Active.writing w).reactTo config data).turn (.writing w)).messages (.frame data))
      (((Active.writing w).reactTo config data).turn (.writing w)).fate := by
  rcases w.reactTo_cases config data with ⟨code, ha⟩ | ⟨code, ha⟩ | ⟨response, hp, hanswered⟩
  · rw [ha]
    exact h.aborted _ (.frame data)
  · rw [ha]
    exact h.ended _
  · exact h.answered hp hanswered

/-- **Step lemma.** Every turn of a block download keeps what its messages say. -/
theorem respond {a : Active} (h : Sound config id payload messages (.goesOn a)) (s : Stimulus) :
    Sound config id payload (messages ++ (a.respond config s).messages s) (a.respond config s).fate := by
  cases a with
  | reading r => exact h.elim
  | writing w =>
    cases s with
    | frame data => exact h.received data
    | lapse => exact h.aborted .timeout .lapse
    | tick ready => exact h.paced ready

/-- before the server answers, nothing was said -/
theorem begin {v : Value} (hid : id.usesBlocks = true) :
    Sound config id payload [] (.goesOn (Transfer.begin config ⟨id, .write v payload⟩).1) := by
  simp only [Transfer.begin, hid, if_true]
  exact ⟨rfl, rfl, rfl, rfl, rfl⟩

theorem faithful {fate : Fate} (h : Sound config id payload messages fate) :
    Faithful config id payload messages := by
  cases fate with
  | ends ending => exact h
  | goesOn a =>
    cases a with
    | reading r => exact h.elim
    | writing w => exact h.faithful_received.1

end Sound

end BlockDownload

/-! ## Delivery -/

namespace Engine

open BlockDownload

/-- **A block download delivers exactly the payload.** Whatever happens while a download in blocks is in progress: once
the client offers the end of the download, the segments that the server confirmed, block after block and without the
reported padding, are the payload; the checksum is that of the payload if both sides want one. In every block the
segments are numbered from one and keep to the granted size, each carries the payload on from what was confirmed, and
the ones marked as last are those with the final octet. -/
theorem block_download_exact (e : Engine) (d : Dictionary) (id : ObjectId) (v : Value) (payload : List UInt8)
    (os : List Occasion) (hid : id.usesBlocks = true)
    (ha : e.active = some (Transfer.begin e.config ⟨id, .write v payload⟩).1) :
    let ms := (e.course d (Transfer.begin e.config ⟨id, .write v payload⟩).1 os).messages
    said ms <+: offers (e.run d os).effects ∧ heard ms <+: e.delivered os ∧
      (∀ unused crc, .offered (.blockDownloadEnd unused crc) ∈ ms →
        unused.toNat ≤ (confirmedOctets ms).length ∧
          (confirmedOctets ms).take ((confirmedOctets ms).length - unused.toNat) = payload ∧
          (payload = [] → unused = 7) ∧
          ∃ checked, Accepted id ms checked ∧
            crc = if e.config.crc && checked then Checksum.crc16 payload else 0) ∧
      ∀ before b after, sentBlocks ms = before ++ b :: after →
        b.segments.length ≤ b.granted ∧
          ∀ i s, b.segments[i]? = some s →
            let start := (before.flatMap SentBlock.confirmed).length + 7 * i
            s.seqno.toNat = i + 1 ∧ s.data = Wire.padded 7 (payload.drop start) ∧
              (s.last = true ↔ payload = [] ∨ start < payload.length ∧ payload.length ≤ start + 7) ∧
              (start < payload.length ∨ payload = [] ∧ start = 0) := by
  intro ms
  have hsound := course_invariant (d := d) e.config (Sound e.config id payload) (fun _ _ s h => h.respond s) rfl ha []
    (Sound.begin hid) os
  have hfaithful : Faithful e.config id payload ms := hsound.faithful
  refine ⟨said_course_isPrefix ha os, heard_course_isPrefix ha os, ?_, ?_⟩
  · intro unused crc hm
    have hc := hfaithful.concluded unused crc hm
    have hwhole := hc.whole
    have hlength : (confirmedOctets ms).length - unused.toNat = payload.length := by omega
    refine ⟨by omega, ?_, ?_, hc.checksum⟩
    · rw [hlength, hc.exact]
    · rintro rfl
      exact UInt8.toNat_inj.1 hc.padding
  · intro before b after hblocks
    have hlaid := hfaithful.laid
    rw [hblocks, laidFrom_append, Nat.zero_add] at hlaid
    obtain ⟨-, hb, -⟩ := hlaid
    exact ⟨hb.granted, fun i s hs => hb.segment hs⟩

/-- a domain of node 5 -/
def firmwareId : ObjectId := ⟨0, 5, ⟨0x2001, 0⟩, .domain⟩

def tenOctets : List UInt8 := [0, 1, 2, 3, 4, 5, 6, 7, 8, 9]

/-- an engine that writes the ten octets, with a checksum -/
def sendingTen : Engine :=
  { node := 5
    config := { crc := true }
    active := some (Transfer.begin { crc := true } ⟨firmwareId, .write (.octets tenOctets) tenOctets⟩).1 }

/-- the server grants two segments, confirms one of the two that it gets, and then the one that is sent again -/
def resentOnce : List Occasion :=
  [⟨0, true, .frame ⟨0x585, [0xa4, 0x01, 0x20, 0, 2, 0, 0, 0]⟩⟩, ⟨1, true, .tick⟩, ⟨2, false, .tick⟩, ⟨3, true, .tick⟩,
    ⟨4, true, .frame ⟨0x585, [0xa2, 1, 3, 0, 0, 0, 0, 0]⟩⟩, ⟨5, true, .tick⟩,
    ⟨6, true, .frame ⟨0x585, [0xa2, 1, 3, 0, 0, 0, 0, 0]⟩⟩, ⟨7, true, .frame ⟨0x585, [0xa1, 0, 0, 0, 0, 0, 0, 0]⟩⟩]

theorem block_download_exact_resent :
    let ms := (sendingTen.course { bus := 0, node := 5 }
      (Transfer.begin sendingTen.config ⟨firmwareId, .write (.octets tenOctets) tenOctets⟩).1 resentOnce).messages
    firmwareId.usesBlocks = true ∧
      .offered (.blockDownloadEnd 4 (Checksum.crc16 tenOctets)) ∈ ms ∧
      (confirmedOctets ms).take ((confirmedOctets ms).length - 4) = tenOctets ∧
      (sentBlocks ms).map (fun b => (b.granted, b.segments.length, b.acknowledged)) =
        [(2, 2, 1), (3, 1, 1), (3, 0, 0)] := by
  intro ms
  have hend : .offered (.blockDownloadEnd 4 (Checksum.crc16 tenOctets)) ∈ ms := by decide +kernel
  obtain ⟨-, -, hexact, -⟩ := block_download_exact sendingTen { bus := 0, node := 5 } firmwareId
    (.octets tenOctets) tenOctets resentOnce rfl rfl
  obtain ⟨-, hpayload, -, -⟩ := hexact 4 _ hend
  exact ⟨rfl, hend, hpayload, by decide +kernel⟩

end Engine

end SdoClient
