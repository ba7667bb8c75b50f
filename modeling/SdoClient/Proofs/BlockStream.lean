/-
Block uploads from a server that streams a payload. The payload and the padding of its last segment are cut into
segments of seven octets; a block is as long as the client last asked for, or shorter at the end. Segments within a
block may get lost, come twice or change places; the client then asks for the same block again.

Main statement: `block_upload_reassembles`. An upload that completes stores what it acknowledged; and any number of
broken blocks is neutral, so a server that streams a payload has it stored exactly.
-/
import Mathlib.Tactic
import SdoClient.Proofs.BlockUpload
import SdoClient.Proofs.Chunks
import SdoClient.Proofs.RequestFrames

namespace SdoClient

/-! ## The server -/

/-- what a server sends: a payload, the padding of its last segment, and the size that it announces, if it does -/
structure Source where
  payload : List UInt8
  padding : List UInt8
  size : Option UInt32
  padded : padding.length = finalPadding payload.length
  sized : ∀ n, size = some n → n ≠ 0 → n.toNat = payload.length

namespace Source

variable (src : Source)

def stream : List UInt8 := src.payload ++ src.padding

/-- the number of segments -/
def count : Nat := src.stream.length / 7

/-- the segment after `start + i` others, as it is sent in a block that begins after `start` -/
def segment (start i : Nat) : Segment :=
  ⟨i + 1, decide (start + i + 1 = src.count), Wire.padded 7 (src.stream.drop (7 * (start + i)))⟩

/-- the length of a block after `start` segments, for a client that asked for `blksize` -/
def due (start : Nat) (blksize : UInt8) : Nat := min blksize.toNat (src.count - start)

/-- the block size that a client asks for after `start` segments -/
def asked (config : Config) (start : Nat) : UInt8 :=
  if src.size.getD 0 = 0 then config.blockSize
  else UInt8.ofNat (blockSizeFor (src.payload.length - 7 * start) config.blockSize)

/-- the frames that arrive of a block of `k` segments: the last one does, the others may be lost, doubled or in another
order -/
structure Arrives (start k : Nat) (numbers : List Nat) (frames : List (List UInt8)) : Prop where
  read : frames.map Segment.parse = numbers.map fun i => .ok (src.segment start i)
  ends : ∃ early, numbers = early ++ [k - 1] ∧ ∀ i ∈ early, i < k - 1

/-- the conversation with a client from the moment it has `start` segments and asks for a block of `blksize` -/
inductive Streams (config : Config) (checked : Bool) : Nat → UInt8 → List Message → Prop
  /-- a block arrives incomplete, and the server begins it again -/
  | broken {start : Nat} {blksize : UInt8} {numbers : List Nat} {frames : List (List UInt8)} {rest : List Message}
      (arrives : src.Arrives start (src.due start blksize) numbers frames)
      (gap : numbers ≠ List.range (src.due start blksize))
      (later : Streams config checked start (src.asked config start) rest) :
      Streams config checked start blksize
        (frames.map .received ++ .offered (.blockUploadAck 0 (src.asked config start)) :: rest)
  /-- a block arrives as it was sent, and others follow -/
  | whole {start : Nat} {blksize : UInt8} {frames : List (List UInt8)} {rest : List Message}
      (arrives : src.Arrives start (src.due start blksize) (List.range (src.due start blksize)) frames)
      (more : start + src.due start blksize < src.count)
      (later : Streams config checked (start + src.due start blksize)
        (src.asked config (start + src.due start blksize)) rest) :
      Streams config checked start blksize
        (frames.map .received ++
          .offered (.blockUploadAck (UInt8.ofNat (src.due start blksize))
            (src.asked config (start + src.due start blksize))) :: rest)
  /-- the last block arrives as it was sent, and the server reports the padding and the checksum -/
  | final {start : Nat} {blksize : UInt8} {frames : List (List UInt8)} {last : List UInt8} {sum : UInt16}
      (arrives : src.Arrives start (src.due start blksize) (List.range (src.due start blksize)) frames)
      (done : start + src.due start blksize = src.count)
      (closed : Response.parse last = .ok (.blockUploadEnd src.padding.length sum))
      (summed : checked = true → sum = Checksum.crc16 src.payload) :
      Streams config checked start blksize
        (frames.map .received ++
          [.offered (.blockUploadAck (UInt8.ofNat (src.due start blksize)) (src.asked config src.count)),
            .received last, .offered .blockUploadEnd])

/-- a whole conversation about `id` -/
def Conversation (config : Config) (id : ObjectId) (messages : List Message) : Prop :=
  ∃ first crc rest, Response.parse first = .ok (.blockUploadInitiate id.mux crc src.size) ∧
    src.Streams config (config.crc && crc) 0 config.blockSize rest ∧
    messages = .received first :: .offered .blockUploadStart :: rest

theorem length_stream : src.stream.length = 7 * src.count ∧ 0 < src.count := by
  have hlength : src.stream.length = src.payload.length + finalPadding src.payload.length := by
    rw [stream, List.length_append, src.padded]
  have hdivides : 7 ∣ src.stream.length ∧ 0 < src.stream.length := by
    rw [hlength]
    unfold finalPadding Wire.segmentSize
    split <;> omega
  unfold count
  omega

/-- `k` segments from `start` on are the next `7 * k` octets of the stream -/
theorem octets_segments {start k : Nat} (h : start + k ≤ src.count) :
    octetsOf ((List.range k).map (src.segment start)) = (src.stream.drop (7 * start)).take (7 * k) := by
  have hle : 7 * k ≤ (src.stream.drop (7 * start)).length := by
    rw [List.length_drop, src.length_stream.1]
    omega
  rw [← Wire.toList_padded_of_le hle, ← Wire.padded_chunks, octetsOf, List.flatMap_map]
  simp only [segment, List.drop_drop, Nat.mul_add]

/-- segments in order are exactly those numbered without a gap -/
theorem numbered_iff {start k : Nat} (hk : 0 < k) {early : List Nat} :
    Numbered ((early ++ [k - 1]).map (src.segment start)) ↔ early ++ [k - 1] = List.range k := by
  have hseqno : ((early ++ [k - 1]).map (src.segment start)).map Segment.seqno = (early ++ [k - 1]).map (1 + ·) := by
    rw [List.map_map]
    exact List.map_congr_left fun i _ => Nat.add_comm i 1
  unfold Numbered
  rw [hseqno, List.length_map, List.range'_eq_map_range]
  constructor
  · intro h
    have hrange := List.map_injective_iff.2 (fun a b => Nat.add_left_cancel) h
    rw [List.length_append, List.length_singleton, List.range_succ] at hrange
    obtain ⟨hearly, hlast⟩ := List.append_inj' hrange rfl
    have hlength : k - 1 = early.length := List.singleton_inj.1 hlast
    have hsucc : k = early.length + 1 := by omega
    rw [hsucc, List.range_succ, hearly, Nat.add_sub_cancel, List.length_range]
  · intro h
    rw [h, List.length_range]

end Source

/-! ## The client within a block -/

namespace Reading

variable {r : Reading} {i : Intake} {data : List UInt8} {s : Segment} (config : Config)

theorem respond_segment (hp : r.phase = .block i) (hs : Segment.parse data = .ok s) (hpos : 0 < s.seqno) :
    (Active.reading r).respond config (.frame data) =
      (if i.endsWith s then r.acknowledge config (i.take s)
        else .wait (.reading { r with phase := .block (i.take s) })).turn (.reading r) := by
  rw [Active.respond, Active.reactTo_segment hp (Segment.not_abort hs hpos) hs, reaction_segment]

/-- octets as many as announced pass the check of the size; an announced 0 says nothing -/
theorem size_agrees {size : Option UInt32} {length : Nat} (hsize : r.size = (size.map UInt32.toNat).getD 0)
    (h : ∀ n, size = some n → n ≠ 0 → n.toNat = length) : ¬(r.size ≠ 0 ∧ length ≠ r.size) := by
  rintro ⟨hnonzero, hdiffers⟩
  cases hs : size with
  | none => exact hnonzero (by rw [hsize, hs]; rfl)
  | some n =>
    have hannounced : r.size = n.toNat := by rw [hsize, hs]; rfl
    refine hdiffers (hannounced.trans (h n hs ?_)).symm
    rintro rfl
    exact hnonzero hannounced

/-- the frame that ends an upload -/
theorem respond_ended {checked : Bool} {unused : Nat} {sum : UInt16} (hp : r.phase = .blockEnd checked)
    (hread : Response.parse data = .ok (.blockUploadEnd unused sum)) :
    (Active.reading r).respond config (.frame data) =
      (r.blocksEnded checked unused sum).reaction.turn (.reading r) := by
  have hs : (Active.reading r).streaming? = none := by simp [Active.streaming?, hp]
  rw [Active.respond, Active.reactTo_response hread (fun _ _ => Response.noConfusion) hs, Active.answer,
    reaction_answer, hp]

/-- segments that do not end a block -/
theorem listen_within {frames : List (List UInt8)} {early segments : List Segment} (hp : r.phase = .block i)
    (hi : Collected i early) (hread : frames.map Segment.parse = segments.map .ok)
    (hearly : ∀ s ∈ segments, 0 < s.seqno ∧ i.endsWith s = false) :
    ∃ i', Collected i' (early ++ segments) ∧ i'.crc = i.crc ∧ i'.blksize = i.blksize ∧
      (Active.reading r).listen config frames =
        ⟨frames.map .received, .goesOn (.reading { r with phase := .block i' })⟩ := by
  induction frames generalizing r i early segments with
  | nil =>
    have hnone : segments = [] := List.map_eq_nil_iff.1 hread.symm
    subst hnone
    refine ⟨i, by rwa [List.append_nil], rfl, rfl, ?_⟩
    rw [← hp]
    rfl
  | cons data frames ih =>
    cases segments with
    | nil => cases hread
    | cons s segments =>
      obtain ⟨hs, hrest⟩ := List.cons_eq_cons.1 hread
      obtain ⟨hpos, hends⟩ := hearly s List.mem_cons_self
      have hends' : ∀ s' ∈ segments, 0 < s'.seqno ∧ (i.take s).endsWith s' = false := by
        intro s' hs'
        rw [Intake.endsWith, (i.take_spec s).2]
        exact hearly s' (List.mem_cons_of_mem s hs')
      obtain ⟨i', hi', hcrc, hblksize, hlisten⟩ :=
        ih (r := { r with phase := .block (i.take s) }) rfl (hi.take s) hrest hends'
      refine ⟨i', by simpa using hi', hcrc.trans (i.take_spec s).1, hblksize.trans (i.take_spec s).2, ?_⟩
      rw [Active.listen, respond_segment config hp hs hpos, hends]
      simp only [Bool.false_eq_true, if_false, Reaction.turn, hlisten]
      rfl

/-- a whole block: the last segment makes the client acknowledge it -/
theorem listen_block {frames : List (List UInt8)} {segments : List Segment} {blksize : Nat} {crc : Bool}
    (hp : r.phase = .block { blksize, crc }) (hread : frames.map Segment.parse = segments.map .ok)
    (hearly : ∀ s ∈ segments, 0 < s.seqno ∧ s.last = false ∧ s.seqno < blksize)
    (hs : Segment.parse data = .ok s) (hpos : 0 < s.seqno) (hlast : s.last = true ∨ blksize ≤ s.seqno) :
    ∃ i', Collected i' (segments ++ [s]) ∧ i'.crc = crc ∧
      (Active.reading r).listen config (frames ++ [data]) =
        ⟨(frames ++ [data]).map .received ++
            [.offered (.blockUploadAck (UInt8.ofNat (if i'.gap then 0 else i'.seqno))
              (UInt8.ofNat ((r.gathered i').nextBlockSize config)))],
          .goesOn (.reading { r.gathered i' with
            phase := if !i'.gap && i'.lastReceived then .blockEnd i'.crc
              else .block { blksize := (r.gathered i').nextBlockSize config, crc := i'.crc } })⟩ := by
  obtain ⟨i, hi, hcrc, hblksize, hlisten⟩ := listen_within config hp (collected_nil blksize crc) hread
    (fun s hs => by
      obtain ⟨hpos, hnot, hlt⟩ := hearly s hs
      exact ⟨hpos, by simp [Intake.endsWith, hnot, hlt]⟩)
  have hends : i.endsWith s = true := by
    rw [Intake.endsWith, hblksize]
    simpa using hlast
  refine ⟨i.take s, by simpa using hi.take s, (i.take_spec s).1.trans hcrc, ?_⟩
  rw [Active.listen_append hlisten, Active.listen, respond_segment config rfl hs hpos, hends, if_pos rfl,
    acknowledge_eq]
  simp only [Reaction.turn, Active.listen]
  rw [List.map_append, List.append_assoc]
  rfl

end Reading

/-! ## The client in a conversation -/

namespace Source

variable {src : Source} {checked : Bool} {r : Reading} {start : Nat} {blksize : UInt8} (config : Config)

theorem nextBlockSize_eq (hsize : r.size = (src.size.map UInt32.toNat).getD 0) (hdata : r.data.length = 7 * start) :
    r.nextBlockSize config = (src.asked config start).toNat := by
  unfold Reading.nextBlockSize asked
  cases hs : src.size with
  | none => simp [hsize, hs]
  | some n =>
    by_cases hn : n = 0
    · simp [hsize, hs, hn]
    · have hsome : r.size = src.payload.length := by
        rw [hsize, hs]
        exact src.sized n hs hn
      have hnonzero : r.size ≠ 0 := by
        rw [hsize, hs]
        exact fun hz => hn (UInt32.toNat_inj.1 hz)
      have hsmall : blockSizeFor (src.payload.length - 7 * start) config.blockSize < 256 :=
        (blockSizeFor_bounds _ _).2.trans_lt (by decide)
      rw [if_neg hnonzero, Option.getD_some, if_neg hn, UInt8.toNat_ofNat', Nat.mod_eq_of_lt hsmall, hsome, hdata]

theorem asked_pos (hpos : 1 ≤ config.blockSize.toNat) : 1 ≤ (src.asked config start).toNat := by
  unfold asked
  split
  · exact hpos
  · obtain ⟨hleast, hmost⟩ := blockSizeFor_bounds (src.payload.length - 7 * start) config.blockSize
    rw [UInt8.toNat_ofNat', Nat.mod_eq_of_lt (hmost.trans_lt (by decide))]
    exact hleast

/-- a client that has taken in `start` segments and waits for the next block -/
structure Awaits (src : Source) (r : Reading) (start : Nat) : Prop where
  size : r.size = (src.size.map UInt32.toNat).getD 0
  data : r.data = src.stream.take (7 * start)
  start : start ≤ src.count

theorem Awaits.length (h : src.Awaits r start) : r.data.length = 7 * start := by
  have hlength := src.length_stream.1
  have hstart := h.start
  rw [h.data, List.length_take, hlength]
  omega

theorem due_pos (hstart : start < src.count) (hpos : 1 ≤ blksize.toNat) : 0 < src.due start blksize := by
  unfold due
  omega

/-- the client takes in what arrives of a block and acknowledges it with the last segment -/
theorem listen_arrived (hp : r.phase = .block { blksize := blksize.toNat, crc := checked }) (hstart : start < src.count)
    (hpos : 1 ≤ blksize.toNat) {numbers : List Nat} {frames : List (List UInt8)}
    (arrives : src.Arrives start (src.due start blksize) numbers frames) :
    ∃ i, Collected i (numbers.map (src.segment start)) ∧ i.crc = checked ∧
      (i.gap = false ↔ numbers = List.range (src.due start blksize)) ∧
      (Active.reading r).listen config frames =
        ⟨frames.map .received ++
            [.offered (.blockUploadAck (UInt8.ofNat (if i.gap then 0 else i.seqno))
              (UInt8.ofNat ((r.gathered i).nextBlockSize config)))],
          .goesOn (.reading { r.gathered i with
            phase := if !i.gap && i.lastReceived then .blockEnd i.crc
              else .block { blksize := (r.gathered i).nextBlockSize config, crc := i.crc } })⟩ := by
  have hdue := due_pos hstart hpos
  have hk : src.due start blksize = min blksize.toNat (src.count - start) := rfl
  generalize src.due start blksize = k at arrives hdue hk ⊢
  obtain ⟨hread, early, rfl, hearly⟩ := arrives
  rw [List.map_append] at hread
  obtain ⟨before, lasts, rfl, hbefore, hlasts⟩ := List.map_eq_append_iff.1 hread
  obtain ⟨data, rfl, hdata⟩ := List.map_eq_singleton_iff.1 hlasts
  have hsegments : before.map Segment.parse = (early.map (src.segment start)).map .ok := by
    rw [hbefore, List.map_map]
    rfl
  have hwithin : ∀ s ∈ early.map (src.segment start), 0 < s.seqno ∧ s.last = false ∧ s.seqno < blksize.toNat := by
    intro s hs
    obtain ⟨j, hj, rfl⟩ := List.mem_map.1 hs
    have := hearly j hj
    refine ⟨Nat.succ_pos j, decide_eq_false ?_, ?_⟩
    · omega
    · simp only [segment]
      omega
  have hlast : (src.segment start (k - 1)).last = true ∨ blksize.toNat ≤ (src.segment start (k - 1)).seqno := by
    simp only [segment, decide_eq_true_eq]
    omega
  obtain ⟨i, hi, hcrc, hlisten⟩ :=
    Reading.listen_block config hp hsegments hwithin hdata (Nat.succ_pos _) hlast
  rw [← List.map_singleton, ← List.map_append] at hi
  refine ⟨i, hi, hcrc, ?_, hlisten⟩
  rw [hi.gap, Bool.not_eq_false', decide_eq_true_iff]
  exact src.numbered_iff hdue

/-- a broken block leaves the client where it was -/
theorem listen_broken (h : src.Awaits r start) (hp : r.phase = .block { blksize := blksize.toNat, crc := checked })
    (hstart : start < src.count) (hpos : 1 ≤ blksize.toNat) {numbers : List Nat} {frames : List (List UInt8)}
    (arrives : src.Arrives start (src.due start blksize) numbers frames)
    (gap : numbers ≠ List.range (src.due start blksize)) :
    (Active.reading r).listen config frames =
      ⟨frames.map .received ++ [.offered (.blockUploadAck 0 (src.asked config start))],
        .goesOn (.reading { r with
          phase := .block { blksize := (src.asked config start).toNat, crc := checked } })⟩ := by
  obtain ⟨i, -, hcrc, hgap, hlisten⟩ := listen_arrived config hp hstart hpos arrives
  have hgap : i.gap = true := by simpa using mt hgap.1 gap
  have hgathered : r.gathered i = r := by simp [Reading.gathered, hgap]
  rw [hlisten, hgathered, hgap, nextBlockSize_eq config h.size h.length, UInt8.ofNat_toNat, hcrc]
  rfl

/-- a whole block takes the client on -/
theorem listen_whole (h : src.Awaits r start) (hp : r.phase = .block { blksize := blksize.toNat, crc := checked })
    (hstart : start < src.count) (hpos : 1 ≤ blksize.toNat) {frames : List (List UInt8)}
    (arrives : src.Arrives start (src.due start blksize) (List.range (src.due start blksize)) frames) :
    ∃ r', src.Awaits r' (start + src.due start blksize) ∧ r'.target = r.target ∧
      r'.phase = (if start + src.due start blksize = src.count then .blockEnd checked
        else .block { blksize := (src.asked config (start + src.due start blksize)).toNat, crc := checked }) ∧
      (Active.reading r).listen config frames =
        ⟨frames.map .received ++
            [.offered (.blockUploadAck (UInt8.ofNat (src.due start blksize))
              (src.asked config (start + src.due start blksize)))],
          .goesOn (.reading r')⟩ := by
  obtain ⟨i, hi, hcrc, hgap, hlisten⟩ := listen_arrived config hp hstart hpos arrives
  have hdue := due_pos hstart hpos
  have hle : start + src.due start blksize ≤ src.count := by
    unfold due
    omega
  generalize src.due start blksize = k at hi hgap hdue hle ⊢
  have hgap : i.gap = false := hgap.2 rfl
  have hnumbered : Numbered ((List.range k).map (src.segment start)) := by simpa [hi.gap] using hgap
  have hseqno : i.seqno = k := by
    rw [hi.seqno hnumbered, List.length_map, List.length_range]
  have hlast : i.lastReceived = decide (start + k = src.count) := by
    obtain ⟨j, rfl⟩ := Nat.exists_eq_succ_of_ne_zero hdue.ne'
    rw [hi.lastReceived hnumbered, Nat.succ_eq_add_one, List.range_succ]
    simp [segment, Nat.add_assoc]
  have hdata : (r.gathered i).data = src.stream.take (7 * (start + k)) := by
    simp only [Reading.gathered, hgap, Bool.false_eq_true, if_false]
    rw [hi.block hnumbered, src.octets_segments hle, h.data, Nat.mul_add, List.take_add]
  have hawaits : src.Awaits (r.gathered i) (start + k) := ⟨h.size, hdata, hle⟩
  have hasked := nextBlockSize_eq config hawaits.size hawaits.length
  refine ⟨{ r.gathered i with
      phase := if start + k = src.count then .blockEnd checked
        else .block { blksize := (src.asked config (start + k)).toNat, crc := checked } },
    ⟨hawaits.size, hawaits.data, hawaits.start⟩, rfl, rfl, hlisten.trans ?_⟩
  rw [hasked, UInt8.ofNat_toNat, hgap, hseqno, hcrc, hlast]
  simp only [Bool.not_false, Bool.true_and, decide_eq_true_eq, Bool.false_eq_true, if_false]

/-- the frame that ends the upload, once all segments are acknowledged -/
theorem listen_closed (h : src.Awaits r src.count) (hp : r.phase = .blockEnd checked)
    (hdomain : r.target.type = .domain) {last : List UInt8} {sum : UInt16}
    (closed : Response.parse last = .ok (.blockUploadEnd src.padding.length sum))
    (summed : checked = true → sum = Checksum.crc16 src.payload) :
    (Active.reading r).listen config [last] =
      ⟨[.received last, .offered .blockUploadEnd], .ends (.completed (some (.octets src.payload)))⟩ := by
  have hkept : r.data.take (r.data.length - src.padding.length) = src.payload := by
    rw [h.length, h.data, ← src.length_stream.1, List.take_length, stream, List.length_append, Nat.add_sub_cancel]
    exact List.take_left' rfl
  have hsized : ¬(r.size ≠ 0 ∧ src.payload.length ≠ r.size) :=
    Reading.size_agrees h.size src.sized
  have hsummed : ¬(checked && decide (Checksum.crc16 src.payload ≠ sum)) = true := by
    intro hc
    obtain ⟨hchecked, hdiffers⟩ := Bool.and_eq_true_iff.1 hc
    exact of_decide_eq_true hdiffers (summed hchecked).symm
  have hsuffices : Reading.Suffices r.target src.payload := by
    intro needed hneeded
    rw [hdomain] at hneeded
    cases hneeded
  have hreaction : (r.blocksEnded checked src.padding.length sum).reaction =
      .finish (some (.octets src.payload)) (some .blockUploadEnd) := by
    rw [Reading.reaction_blocksEnded, hkept, if_neg hsized, if_neg hsummed, Reading.reaction_finish, if_pos hsuffices,
      hdomain]
    rfl
  rw [Active.listen, Reading.respond_ended config hp closed, hreaction]
  rfl

/-- the client keeps up its side of the conversation, and ends with the payload -/
theorem Streams.listen {messages : List Message} (h : src.Streams config checked start blksize messages)
    (hawaits : src.Awaits r start) (hp : r.phase = .block { blksize := blksize.toNat, crc := checked })
    (hdomain : r.target.type = .domain) (hstart : start < src.count) (hpos : 1 ≤ blksize.toNat)
    (hconfig : 1 ≤ config.blockSize.toNat) :
    (Active.reading r).listen config (heard messages) =
      ⟨messages, .ends (.completed (some (.octets src.payload)))⟩ := by
  induction h generalizing r with
  | broken arrives gap later ih =>
    have hbroken := listen_broken config hawaits hp hstart hpos arrives gap
    have hlater := ih (r := { r with phase := .block { blksize := (src.asked config _).toNat, crc := checked } })
      ⟨hawaits.size, hawaits.data, hawaits.start⟩ rfl hdomain hstart (asked_pos config hconfig)
    rw [heard_append, heard_received, heard_cons_offered, Active.listen_append hbroken, hlater]
    simp only [List.append_assoc, List.singleton_append]
  | whole arrives more later ih =>
    obtain ⟨r', hawaits', htarget, hphase, hwhole⟩ := listen_whole config hawaits hp hstart hpos arrives
    rw [if_neg more.ne] at hphase
    have hlater := ih hawaits' hphase (htarget ▸ hdomain) more (asked_pos config hconfig)
    rw [heard_append, heard_received, heard_cons_offered, Active.listen_append hwhole, hlater]
    simp only [List.append_assoc, List.singleton_append]
  | final arrives done closed summed =>
    obtain ⟨r', hawaits', htarget, hphase, hwhole⟩ := listen_whole config hawaits hp hstart hpos arrives
    rw [if_pos done] at hphase
    rw [done] at hawaits' hwhole
    have hclosed := listen_closed config hawaits' hphase (htarget ▸ hdomain) closed summed
    rw [heard_append, heard_received, heard_cons_offered]
    refine (Active.listen_append hwhole [_]).trans ?_
    rw [hclosed]
    simp only [List.append_assoc, List.singleton_append]

theorem Conversation.listen {id : ObjectId} {messages : List Message} (h : src.Conversation config id messages)
    (hid : id.usesBlocks = true) (hconfig : 1 ≤ config.blockSize.toNat) :
    (Transfer.begin config ⟨id, .read⟩).1.listen config (heard messages) =
      ⟨messages, .ends (.completed (some (.octets src.payload)))⟩ := by
  obtain ⟨first, crc, rest, hfirst, hstreams, rfl⟩ := h
  have hdomain : id.type = .domain := by simpa [ObjectId.usesBlocks] using hid
  let opened : Reading :=
    { target := id
      size := (src.size.map UInt32.toNat).getD 0
      phase := .block { blksize := config.blockSize.toNat, crc := config.crc && crc } }
  have hreact : (Active.reading { target := id, phase := .blockOpening config.blockSize.toNat }).reactTo config first =
      .ask (.reading opened) .blockUploadStart := by
    rw [Active.reactTo_response hfirst (fun _ _ => Response.noConfusion) rfl, Active.answer, Reading.reaction_answer]
    simp only [if_true]
    rfl
  have hawaits : src.Awaits opened 0 := ⟨rfl, rfl, Nat.zero_le _⟩
  have hlater := hstreams.listen config hawaits rfl hdomain src.length_stream.2 hconfig hconfig
  change (Transfer.begin config ⟨id, .read⟩).1.listen config (first :: heard rest) = _
  rw [BlockUpload.begin_read config hid, Active.listen, Active.respond, hreact]
  simp only [Reaction.turn, hlater]
  rfl

end Source

namespace Engine

/-- **Reassembly of a block upload.** If an upload in blocks completes, the server opened it for this entry, every block
was acknowledged with the number of its segments if these came in order and with 0 otherwise, and what is stored are the
octets of the blocks that count, without the reported padding, of the announced size and checksum. Conversely, if a
server streams a payload and the frames of that conversation are delivered in time, then, however many blocks arrive
broken, the client keeps up its side of the conversation and the payload is stored. -/
theorem block_upload_reassembles (e : Engine) (d : Dictionary) (id : ObjectId) (os : List Occasion)
    (hid : id.usesBlocks = true) (ha : e.active = some (Transfer.begin e.config ⟨id, .read⟩).1) :
    let c := e.course d (Transfer.begin e.config ⟨id, .read⟩).1 os
    (∀ v, c.fate = .ends (.completed v) →
      ∃ u : BlockUpload, u.Sound e.config id ∧ c.messages = u.messages ∧ v = some (.octets u.octets) ∧
        c.dictionary = (d.commitValue id (some (.octets u.octets)) .upload c.endedAt).1) ∧
      (1 ≤ e.config.blockSize.toNat → e.Timely d os →
        ∀ (src : Source) (ms : List Message), src.Conversation e.config id ms → heard ms <+: e.delivered os →
          c.messages = ms ∧ c.fate = .ends (.completed (some (.octets src.payload))) ∧
            c.dictionary = (d.commitValue id (some (.octets src.payload)) .upload c.endedAt).1) := by
  intro c
  have hbegin := BlockUpload.begin_read e.config hid
  have hdictionary : ∀ v, c.fate = .ends (.completed v) → c.dictionary = (d.commitValue id v .upload c.endedAt).1 := by
    intro v hf
    have hcommit : c.dictionary = c.fate.commit c.endedAt d (Transfer.begin e.config ⟨id, .read⟩).1 :=
      course_dictionary ha os
    rw [hcommit, hf, hbegin]
    rfl
  constructor
  · intro v hf
    have hprogress := course_invariant (d := d) e.config (BlockUpload.Progress e.config id)
      (fun _ _ s h => h.respond hid s) rfl ha [] (BlockUpload.Progress.begin hid) os
    change BlockUpload.Progress e.config id c.messages c.fate at hprogress
    rw [hf] at hprogress
    obtain ⟨u, hsound, hmessages, rfl⟩ := hprogress
    exact ⟨u, hsound, hmessages, rfl, hdictionary _ hf⟩
  · intro hconfig htimely src ms hconversation hprefix
    obtain ⟨after, hdelivered⟩ := hprefix
    have hpassage : c.toPassage = ⟨ms, .ends (.completed (some (.octets src.payload)))⟩ := by
      have hreading := course_reading (d := d) (hbegin ▸ ha) htimely
      rw [← hbegin, ← hdelivered, Active.listen_append_ends (hconversation.listen e.config hid hconfig)] at hreading
      exact hreading
    obtain ⟨hmessages, hfate⟩ := Passage.mk.inj hpassage
    exact ⟨hmessages, hfate, hdictionary _ hfate⟩

/-- ten octets, announced as such -/
def countdown : Source where
  payload := [9, 8, 7, 6, 5, 4, 3, 2, 1, 0]
  padding := [0, 0, 0, 0]
  size := some 10
  padded := rfl
  sized := fun n hn _ => by
    cases hn
    rfl

def countdownId : ObjectId := ⟨0, 5, ⟨0x2001, 0⟩, .domain⟩

/-- the entry of the octets, which holds another octet and the mark of a transfer that was not answered -/
def countdownEntry : Entry :=
  { subIndex := 0, name := "countdown", type := .domain, access := { read := true }, value := some (.octets [10]),
    error := .timeout }

/-- a dictionary of node 5 with the entry -/
def countdowns : Dictionary :=
  (({ bus := 0, node := 5 } : Dictionary).insert { index := 0x2001, name := "countdowns" }).addEntry 0x2001
    countdownEntry

/-- the first segment gets lost, so that the block comes again -/
def countdownTalk : List Message :=
  [.received [0xc6, 0x01, 0x20, 0, 10, 0, 0, 0], .offered .blockUploadStart, .received [0x82, 2, 1, 0, 0, 0, 0, 0],
    .offered (.blockUploadAck 0 2), .received [0x01, 9, 8, 7, 6, 5, 4, 3], .received [0x82, 2, 1, 0, 0, 0, 0, 0],
    .offered (.blockUploadAck 2 1), .received [0xd1, 70, 102, 0, 0, 0, 0, 0], .offered .blockUploadEnd]

theorem countdown_conversation : countdown.Conversation { crc := true } countdownId countdownTalk := by
  have hlost : countdown.Arrives 0 (countdown.due 0 127) [1] [[0x82, 2, 1, 0, 0, 0, 0, 0]] :=
    ⟨rfl, [], rfl, fun _ hi => absurd hi List.not_mem_nil⟩
  have hwhole : countdown.Arrives 0 (countdown.due 0 2) (List.range (countdown.due 0 2))
      [[0x01, 9, 8, 7, 6, 5, 4, 3], [0x82, 2, 1, 0, 0, 0, 0, 0]] :=
    ⟨rfl, [0], rfl, by decide⟩
  refine ⟨_, true, _, rfl, ?_, rfl⟩
  exact .broken hlost (by decide) (.final hwhole rfl rfl fun _ => by decide +kernel)

/-- an engine that reads the octets, with a checksum -/
def readingDown : Engine :=
  { node := 5, config := { crc := true }, active := some (Transfer.begin { crc := true } ⟨countdownId, .read⟩).1 }

/-- the frames of the conversation, and ticks and a poll between them -/
def countdownRun : List Occasion :=
  .mk 0 true .tick :: (heard countdownTalk).map (fun data => .mk 1 true (.frame ⟨0x585, data⟩)) ++
    [.mk 2 true (.poll 3)]

theorem block_upload_reassembles_countdown :
    let c := readingDown.course countdowns (Transfer.begin readingDown.config ⟨countdownId, .read⟩).1 countdownRun
    countdownId.usesBlocks = true ∧ readingDown.Timely countdowns countdownRun ∧
      c.messages = countdownTalk ∧ c.fate = .ends (.completed (some (.octets [9, 8, 7, 6, 5, 4, 3, 2, 1, 0]))) ∧
      (∃ u : BlockUpload, u.Sound readingDown.config countdownId ∧ c.messages = u.messages ∧
        u.octets = [9, 8, 7, 6, 5, 4, 3, 2, 1, 0]) ∧
      c.dictionary.find? countdownId.mux = some { countdownEntry with
        value := some (.octets [9, 8, 7, 6, 5, 4, 3, 2, 1, 0])
        changedAt := some 1
        error := .none } := by
  intro c
  have htimely : readingDown.Timely countdowns countdownRun := by decide +kernel
  have hdelivered : heard countdownTalk <+: readingDown.delivered countdownRun := ⟨[], rfl⟩
  obtain ⟨hsound, hconverse⟩ := block_upload_reassembles readingDown countdowns countdownId countdownRun rfl rfl
  obtain ⟨hmessages, hfate, hstored⟩ :=
    hconverse (by decide) htimely countdown countdownTalk countdown_conversation hdelivered
  obtain ⟨u, hu, hum, hoctets, -⟩ := hsound _ hfate
  have hended : c.endedAt = 1 := by decide +kernel
  refine ⟨rfl, htimely, hmessages, hfate, ⟨u, hu, hum, (Value.octets.inj (Option.some.inj hoctets)).symm⟩, ?_⟩
  rw [hstored, hended, Dictionary.find?_commitValue, if_pos rfl]
  rfl

end Engine

end SdoClient
