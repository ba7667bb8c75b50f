/-
Block uploads, read off the messages. The server accepts the upload and streams segments; the client ends each block
with an acknowledgement. A block whose segments are numbered one after another from one counts and is acknowledged with
their number; any other block counts for nothing and is acknowledged with 0. At the end the octets of the blocks that
count are cut by the padding that the server reports.

Main statement: `Progress.respond`. Whatever the server sends, the client keeps to this, and an upload that completes
has the announced size and checksum.
-/
import Mathlib.Tactic
import SdoClient.Proofs.Course

namespace SdoClient

/-! ## Blocks as the messages show them -/

/-- the segments are numbered one after another from one -/
def Numbered (segments : List Segment) : Prop := segments.map Segment.seqno = List.range' 1 segments.length

instance (segments : List Segment) : Decidable (Numbered segments) := by
  unfold Numbered
  infer_instance

/-- the octets of segments, put together -/
def octetsOf (segments : List Segment) : List UInt8 := segments.flatMap fun s => s.data.toList

/-- a block as it came in, and how the client acknowledged it -/
structure Round where
  frames : List (List UInt8)
  segments : List Segment
  ackseq : UInt8
  blksize : UInt8

namespace Round

def messages (r : Round) : List Message :=
  r.frames.map .received ++ [.offered (.blockUploadAck r.ackseq r.blksize)]

/-- what a block contributes to the upload -/
def octets (r : Round) : List UInt8 := if r.ackseq = 0 then [] else octetsOf r.segments

/-- the segments are those of the frames, and the acknowledgement is their number if they are in order, else 0 -/
structure Sound (r : Round) : Prop where
  read : r.frames.map Segment.parse = r.segments.map .ok
  nonempty : r.segments ≠ []
  acknowledged : r.ackseq.toNat = if Numbered r.segments then r.segments.length else 0

end Round

/-- a whole block upload: the answer that opens it, its blocks, and the frame that ends it -/
structure BlockUpload where
  first : List UInt8
  crc : Bool
  size : Option UInt32
  rounds : List Round
  last : List UInt8
  unused : Nat
  sum : UInt16

namespace BlockUpload

/-- what passes before the frame that ends the upload -/
def opening (first : List UInt8) (rounds : List Round) : List Message :=
  [.received first, .offered .blockUploadStart] ++ rounds.flatMap Round.messages

def messages (u : BlockUpload) : List Message :=
  opening u.first u.rounds ++ [.received u.last, .offered .blockUploadEnd]

/-- the octets of the blocks that count, without the padding -/
def octets (u : BlockUpload) : List UInt8 :=
  (u.rounds.flatMap Round.octets).take ((u.rounds.flatMap Round.octets).length - u.unused)

/-- an upload of `id` that may complete -/
structure Sound (config : Config) (id : ObjectId) (u : BlockUpload) : Prop where
  opened : Response.parse u.first = .ok (.blockUploadInitiate id.mux u.crc u.size)
  rounds : ∀ r ∈ u.rounds, r.Sound
  closed : Response.parse u.last = .ok (.blockUploadEnd u.unused u.sum)
  sized : ∀ size, u.size = some size → size ≠ 0 → u.octets.length = size.toNat
  summed : (config.crc && u.crc) = true → Checksum.crc16 u.octets = u.sum

end BlockUpload

theorem numbered_concat (segments : List Segment) (s : Segment) :
    Numbered (segments ++ [s]) ↔ Numbered segments ∧ s.seqno = segments.length + 1 := by
  unfold Numbered
  rw [List.map_append, List.length_append, List.length_singleton, List.range'_1_concat, List.map_singleton,
    Nat.add_comm 1]
  constructor
  · intro h
    obtain ⟨hinit, hlast⟩ := List.append_inj' h rfl
    exact ⟨hinit, List.singleton_inj.1 hlast⟩
  · rintro ⟨hinit, hlast⟩
    rw [hinit, hlast]

theorem octetsOf_concat (segments : List Segment) (s : Segment) :
    octetsOf (segments ++ [s]) = octetsOf segments ++ s.data.toList := by
  simp [octetsOf]

/-- the segments read from frames are numbered in seven bits -/
theorem numbered_length {frames : List (List UInt8)} {segments : List Segment}
    (hread : frames.map Segment.parse = segments.map .ok) (h : Numbered segments) : segments.length < 128 := by
  rcases List.eq_nil_or_concat segments with rfl | ⟨init, s, rfl⟩
  · exact Nat.zero_lt_succ _
  · rw [List.concat_eq_append] at h hread ⊢
    obtain ⟨-, hs⟩ := (numbered_concat init s).1 h
    have hmem : Except.ok s ∈ frames.map Segment.parse := by
      rw [hread]
      simp
    obtain ⟨data, -, hparse⟩ := List.mem_map.1 hmem
    have hbound := Segment.seqno_of_parse hparse
    rw [List.length_append, List.length_singleton]
    omega

theorem blockSizeFor_bounds (remaining : Nat) (most : UInt8) :
    1 ≤ blockSizeFor remaining most ∧ blockSizeFor remaining most ≤ 127 := by
  simp only [blockSizeFor, Wire.segmentSize, Wire.blockMax]
  omega

/-! ## A block being taken in -/

/-- what the client knows of the segments of a block -/
structure Collected (i : Intake) (segments : List Segment) : Prop where
  gap : i.gap = !decide (Numbered segments)
  seqno : Numbered segments → i.seqno = segments.length
  block : Numbered segments → i.block = octetsOf segments
  lastReceived : Numbered segments → i.lastReceived = (segments.getLast?.map Segment.last).getD false

theorem collected_nil (blksize : Nat) (crc : Bool) : Collected { blksize, crc } [] :=
  ⟨rfl, fun _ => rfl, fun _ => rfl, fun _ => rfl⟩

theorem Collected.take {i : Intake} {segments : List Segment} (h : Collected i segments) (s : Segment) :
    Collected (i.take s) (segments ++ [s]) := by
  unfold Intake.take
  by_cases hn : Numbered segments
  · have hgap : i.gap = false := by simp [h.gap, hn]
    rw [hgap, h.seqno hn]
    by_cases hs : s.seqno = segments.length + 1
    · have hnumbered : Numbered (segments ++ [s]) := (numbered_concat segments s).2 ⟨hn, hs⟩
      simp only [Bool.false_eq_true, if_false, hs, if_true]
      refine ⟨by simp [hnumbered], fun _ => ?_, fun _ => ?_, fun _ => ?_⟩
      · rw [List.length_append, List.length_singleton]
      · rw [octetsOf_concat, h.block hn]
      · simp
    · have hbroken : ¬ Numbered (segments ++ [s]) := fun hc => hs ((numbered_concat segments s).1 hc).2
      simp only [Bool.false_eq_true, if_false, hs]
      exact ⟨by simp [hbroken], fun hc => absurd hc hbroken, fun hc => absurd hc hbroken, fun hc => absurd hc hbroken⟩
  · have hgap : i.gap = true := by simp [h.gap, hn]
    have hbroken : ¬ Numbered (segments ++ [s]) := fun hc => hn ((numbered_concat segments s).1 hc).1
    rw [if_pos hgap]
    exact ⟨by simp [hgap, hbroken], fun hc => absurd hc hbroken, fun hc => absurd hc hbroken,
      fun hc => absurd hc hbroken⟩

theorem Intake.take_spec (i : Intake) (s : Segment) : (i.take s).crc = i.crc ∧ (i.take s).blksize = i.blksize := by
  unfold take
  split
  · exact ⟨rfl, rfl⟩
  · split <;> exact ⟨rfl, rfl⟩

namespace Reading

/-- a read after a block: one with a gap adds nothing -/
def gathered (r : Reading) (i : Intake) : Reading := { r with data := if i.gap then r.data else r.data ++ i.block }

theorem acknowledge_eq (r : Reading) (config : Config) (i : Intake) :
    r.acknowledge config i =
      .ask (.reading { r.gathered i with
          phase := if !i.gap && i.lastReceived then .blockEnd i.crc
            else .block { blksize := (r.gathered i).nextBlockSize config, crc := i.crc } })
        (.blockUploadAck (UInt8.ofNat (if i.gap then 0 else i.seqno))
          (UInt8.ofNat ((r.gathered i).nextBlockSize config))) := by
  unfold acknowledge gathered
  cases i.gap <;> rfl

end Reading

/-! ## The invariant -/

namespace BlockUpload

/-- a block upload after some rounds, with the segments of the next one that came so far -/
def Underway (config : Config) (id : ObjectId) (messages : List Message) (r : Reading) (checked : Bool)
    (segments : List Segment) : Prop :=
  ∃ (first : List UInt8) (crc : Bool) (size : Option UInt32) (rounds : List Round) (frames : List (List UInt8)),
    Response.parse first = .ok (.blockUploadInitiate id.mux crc size) ∧ (∀ b ∈ rounds, b.Sound) ∧
      frames.map Segment.parse = segments.map .ok ∧
      messages = opening first rounds ++ frames.map .received ∧
      r.size = (size.map UInt32.toNat).getD 0 ∧ r.data = rounds.flatMap Round.octets ∧
      checked = (config.crc && crc)

/-- what a block upload keeps, by its phase -/
def Progress (config : Config) (id : ObjectId) (messages : List Message) : Fate → Prop
  | .goesOn (.reading r) =>
    r.target = id ∧
      match r.phase with
      | .blockOpening _ => messages = []
      | .block i => ∃ segments, Underway config id messages r i.crc segments ∧ Collected i segments
      | .blockEnd checked => Underway config id messages r checked []
      | _ => False
  | .goesOn (.writing _) => False
  | .ends (.completed v) => ∃ u : BlockUpload, u.Sound config id ∧ messages = u.messages ∧ v = some (.octets u.octets)
  | .ends _ => True

variable {config : Config} {id : ObjectId} {messages : List Message} {r : Reading}

theorem begin_read (config : Config) (hid : id.usesBlocks = true) :
    (Transfer.begin config ⟨id, .read⟩).1 =
      .reading { target := id, phase := .blockOpening config.blockSize.toNat } := by
  simp only [Transfer.begin, hid, if_true]

/-- a segment within a block -/
theorem Underway.receive {checked : Bool} {segments : List Segment}
    (h : Underway config id messages r checked segments) {data : List UInt8} {s : Segment}
    (hs : Segment.parse data = .ok s) (phase : ReadPhase) :
    Underway config id (messages ++ [.received data]) { r with phase } checked (segments ++ [s]) := by
  obtain ⟨first, crc, size, rounds, frames, hfirst, hrounds, hread, rfl, hsize, hdata, hchecked⟩ := h
  refine ⟨first, crc, size, rounds, frames ++ [data], hfirst, hrounds, ?_, ?_, hsize, hdata, hchecked⟩
  · rw [List.map_append, List.map_append, hread, List.map_singleton, List.map_singleton, hs]
  · rw [List.map_append, List.append_assoc]
    rfl

/-- the acknowledgement of a block -/
theorem Underway.acknowledge {i : Intake} {segments : List Segment}
    (h : Underway config id messages r i.crc segments) (hi : Collected i segments)
    (hne : segments ≠ []) (blksize : UInt8) (phase : ReadPhase) :
    Underway config id
      (messages ++ [.offered (.blockUploadAck (UInt8.ofNat (if i.gap then 0 else i.seqno)) blksize)])
      { r.gathered i with phase } i.crc [] := by
  obtain ⟨first, crc, size, rounds, frames, hfirst, hrounds, hread, rfl, hsize, hdata, hchecked⟩ := h
  let b : Round := ⟨frames, segments, UInt8.ofNat (if i.gap then 0 else i.seqno), blksize⟩
  have hsound : b.Sound ∧ (r.gathered i).data = r.data ++ b.octets := by
    by_cases hn : Numbered segments
    · have hgap : i.gap = false := by simp [hi.gap, hn]
      have hbound := numbered_length hread hn
      have hack : b.ackseq.toNat = segments.length := by
        simp only [b, hgap, Bool.false_eq_true, if_false, hi.seqno hn, UInt8.toNat_ofNat']
        omega
      have hpos : b.ackseq ≠ 0 := by
        intro hz
        rw [hz] at hack
        exact hne (List.length_eq_zero_iff.1 hack.symm)
      refine ⟨⟨hread, hne, by rw [hack, if_pos hn]⟩, ?_⟩
      simp only [Reading.gathered, hgap, Bool.false_eq_true, if_false, hi.block hn, Round.octets, hpos]
      rfl
    · have hgap : i.gap = true := by simp [hi.gap, hn]
      have hack : b.ackseq = 0 := by simp [b, hgap]
      refine ⟨⟨hread, hne, by rw [hack, if_neg hn]; rfl⟩, ?_⟩
      simp [Reading.gathered, hgap, Round.octets, hack]
  refine ⟨first, crc, size, rounds ++ [b], [], hfirst, ?_, rfl, ?_, hsize, ?_, hchecked⟩
  · intro b' hb
    rcases List.mem_append.1 hb with hb | hb
    · exact hrounds b' hb
    · rw [List.mem_singleton.1 hb]
      exact hsound.1
  · simp [opening, Round.messages, b]
  · rw [List.flatMap_append, List.flatMap_singleton, ← hdata]
    exact hsound.2

namespace Progress

/-- an upload that fails has nothing to show -/
theorem aborted (code : AbortCode) (s : Stimulus) :
    Progress config id (messages ++ ((Reaction.abort code).turn (.reading r)).messages s)
      ((Reaction.abort code).turn (.reading r)).fate := trivial

/-- a segment of the block that streams -/
theorem segment (h : Progress config id messages (.goesOn (.reading r))) {i : Intake} (hp : r.phase = .block i)
    {data : List UInt8} {s : Segment} (hs : Segment.parse data = .ok s) :
    Progress config id (messages ++ ((r.segment config i s).reaction.turn (.reading r)).messages (.frame data))
      ((r.segment config i s).reaction.turn (.reading r)).fate := by
  obtain ⟨htarget, hphase⟩ := h
  rw [hp] at hphase
  obtain ⟨segments, hunderway, hcollected⟩ := hphase
  have htaken := hcollected.take s
  rw [Reading.reaction_segment]
  split
  · have hreceived := hunderway.receive hs r.phase
    rw [← (i.take_spec s).1] at hreceived
    have hne : segments ++ [s] ≠ [] := by simp
    rw [Reading.acknowledge_eq]
    have hnext := hreceived.acknowledge htaken (List.append_ne_nil_of_right_ne_nil _ (List.cons_ne_nil s []))
      (UInt8.ofNat ((r.gathered (i.take s)).nextBlockSize config))
    rw [List.append_assoc] at hnext
    refine ⟨htarget, ?_⟩
    by_cases hlast : (!(i.take s).gap && (i.take s).lastReceived) = true
    · simp only [hlast, if_true]
      exact hnext _
    · simp only [hlast]
      exact ⟨[], hnext _, collected_nil _ _⟩
  · have hreceived := hunderway.receive hs (.block (i.take s))
    rw [← (i.take_spec s).1] at hreceived
    exact ⟨htarget, segments ++ [s], hreceived, htaken⟩

/-- the frame that ends the upload -/
theorem ended (hid : id.usesBlocks = true) (h : Progress config id messages (.goesOn (.reading r))) {checked : Bool}
    (hp : r.phase = .blockEnd checked) {data : List UInt8} {unused : Nat} {sum : UInt16}
    (hend : Response.parse data = .ok (.blockUploadEnd unused sum)) :
    Progress config id
      (messages ++ ((r.blocksEnded checked unused sum).reaction.turn (.reading r)).messages (.frame data))
      ((r.blocksEnded checked unused sum).reaction.turn (.reading r)).fate := by
  obtain ⟨rfl, hphase⟩ := h
  rw [hp] at hphase
  obtain ⟨first, crc, size, rounds, frames, hfirst, hrounds, hread, rfl, hsize, hdata, rfl⟩ := hphase
  have hdomain : r.target.type = .domain := by simpa [ObjectId.usesBlocks] using hid
  have hnone : frames = [] := List.map_eq_nil_iff.1 hread
  subst hnone
  rw [Reading.reaction_blocksEnded]
  split
  · exact aborted _ (.frame data)
  rename_i hsized
  split
  · exact aborted _ (.frame data)
  rename_i hsummed
  rw [Reading.reaction_finish]
  split
  · refine ⟨⟨first, crc, size, rounds, data, unused, sum⟩, ⟨hfirst, hrounds, hend, ?_, ?_⟩, ?_, ?_⟩
    · intro declared hdeclared hne
      have hdeclared : size = some declared := hdeclared
      have hnonzero : r.size ≠ 0 := by
        rw [hsize, hdeclared]
        exact fun hz => hne (UInt32.toNat_inj.1 hz)
      by_contra hlength
      refine hsized ⟨hnonzero, fun hc => hlength ?_⟩
      rw [hdata, hsize, hdeclared] at hc
      exact hc
    · intro hchecked
      by_contra hsum
      refine hsummed ?_
      rw [hdata]
      exact Bool.and_eq_true_iff.2 ⟨hchecked, decide_eq_true hsum⟩
    · simp [BlockUpload.messages, Turn.messages, Stimulus.heard, Reaction.turn]
    · simp only [hdomain, Value.decode, octets, hdata]
  · exact aborted _ (.frame data)

/-- a response of the server -/
theorem answered (hid : id.usesBlocks = true) (h : Progress config id messages (.goesOn (.reading r)))
    {data : List UInt8} {response : Response} (hp : Response.parse data = .ok response) :
    Progress config id
      (messages ++ ((r.answer config response).reaction.turn (.reading r)).messages (.frame data))
      ((r.answer config response).reaction.turn (.reading r)).fate := by
  rw [Reading.reaction_answer]
  have hphase := h.2
  split <;> rename_i hr <;> try rw [hr] at hphase
  · exact hphase.elim
  · exact hphase.elim
  · split
    · rename_i hmux
      rw [Reading.reaction_blocksOpened]
      obtain ⟨rfl, -⟩ := h
      subst hmux hphase
      refine ⟨rfl, [], ⟨data, _, _, [], [], hp, fun b hb => absurd hb List.not_mem_nil, rfl, rfl, rfl, rfl, rfl⟩,
        collected_nil _ _⟩
    · exact aborted _ (.frame data)
  · exact h.ended hid hr hp
  · exact aborted _ (.frame data)

/-- **Step lemma.** Every turn of a block upload keeps what its messages say. -/
theorem respond (hid : id.usesBlocks = true) {a : Active} (h : Progress config id messages (.goesOn a))
    (s : Stimulus) : Progress config id (messages ++ (a.respond config s).messages s) (a.respond config s).fate := by
  cases a with
  | writing w => exact h.elim
  | reading r =>
    cases s with
    | lapse => exact aborted .timeout .lapse
    | tick ready => simpa [Active.respond, Active.paced, Turn.messages, Stimulus.heard] using h
    | frame data =>
      rw [Active.respond]
      rcases (Active.reading r).reactTo_cases config data with ⟨code, ha⟩ | ⟨mux, code, -, ha⟩ | ⟨response, hp, ha⟩ |
        ⟨r', i, segment, hr, hp, hsegment, ha⟩ <;> rw [ha]
      · exact aborted _ (.frame data)
      · exact trivial
      · exact h.answered hid hp
      · cases hr
        exact h.segment hp hsegment

theorem begin (hid : id.usesBlocks = true) :
    Progress config id [] (.goesOn (Transfer.begin config ⟨id, .read⟩).1) := by
  rw [begin_read config hid]
  exact ⟨rfl, rfl⟩

end Progress

end BlockUpload

end SdoClient
