/-
What a client says. The requests offered for one transfer, from the moment it leaves the queue until it ends, are a word
of the protocol: the initiate request, what the kind of transfer has next, and perhaps an abort at the end.

Main statement: `requests_grammatical`. Whatever an engine meets, the requests that it offers are, cut before every
initiate request, one word for each transfer in the order of service, and all of them go out in frames of eight octets
under the identifier of the node.
-/
import Mathlib.Data.List.SplitBy
import Mathlib.Tactic
import SdoClient.Node
import SdoClient.Proofs.BlockUpload
import SdoClient.Proofs.SegmentedDownload
import SdoClient.Proofs.Service

namespace SdoClient

open Upload (Part Alternating toggleOf toggleOf_succ alternating_concat)

/-! ## The grammar -/

/-- the request opens a transfer -/
def Request.initiates : Request → Bool
  | initiateUpload _ | initiateDownloadExpedited _ _ _ | initiateDownload _ _ | blockUploadInitiate _ _ _ _
  | blockDownloadInitiate _ _ _ => true
  | _ => false

/-- the request for the next segment after `i` others -/
def segmentRequest (i : Nat) : Request := .uploadSegment (toggleOf i)

/-- the acknowledgement of a block of an upload -/
def ackRequest (x : UInt8 × UInt8) : Request := .blockUploadAck x.1 x.2

/-- the request that offers a segment of a block -/
def SentSegment.request (s : SentSegment) : Request := .blockDownloadSegment s.seqno s.data s.last

/-- what a client may say for a transfer, but for an abort -/
inductive Sentence : Transfer → List Request → Prop
  | upload {id : ObjectId} (plain : id.usesBlocks = false) (n : Nat) :
      Sentence ⟨id, .read⟩ (.initiateUpload id.mux :: (List.range n).map segmentRequest)
  | blockUpload {id : ObjectId} (blocks : id.usesBlocks = true) (blksize pst : UInt8) (crc : Bool) :
      Sentence ⟨id, .read⟩ [.blockUploadInitiate id.mux blksize pst crc]
  | blockUploadStarted {id : ObjectId} (blocks : id.usesBlocks = true) (blksize pst : UInt8) (crc : Bool)
      (acks : List (UInt8 × UInt8)) :
      Sentence ⟨id, .read⟩ (.blockUploadInitiate id.mux blksize pst crc :: .blockUploadStart :: acks.map ackRequest)
  | blockUploadEnded {id : ObjectId} (blocks : id.usesBlocks = true) (blksize pst : UInt8) (crc : Bool)
      (acks : List (UInt8 × UInt8)) :
      Sentence ⟨id, .read⟩
        (.blockUploadInitiate id.mux blksize pst crc :: .blockUploadStart :: acks.map ackRequest ++ [.blockUploadEnd])
  | expedited {id : ObjectId} {v : Value} {payload : List UInt8} (plain : id.usesBlocks = false)
      (short : Download.Expedited payload) (data : Vector UInt8 4) (len : UInt8) :
      Sentence ⟨id, .write v payload⟩ [.initiateDownloadExpedited id.mux data len]
  | download {id : ObjectId} {v : Value} {payload : List UInt8} (plain : id.usesBlocks = false)
      (long : ¬Download.Expedited payload) (size : UInt32) {parts : List Part} (alternating : Alternating parts)
      (unfinished : ∀ p ∈ parts.dropLast, p.last = false) :
      Sentence ⟨id, .write v payload⟩ (.initiateDownload id.mux size :: parts.map Download.request)
  | blockDownload {id : ObjectId} {v : Value} {payload : List UInt8} (blocks : id.usesBlocks = true) (size : UInt32)
      (crc : Bool) (segments : List SentSegment) :
      Sentence ⟨id, .write v payload⟩
        (.blockDownloadInitiate id.mux size crc :: segments.map SentSegment.request)
  | blockDownloadEnded {id : ObjectId} {v : Value} {payload : List UInt8} (blocks : id.usesBlocks = true)
      (size : UInt32) (crc : Bool) (segments : List SentSegment) (unused : UInt8) (sum : UInt16) :
      Sentence ⟨id, .write v payload⟩
        (.blockDownloadInitiate id.mux size crc :: segments.map SentSegment.request ++ [.blockDownloadEnd unused sum])

/-- a sentence, whole or broken off with an abort; nothing follows the end of a block upload -/
inductive Word (t : Transfer) : List Request → Prop
  | whole {w : List Request} (h : Sentence t w) : Word t w
  | aborted {w : List Request} (h : Sentence t w) (unended : .blockUploadEnd ∉ w) (code : AbortCode) :
      Word t (w ++ [.abort t.target.mux code])

/-! ## Words begin with an initiate request, and nowhere else -/

/-- requests that open nothing -/
def Inner (w : List Request) : Prop := ∀ r ∈ w, r.initiates = false

theorem inner_map {α : Type} {f : α → Request} (hf : ∀ x, (f x).initiates = false) (l : List α) : Inner (l.map f) := by
  intro r hr
  obtain ⟨x, -, rfl⟩ := List.mem_map.1 hr
  exact hf x

theorem inner_append {a b : List Request} : Inner (a ++ b) ↔ Inner a ∧ Inner b := List.forall_mem_append

theorem inner_cons {r : Request} {w : List Request} : Inner (r :: w) ↔ r.initiates = false ∧ Inner w :=
  List.forall_mem_cons

theorem inner_nil : Inner [] := fun _ hr => absurd hr List.not_mem_nil

theorem inner_singleton {r : Request} (h : r.initiates = false) : Inner [r] := inner_cons.2 ⟨h, inner_nil⟩

theorem Sentence.initiates {t : Transfer} {w : List Request} (h : Sentence t w) :
    ∃ first rest, w = first :: rest ∧ first.initiates = true ∧ Inner rest := by
  cases h with
  | upload => exact ⟨_, _, rfl, rfl, inner_map (fun _ => rfl) _⟩
  | blockUpload | expedited => exact ⟨_, _, rfl, rfl, inner_nil⟩
  | blockUploadStarted => exact ⟨_, _, rfl, rfl, inner_cons.2 ⟨rfl, inner_map (fun _ => rfl) _⟩⟩
  | blockUploadEnded =>
    exact ⟨_, _, rfl, rfl, inner_cons.2 ⟨rfl, inner_append.2 ⟨inner_map (fun _ => rfl) _, inner_singleton rfl⟩⟩⟩
  | download | blockDownload => exact ⟨_, _, rfl, rfl, inner_map (fun _ => rfl) _⟩
  | blockDownloadEnded =>
    exact ⟨_, _, rfl, rfl, inner_append.2 ⟨inner_map (fun _ => rfl) _, inner_singleton rfl⟩⟩

theorem Word.initiates {t : Transfer} {w : List Request} (h : Word t w) :
    ∃ first rest, w = first :: rest ∧ first.initiates = true ∧ Inner rest := by
  cases h with
  | whole h => exact h.initiates
  | aborted h _ code =>
    obtain ⟨first, rest, rfl, hfirst, hrest⟩ := h.initiates
    exact ⟨first, rest ++ [.abort t.target.mux code], rfl, hfirst, inner_append.2 ⟨hrest, inner_singleton rfl⟩⟩

/-! ## The transfer in progress -/

/-- what a transfer has said, by its phase -/
def Spoken (w : List Request) : Active → Prop
  | .reading r =>
    match r.phase with
    | .opening => r.target.usesBlocks = false ∧ w = [.initiateUpload r.target.mux]
    | .segment toggle =>
      r.target.usesBlocks = false ∧
        ∃ n, toggle = toggleOf n ∧ w = .initiateUpload r.target.mux :: (List.range (n + 1)).map segmentRequest
    | .blockOpening _ =>
      r.target.usesBlocks = true ∧ ∃ blksize pst crc, w = [.blockUploadInitiate r.target.mux blksize pst crc]
    | .block _ | .blockEnd _ =>
      r.target.usesBlocks = true ∧ ∃ blksize pst crc, ∃ acks : List (UInt8 × UInt8),
        w = .blockUploadInitiate r.target.mux blksize pst crc :: .blockUploadStart :: acks.map ackRequest
  | .writing x =>
    x.Sized ∧ match x.phase with
    | .opening true =>
      x.target.usesBlocks = false ∧ Download.Expedited x.payload ∧
        ∃ data len, w = [.initiateDownloadExpedited x.target.mux data len]
    | .opening false =>
      x.target.usesBlocks = false ∧ ¬Download.Expedited x.payload ∧ ∃ size, w = [.initiateDownload x.target.mux size]
    | .segment toggle =>
      x.target.usesBlocks = false ∧ ¬Download.Expedited x.payload ∧ ∃ size, ∃ parts : List Part, ∃ p,
        w = .initiateDownload x.target.mux size :: (parts ++ [p]).map Download.request ∧ Alternating (parts ++ [p]) ∧
          (∀ q ∈ parts, q.last = false) ∧ p.toggle = toggle ∧ (p.last = true → x.size ≤ x.offset)
    | .blockOpening =>
      x.target.usesBlocks = true ∧ ∃ size crc, w = [.blockDownloadInitiate x.target.mux size crc]
    | .block _ =>
      x.target.usesBlocks = true ∧ ∃ size crc, ∃ segments : List SentSegment,
        w = .blockDownloadInitiate x.target.mux size crc :: segments.map SentSegment.request
    | .blockEnd =>
      x.target.usesBlocks = true ∧ ∃ size crc, ∃ segments : List SentSegment, ∃ unused sum,
        w = .blockDownloadInitiate x.target.mux size crc :: segments.map SentSegment.request ++
          [.blockDownloadEnd unused sum]

/-- what a transfer has said after a turn: a beginning that its phase goes on from, or a word -/
def Speaks (t : Transfer) (w : List Request) (turn : Turn) : Prop :=
  match turn.fate with
  | .goesOn next => Spoken (w ++ turn.requests) next
  | .ends _ => Word t (w ++ turn.requests)

section spoken

variable {config : Config} {w : List Request} {a : Active} {r : Reading} {x : Writing}

/-- a transfer may be broken off in any phase -/
theorem Spoken.sentence (h : Spoken w a) : Sentence a.transfer w ∧ .blockUploadEnd ∉ w := by
  cases a with
  | reading r =>
    simp only [Spoken] at h
    split at h
    · obtain ⟨hplain, rfl⟩ := h
      exact ⟨.upload hplain 0, by simp⟩
    · obtain ⟨hplain, n, -, rfl⟩ := h
      exact ⟨.upload hplain (n + 1), by simp [segmentRequest]⟩
    · obtain ⟨hblocks, blksize, pst, crc, rfl⟩ := h
      exact ⟨.blockUpload hblocks blksize pst crc, by simp⟩
    all_goals
      obtain ⟨hblocks, blksize, pst, crc, acks, rfl⟩ := h
      exact ⟨.blockUploadStarted hblocks blksize pst crc acks, by simp [ackRequest]⟩
  | writing x =>
    obtain ⟨hsized, h⟩ := h
    rw [hsized.transfer]
    split at h
    · obtain ⟨hplain, hshort, data, len, rfl⟩ := h
      exact ⟨.expedited hplain hshort data len, by simp⟩
    · obtain ⟨hplain, hlong, size, rfl⟩ := h
      have hnone : Alternating [] := rfl
      exact ⟨.download hplain hlong size hnone (fun p hp => absurd hp List.not_mem_nil), by simp⟩
    · obtain ⟨hplain, hlong, size, parts, p, rfl, halternating, hopen, -, -⟩ := h
      refine ⟨.download hplain hlong size halternating ?_, by simp [Download.request]⟩
      rwa [List.dropLast_concat]
    · obtain ⟨hblocks, size, crc, rfl⟩ := h
      exact ⟨.blockDownload hblocks size crc [], by simp⟩
    · obtain ⟨hblocks, size, crc, segments, rfl⟩ := h
      exact ⟨.blockDownload hblocks size crc segments, by simp [SentSegment.request]⟩
    · obtain ⟨hblocks, size, crc, segments, unused, sum, rfl⟩ := h
      exact ⟨.blockDownloadEnded hblocks size crc segments unused sum, by simp [SentSegment.request]⟩

theorem Spoken.abort (h : Spoken w a) (code : AbortCode) : Speaks a.transfer w ((Reaction.abort code).turn a) := by
  obtain ⟨hsentence, hopen⟩ := h.sentence
  have hword := Word.aborted hsentence hopen code
  rw [Active.target_transfer] at hword
  exact hword

/-- the end of a transfer without a word -/
theorem Spoken.silent (h : Spoken w a) (ending : Ending) : Speaks a.transfer w ⟨[], .ends ending⟩ := by
  rw [Speaks, List.append_nil]
  exact .whole h.sentence.1

/-- the transfer waits on -/
theorem speaks_silent {t : Transfer} {next : Active} (hnext : Spoken w next) : Speaks t w ⟨[], .goesOn next⟩ := by
  rw [Speaks, List.append_nil]
  exact hnext

/-- a response to a read -/
theorem Spoken.read (h : Spoken w (.reading r)) (response : Response) :
    Speaks (Active.reading r).transfer w ((r.answer config response).reaction.turn (.reading r)) := by
  have hsaid := h
  have hanswered := r.answered_answer config response
  generalize (r.answer config response).reaction = reaction at hanswered ⊢
  cases hanswered with
  | abort code => exact h.abort _
  | finish value => exact h.silent _
  | closes phase value =>
    simp only [Spoken, phase] at hsaid
    obtain ⟨hblocks, blksize, pst, crc, acks, rfl⟩ := hsaid
    exact .whole (.blockUploadEnded hblocks blksize pst crc acks)
  | opened phase target waits =>
    simp only [Spoken, phase] at hsaid
    obtain ⟨hplain, rfl⟩ := hsaid
    simp only [Speaks, Reaction.turn, Spoken, waits, target]
    exact ⟨hplain, 0, rfl, rfl⟩
  | continued phase target waits =>
    simp only [Spoken, phase] at hsaid
    obtain ⟨hplain, n, rfl, rfl⟩ := hsaid
    simp only [Speaks, Reaction.turn, Spoken, waits, target]
    refine ⟨hplain, n + 1, (toggleOf_succ n).symm, ?_⟩
    rw [List.cons_append, List.range_succ (n := n + 1), List.map_append, List.map_singleton, segmentRequest,
      toggleOf_succ]
  | blocksOpened phase target empty waits =>
    simp only [Spoken, phase] at hsaid
    obtain ⟨hblocks, blksize, pst, crc, rfl⟩ := hsaid
    simp only [Speaks, Reaction.turn, Spoken, waits, target]
    exact ⟨hblocks, blksize, pst, crc, [], rfl⟩

/-- the acknowledgement of a block -/
theorem spoken_acknowledge {q : Reading} (hblocks : q.target.usesBlocks = true) {blksize pst : UInt8} {crc : Bool}
    {acks : List (UInt8 × UInt8)} (hphase : (∃ i, q.phase = .block i) ∨ ∃ checked, q.phase = .blockEnd checked)
    (ackseq granted : UInt8) :
    Spoken (.blockUploadInitiate q.target.mux blksize pst crc :: .blockUploadStart :: acks.map ackRequest ++
      [.blockUploadAck ackseq granted]) (.reading q) := by
  have hacks : Request.blockUploadInitiate q.target.mux blksize pst crc :: .blockUploadStart :: acks.map ackRequest ++
      [.blockUploadAck ackseq granted] = .blockUploadInitiate q.target.mux blksize pst crc :: .blockUploadStart ::
        (acks ++ [(ackseq, granted)]).map ackRequest := by simp [ackRequest]
  rw [hacks]
  rcases hphase with ⟨i, hphase⟩ | ⟨checked, hphase⟩
  · simp only [Spoken, hphase]
    exact ⟨hblocks, blksize, pst, crc, _, rfl⟩
  · simp only [Spoken, hphase]
    exact ⟨hblocks, blksize, pst, crc, _, rfl⟩

/-- a segment of a block upload -/
theorem Spoken.segment {i : Intake} (h : Spoken w (.reading r)) (hphase : r.phase = .block i) (s : Segment) :
    Speaks (Active.reading r).transfer w ((r.segment config i s).reaction.turn (.reading r)) := by
  have hsaid := h
  simp only [Spoken, hphase] at hsaid
  obtain ⟨hblocks, blksize, pst, crc, acks, rfl⟩ := hsaid
  rw [Reading.reaction_segment]
  split
  · rw [Reading.acknowledge_eq]
    refine spoken_acknowledge (q := { r.gathered (i.take s) with phase := _ }) hblocks ?_ _ _
    cases hend : !(i.take s).gap && (i.take s).lastReceived
    · exact .inl ⟨_, rfl⟩
    · exact .inr ⟨_, rfl⟩
  · exact speaks_silent ⟨hblocks, blksize, pst, crc, acks, rfl⟩

/-- the next chunk of a write -/
theorem speaks_sendChunk {t : Transfer} {size : UInt32} {parts : List Part} {toggle : Bool} (hsized : x.Sized)
    (hplain : x.target.usesBlocks = false) (hlong : ¬Download.Expedited x.payload)
    (hw : w = .initiateDownload x.target.mux size :: parts.map Download.request)
    (hparts : Alternating parts) (hopen : ∀ q ∈ parts, q.last = false) (htoggle : toggle = toggleOf parts.length) :
    Speaks t w ((x.sendChunk toggle).reaction.turn (.writing x)) := by
  subst hw
  let p : Part := ⟨toggle, x.chunk.data.length, x.chunk.last, Wire.padded 7 x.chunk.data⟩
  refine ⟨hsized, hplain, hlong, size, parts, p, ?_, (alternating_concat parts p).2 ⟨hparts, htoggle⟩, hopen, rfl, ?_⟩
  · rw [List.map_append, List.map_singleton]
    rfl
  · intro hlast
    exact of_decide_eq_true hlast

/-- a response to a write -/
theorem Spoken.write (h : Spoken w (.writing x)) (response : Response) :
    Speaks (Active.writing x).transfer w ((x.answer config response).reaction.turn (.writing x)) := by
  have ⟨hsized, hsaid⟩ := h
  have hanswered := x.answered_answer config response
  generalize (x.answer config response).reaction = reaction at hanswered ⊢
  cases hanswered with
  | abort code => exact h.abort _
  | finish confirmed => exact h.silent _
  | opened phase =>
    rw [phase] at hsaid
    obtain ⟨hplain, hlong, size, rfl⟩ := hsaid
    have hnone : Alternating [] := rfl
    exact speaks_sendChunk hsized hplain hlong rfl hnone (fun q hq => absurd hq List.not_mem_nil) rfl
  | continued phase read more =>
    rw [phase] at hsaid
    obtain ⟨hplain, hlong, size, parts, p, hw, halternating, hopen, rfl, hend⟩ := hsaid
    obtain ⟨-, htoggle⟩ := (alternating_concat parts p).1 halternating
    refine speaks_sendChunk hsized hplain hlong hw halternating ?_ ?_
    · intro q hq
      rcases List.mem_append.1 hq with hq | hq
      · exact hopen q hq
      · rw [List.mem_singleton.1 hq]
        exact Bool.eq_false_iff.2 fun hlast => more.not_ge (hend hlast)
    · rw [List.length_append, List.length_singleton, toggleOf_succ, htoggle]
  | blocksOpened phase =>
    rw [phase] at hsaid
    obtain ⟨hblocks, size, crc, rfl⟩ := hsaid
    exact speaks_silent ⟨hsized, hblocks, size, crc, [], rfl⟩
  | resends phase | advances phase =>
    rw [phase] at hsaid
    exact speaks_silent ⟨hsized, hsaid⟩
  | concludes phase =>
    rw [phase] at hsaid
    obtain ⟨hblocks, size, crc, segments, rfl⟩ := hsaid
    exact ⟨hsized, hblocks, size, crc, segments, _, _, rfl⟩

/-- a tick offers a segment of a block, or nothing -/
theorem Spoken.paced (h : Spoken w a) (ready : Bool) : Speaks a.transfer w (a.paced ready) := by
  cases a with
  | reading r => exact speaks_silent h
  | writing x =>
    simp only [Active.paced]
    split
    · rename_i o hsending
      obtain ⟨hphase, -⟩ := x.sending?_eq_some hsending
      cases ready with
      | false => exact speaks_silent h
      | true =>
        simp only [Spoken, hphase] at h
        obtain ⟨hsized, hblocks, size, crc, segments, rfl⟩ := h
        let s : SentSegment := ⟨UInt8.ofNat (o.seqno + 1), Wire.padded 7 x.chunk.data, x.chunk.last⟩
        refine ⟨hsized, hblocks, size, crc, segments ++ [s], ?_⟩
        rw [List.map_append, List.map_singleton]
        rfl
    · exact speaks_silent h

/-- **Step lemma.** Every turn of a transfer takes its word on or ends it. -/
theorem Spoken.respond (h : Spoken w a) (config : Config) (s : Stimulus) :
    Speaks a.transfer w (a.respond config s) := by
  cases s with
  | lapse => exact h.abort _
  | tick ready => exact h.paced ready
  | frame data =>
    rw [Active.respond]
    rcases a.reactTo_cases config data with ⟨code, ha⟩ | ⟨mux, code, -, ha⟩ | ⟨response, -, ha⟩ |
      ⟨r, i, s, rfl, hphase, -, ha⟩ <;> rw [ha]
    · exact h.abort code
    · exact h.silent _
    · cases a with
      | reading r => exact h.read response
      | writing x => exact h.write response
    · exact h.segment hphase s

/-- the initiate request begins the word -/
theorem spoken_begin (config : Config) {t : Transfer} (h : t.Sized) :
    Spoken [(t.begin config).2] (t.begin config).1 := by
  obtain ⟨id, job⟩ := t
  cases job with
  | read =>
    simp only [Transfer.begin]
    split
    · rename_i hblocks
      exact ⟨hblocks, _, _, _, rfl⟩
    · rename_i hplain
      exact ⟨Bool.eq_false_iff.2 hplain, rfl⟩
  | write v payload size =>
    obtain rfl : size = payload.length := h
    simp only [Transfer.begin]
    split
    · rename_i hblocks
      exact ⟨rfl, hblocks, _, _, rfl⟩
    · rename_i hplain
      split
      · rename_i hshort
        exact ⟨rfl, Bool.eq_false_iff.2 hplain, hshort, _, _, rfl⟩
      · rename_i hlong
        exact ⟨rfl, Bool.eq_false_iff.2 hplain, hlong, _, rfl⟩

end spoken

/-! ## Events -/

namespace Engine

variable {e : Engine} {d : Dictionary} {o : Occasion} {clock : Time}

/-- without a transfer in progress, an engine offers nothing, or it starts a transfer with its initiate request -/
structure Starts (e next : Engine) (requests : List Request) : Prop where
  config : next.config = e.config
  node : next.node = e.node
  begun : (next.active = none ∧ requests = []) ∨
    ∃ t : Transfer, next.active = some (t.begin e.config).1 ∧ requests = [(t.begin e.config).2]

theorem starts_nothing {next : Engine} (ha : next.active = none) (hconfig : next.config = e.config)
    (hnode : next.node = e.node) : e.Starts next [] := ⟨hconfig, hnode, .inl ⟨ha, rfl⟩⟩

theorem startNext_idle (ha : e.active = none) (clock : Time) :
    e.Starts (e.startNext clock).1 (offers (e.startNext clock).2) := by
  obtain ⟨-, -, hconfig, hnode⟩ := startNext_spec e clock
  refine ⟨hconfig, hnode, ?_⟩
  cases hq : e.queue with
  | nil =>
    have hsame : e.startNext clock = (e, []) := by simp [startNext, ha, hq]
    rw [hsame]
    exact .inl ⟨ha, rfl⟩
  | cons t rest => exact .inr ⟨t, startNext_starts clock ha hq⟩

theorem step_idle_starts (ha : e.active = none) : e.Starts (e.step d o).engine (offers (e.step d o).effects) := by
  have hcall : (∃ id, o.event = .upload id) ∨ (∃ id v, o.event = .download id v) →
      e.Starts (e.step d o).engine (offers (e.step d o).effects) := by
    intro hc
    rcases step_call e d o hc with ⟨t, -, hr⟩ | ⟨-, he, -, ho, -⟩
    · rw [hr]
      have hstarts := startNext_idle (e := { e with queue := e.queue ++ [t] }) ha o.clock
      exact ⟨hstarts.config, hstarts.node, hstarts.begun⟩
    · rw [he, ho]
      exact starts_nothing ha rfl rfl
  obtain ⟨clock, ready, event⟩ := o
  cases event with
  | upload id => exact hcall (.inl ⟨id, rfl⟩)
  | download id v => exact hcall (.inr ⟨id, v, rfl⟩)
  | frame frame =>
    simp only [step, receive, ha]
    split <;> exact starts_nothing ha rfl rfl
  | timeout =>
    simp only [step, expire, ha]
    exact starts_nothing rfl rfl rfl
  | tick =>
    simp only [step, tick, ha]
    exact starts_nothing rfl rfl rfl
  | poll now =>
    have hexpire : e.expire clock d = ⟨{ e with timeoutAt := none }, d, []⟩ := by
      simp only [expire, ha]
    simp only [step, poll, hexpire, tick]
    split
    · split <;> simp only [ha] <;> exact starts_nothing rfl rfl rfl
    · split
      · simp only [ha]
        exact starts_nothing rfl rfl rfl
      · exact starts_nothing ha rfl rfl

/-- an event leaves an engine its node and its settings -/
theorem step_fixed (e : Engine) (d : Dictionary) (o : Occasion) :
    (e.step d o).engine.node = e.node ∧ (e.step d o).engine.config = e.config := by
  cases e.step_passes d o with
  | idle ha =>
    have hstarts := step_idle_starts (d := d) (o := o) ha
    exact ⟨hstarts.node, hstarts.config⟩
  | unmoved ha hs =>
    rw [(step_unmoved (d := d) ha hs).1]
    exact ⟨rfl, rfl⟩
  | goesOn _ _ _ _ hc =>
    obtain ⟨-, -, hconfig, hnode, -⟩ := hc
    exact ⟨hnode, hconfig⟩
  | ends _ _ _ _ hc =>
    obtain ⟨he, -⟩ := hc
    obtain ⟨-, -, hconfig, hnode⟩ := startNext_spec e.released o.clock
    rw [he]
    exact ⟨hnode, hconfig⟩

end Engine

/-! ## Runs -/

/-- the requests so far are one word for each finished transfer and what the one in progress has said -/
def Uttered (said : List Request) (closed : List (List Request)) (finished : List Transfer) (active : Option Active) :
    Prop :=
  ∃ current, said = closed.flatten ++ current ∧ List.Forall₂ Word finished closed ∧
    match active with
    | none => current = []
    | some a => Spoken current a

section uttered

variable {said : List Request} {closed : List (List Request)} {finished : List Transfer} {a : Active}

theorem Uttered.starts {e next : Engine} {requests : List Request} (h : Uttered said closed finished none)
    (hnext : e.Starts next requests) (hsized : ∀ t ∈ next.pending, t.Sized) :
    Uttered (said ++ requests) closed finished next.active := by
  obtain ⟨current, rfl, hwords, rfl⟩ := h
  refine ⟨requests, by rw [List.append_nil], hwords, ?_⟩
  rcases hnext.begun with ⟨hnone, rfl⟩ | ⟨t, hsome, rfl⟩
  · rw [hnone]
  · have ht : t ∈ next.pending := by simp [Engine.pending, hsome, Engine.transfer_begin]
    rw [hsome]
    exact spoken_begin e.config (hsized t ht)

theorem Uttered.goesOn {config : Config} {s : Stimulus} {next : Active} (h : Uttered said closed finished (some a))
    (hf : (a.respond config s).fate = .goesOn next) :
    Uttered (said ++ (a.respond config s).requests) closed finished (some next) := by
  obtain ⟨current, rfl, hwords, hspoken⟩ := h
  have hturn := hspoken.respond config s
  simp only [Speaks, hf] at hturn
  exact ⟨_, List.append_assoc _ _ _, hwords, hturn⟩

theorem Uttered.ends {config : Config} {s : Stimulus} {ending : Ending} (h : Uttered said closed finished (some a))
    (hf : (a.respond config s).fate = .ends ending) :
    ∃ w, Uttered (said ++ (a.respond config s).requests) (closed ++ [w]) (finished ++ [a.transfer]) none := by
  obtain ⟨current, rfl, hwords, hspoken⟩ := h
  have hturn := hspoken.respond config s
  simp only [Speaks, hf] at hturn
  refine ⟨current ++ (a.respond config s).requests, [], by simp, ?_, rfl⟩
  exact List.rel_append hwords (.cons hturn .nil)

/-- cut before every initiate request, the requests are the words -/
theorem splitBy_words {words : List (List Request)} (h : List.Forall₂ Word finished words) :
    words.flatten.splitBy (fun _ r => !r.initiates) = words := by
  have hbegins : ∀ w ∈ words, ∃ first rest, w = first :: rest ∧ first.initiates = true ∧ Inner rest := by
    induction h with
    | nil => exact fun w hw => absurd hw List.not_mem_nil
    | cons hword _ ih => exact List.forall_mem_cons.2 ⟨hword.initiates, ih⟩
  refine List.splitBy_flatten ?_ ?_ ?_
  · intro hnil
    obtain ⟨first, rest, hcons, -⟩ := hbegins [] hnil
    cases hcons
  · intro w hw
    obtain ⟨first, rest, rfl, -, hrest⟩ := hbegins w hw
    refine (List.pairwise_cons.2 ⟨fun r hr => ?_, List.pairwise_of_forall_mem_list fun _ _ r hr => ?_⟩).isChain
    · simp [hrest r hr]
    · simp [hrest r hr]
  · refine (List.pairwise_of_forall_mem_list fun v hv w hw => ?_).isChain
    obtain ⟨_, _, rfl, -⟩ := hbegins v hv
    obtain ⟨first, _, rfl, hfirst, -⟩ := hbegins w hw
    exact ⟨List.cons_ne_nil _ _, List.cons_ne_nil _ _, by simp [hfirst]⟩

/-- the words of all transfers that have begun; those of the finished ones come first -/
theorem Uttered.words {active : Option Active} (h : Uttered said closed finished active) :
    ∃ open', said.splitBy (fun _ r => !r.initiates) = closed ++ open' ∧
      List.Forall₂ Word (finished ++ active.toList.map Active.transfer) (closed ++ open') := by
  obtain ⟨current, rfl, hwords, hcurrent⟩ := h
  cases active with
  | none =>
    subst hcurrent
    refine ⟨[], ?_, ?_⟩
    · rw [List.append_nil, List.append_nil, splitBy_words hwords]
    · rwa [List.append_nil, Option.toList_none, List.map_nil, List.append_nil]
  | some a =>
    have hall : List.Forall₂ Word (finished ++ [a.transfer]) (closed ++ [current]) :=
      List.rel_append hwords (.cons (.whole (Spoken.sentence hcurrent).1) .nil)
    refine ⟨[current], ?_, hall⟩
    rw [← splitBy_words hall, List.flatten_append, List.flatten_singleton]

end uttered

namespace Service

/-- the requests offered during a run -/
def offered (s : Service) : List Move → List Request
  | [] => []
  | .event o :: rest => offers (s.engine.step s.dictionary o).effects ++ (s.move (.event o)).offered rest
  | .exchange d :: rest => (s.move (.exchange d)).offered rest

/-- the requests offered during a run, cut before every initiate request -/
def words (s : Service) (ms : List Move) : List (List Request) := (s.offered ms).splitBy fun _ r => !r.initiates

/-- the transfers that have begun, in the order of service -/
def begun (s : Service) : List Transfer :=
  s.finished.map Finished.transfer ++ s.engine.active.toList.map Active.transfer

theorem offered_append (s : Service) (ms later : List Move) :
    s.offered (ms ++ later) = s.offered ms ++ (s.run ms).offered later := by
  induction ms generalizing s with
  | nil => rfl
  | cons m rest ih =>
    cases m with
    | event o =>
      rw [List.cons_append, offered, ih, offered, List.append_assoc]
      rfl
    | exchange d => exact ih _

/-- an engine under settings that do not change, what it has said, and the words of its finished transfers -/
structure Articulate (config : Config) (node : UInt8) (said : List Request) (closed : List (List Request))
    (s : Service) : Prop where
  config : s.engine.config = config
  node : s.engine.node = node
  sized : ∀ t ∈ s.engine.pending, t.Sized
  uttered : Uttered said closed (s.finished.map Finished.transfer) s.engine.active

section articulate

variable {config : Config} {node : UInt8} {said : List Request} {closed : List (List Request)} {s : Service}

theorem articulate_start (node : UInt8) (config : Config) (d : Dictionary) :
    (start node config d).Articulate config node [] [] :=
  ⟨rfl, rfl, fun _ ht => absurd ht List.not_mem_nil, [], rfl, .nil, rfl⟩

theorem Articulate.exchange (h : s.Articulate config node said closed) (d : Dictionary) :
    (s.move (.exchange d)).Articulate config node said closed := ⟨h.config, h.node, h.sized, h.uttered⟩

theorem Articulate.moved {o : Engine.Occasion} {e : Engine} (hsized : ∀ t ∈ s.engine.pending, t.Sized)
    (he : (s.engine.step s.dictionary o).engine = e) (hconfig : e.config = config) (hnode : e.node = node)
    (h : Uttered said closed (s.finished.map Finished.transfer ++ (s.engine.finished? o).toList.map Finished.transfer)
      e.active) : (s.move (.event o)).Articulate config node said closed := by
  subst he
  refine ⟨hconfig, hnode, Engine.step_sized hsized, ?_⟩
  rwa [← List.map_append] at h

/-- **Step lemma.** Every event takes the word of the transfer in progress on, or ends it and begins the next one. -/
theorem Articulate.event (h : s.Articulate config node said closed) (o : Engine.Occasion) :
    ∃ more, (s.move (.event o)).Articulate config node (said ++ offers (s.engine.step s.dictionary o).effects)
      (closed ++ more) := by
  obtain ⟨hconfig, hnode, hsized, huttered⟩ := h
  have hnext : ∀ t ∈ (s.engine.step s.dictionary o).engine.pending, t.Sized := Engine.step_sized hsized
  cases s.engine.step_passes s.dictionary o with
  | idle ha hfin =>
    have hstarts := Engine.step_idle_starts (d := s.dictionary) (o := o) ha
    rw [ha] at huttered
    refine ⟨[], .moved hsized rfl (hstarts.config.trans hconfig) (hstarts.node.trans hnode) ?_⟩
    rw [hfin, Option.toList_none, List.map_nil, List.append_nil, List.append_nil]
    exact huttered.starts hstarts hnext
  | unmoved ha hs hfin =>
    obtain ⟨he, -, hoffers, -⟩ := Engine.step_unmoved (d := s.dictionary) ha hs
    refine ⟨[], .moved hsized he hconfig hnode ?_⟩
    rw [hfin, hoffers, Option.toList_none, List.map_nil, List.append_nil, List.append_nil, List.append_nil]
    exact huttered
  | goesOn ha _ hf hfin hc =>
    obtain ⟨hactive, -, hsame, hnode', -, hoffers, -⟩ := hc
    rw [ha] at huttered
    refine ⟨[], .moved hsized rfl (hsame.trans hconfig) (hnode'.trans hnode) ?_⟩
    rw [hfin, hoffers, hactive, Option.toList_none, List.map_nil, List.append_nil, List.append_nil]
    exact huttered.goesOn hf
  | ends ha _ hf hfin hc =>
    obtain ⟨he, -, hoffers, -⟩ := hc
    have hstarts := Engine.startNext_idle (e := s.engine.released) rfl o.clock
    rw [ha] at huttered
    obtain ⟨w, hended⟩ := huttered.ends hf
    refine ⟨[w], .moved hsized he (hstarts.config.trans hconfig) (hstarts.node.trans hnode) ?_⟩
    rw [hfin, hoffers, ← List.append_assoc]
    exact hended.starts hstarts (he ▸ hnext)

/-- **Run lemma.** The words of the finished transfers only grow in number. -/
theorem Articulate.run (h : s.Articulate config node said closed) (ms : List Move) :
    ∃ more, (s.run ms).Articulate config node (said ++ s.offered ms) (closed ++ more) := by
  induction ms generalizing s said closed with
  | nil =>
    refine ⟨[], ?_⟩
    rw [offered, List.append_nil, List.append_nil]
    exact h
  | cons m rest ih =>
    cases m with
    | event o =>
      obtain ⟨more, hmore⟩ := h.event o
      obtain ⟨later, hlater⟩ := ih hmore
      refine ⟨more ++ later, ?_⟩
      rw [offered, ← List.append_assoc, ← List.append_assoc]
      exact hlater
    | exchange d => exact ih (h.exchange d)

end articulate

end Service

/-! ## Frames -/

section frames

variable {τ : Type} [Transport τ]

/-- gives a frame to a transport that is ready for it -/
def Transport.hand (t : τ) (frame : CanFrame) : τ := if canSend t then (send t frame).1 else t

/-- what a transport is given when effects are carried out -/
theorem Transport.carry_offers (node : UInt8) (frameId : UInt32) (t : τ) (effects : List Effect) :
    (carry node frameId t effects).1 = ((offers effects).map fun r => ⟨frameId, r.toBytes⟩).foldl hand t := by
  have hoffer (t : τ) (r : Request) : (offer node frameId t r).1 = hand t ⟨frameId, r.toBytes⟩ := by
    rw [offer, hand]
    split
    · dsimp only
      split <;> rename_i hsend <;> rw [hsend]
    · rfl
  induction effects generalizing t with
  | nil => rfl
  | cons effect rest ih =>
    cases effect with
    | offer r =>
      rw [carry, ih, hoffer]
      rfl
    | publish _ | log _ => exact ih t

end frames

namespace Service

/-- **The requests of a transfer are a word of the protocol.** Whatever a new engine meets, the transfers accepted are
those that have begun, in the order of service, and then those in the queue. What the engine offers is, cut before every
initiate request, one word for each transfer that has begun, and nothing is added to the word of a finished one. Every
event gives its requests to the transport as frames of eight octets under the identifier of the node. -/
theorem requests_grammatical (node : UInt8) (config : Config) (d : Dictionary) (ms : List Move) :
    let s := (start node config d).run ms
    s.accepted = s.begun ++ s.engine.queue ∧
      List.Forall₂ Word s.begun ((start node config d).words ms) ∧
      (∀ later, ((start node config d).words ms).take s.finished.length <+: (start node config d).words (ms ++ later)) ∧
      ∀ (τ : Type) [Transport τ] (t : τ) (clock : Time) (event : Engine.Event),
        let r := s.engine.step s.dictionary ⟨clock, Transport.canSend t, event⟩
        let frames := (offers r.effects).map fun r => (⟨config.requestBase + node.toUInt32, r.toBytes⟩ : CanFrame)
        (Node.perform ⟨s.dictionary, s.engine⟩ clock t event).transport = frames.foldl Transport.hand t ∧
          ∀ f ∈ frames, f.data.length = 8 := by
  intro s
  obtain ⟨closed, hs⟩ := (articulate_start node config d).run ms
  simp only [List.nil_append] at hs
  obtain ⟨current, hcut, hwords⟩ := hs.uttered.words
  refine ⟨?_, ?_, ?_, ?_⟩
  · have hserved : s.accepted = _ := run_served rfl ms
    rw [hserved, begun, Engine.pending, List.append_assoc]
  · rw [words, hcut]
    exact hwords
  · intro later
    obtain ⟨more, hlater⟩ := hs.run later
    obtain ⟨current', hcut', -⟩ := hlater.uttered.words
    have hfinished : closed.length = s.finished.length := by
      obtain ⟨_, -, hclosed, -⟩ := hs.uttered
      rw [← hclosed.length_eq, List.length_map]
    rw [words, words, offered_append, hcut, hcut', List.take_left' hfinished, List.append_assoc]
    exact List.prefix_append _ _
  · intro τ _ t clock event r frames
    have hid : s.engine.requestId = config.requestBase + node.toUInt32 := by
      rw [Engine.requestId, Config.requestId, hs.config, hs.node]
    refine ⟨?_, ?_⟩
    · rw [Node.perform, Transport.carry_offers, hid]
    · intro f hf
      obtain ⟨request, -, rfl⟩ := List.mem_map.1 hf
      exact request.length_toBytes

end Service

end SdoClient
