/-
Block uploads with a checksum. If the client asks for it and the server agrees, the octets that the client has put
together are taken only with the checksum that the server reports at the end.

Main statement: `checksum_rejects_bursts`. Octets that differ from the payload of the server by a burst of at most
sixteen bits are given up, and the entry keeps its value; the payload itself is stored.
-/
import Mathlib.Tactic
import SdoClient.Proofs.BlockStream
import SdoClient.Proofs.BurstErrors

namespace SdoClient

/-- the octets of a read without the padding of its last segment -/
def Reading.trimmed (r : Reading) (unused : Nat) : List UInt8 := r.data.take (r.data.length - unused)

namespace Engine

variable {e : Engine} {d : Dictionary} {id : ObjectId} {os : List Occasion} {size : Option UInt32} {r : Reading}

/-- the read of `id` that `e` has just begun is a block upload with a checksum, both sides agree, and the server
announces `size`; after the run `os` all blocks are there, and the read stands as `r` -/
structure Summed (e : Engine) (d : Dictionary) (id : ObjectId) (os : List Occasion) (size : Option UInt32)
    (r : Reading) : Prop where
  blocks : id.usesBlocks = true
  begun : e.active = some (Transfer.begin e.config ⟨id, .read⟩).1
  asked : e.config.crc = true
  agreed : ∃ first later, heard (e.course d (Transfer.begin e.config ⟨id, .read⟩).1 os).messages = first :: later ∧
    Response.parse first = .ok (.blockUploadInitiate id.mux true size)
  stands : (e.course d (Transfer.begin e.config ⟨id, .read⟩).1 os).fate = .goesOn (.reading r)
  ended : ∃ checked, r.phase = .blockEnd checked

/-- what such a read knows: it checks the sum, and it has noted the announced size -/
theorem Summed.spec (h : e.Summed d id os size r) :
    r.target = id ∧ r.phase = .blockEnd true ∧ r.size = (size.map UInt32.toNat).getD 0 := by
  obtain ⟨checked, hphase⟩ := h.ended
  obtain ⟨first, later, hheard, hfirst⟩ := h.agreed
  have hprogress := course_invariant (d := d) e.config (BlockUpload.Progress e.config id)
    (fun _ _ s hkept => hkept.respond h.blocks s) rfl h.begun [] (BlockUpload.Progress.begin h.blocks) os
  rw [h.stands, List.nil_append] at hprogress
  obtain ⟨htarget, hunderway⟩ := hprogress
  rw [hphase] at hunderway
  obtain ⟨first', crc, size', rounds, frames, hfirst', -, -, hmessages, hsize, -, hchecked⟩ := hunderway
  obtain rfl : first' = first := by
    rw [hmessages] at hheard
    exact (List.cons_eq_cons.1 hheard).1
  obtain ⟨-, rfl, rfl⟩ := Response.blockUploadInitiate.inj (Except.ok.inj (hfirst'.symm.trans hfirst))
  rw [h.asked] at hchecked
  exact ⟨htarget, by rw [hphase, hchecked]; rfl, hsize⟩

/-- the frame that ends such a read: the checksum alone decides -/
theorem Summed.respond (h : e.Summed d id os size r) {last : List UInt8} {unused : Nat} {sum : UInt16}
    (hread : Response.parse last = .ok (.blockUploadEnd unused sum))
    (hsized : ∀ n, size = some n → n ≠ 0 → n.toNat = (r.trimmed unused).length) :
    (Active.reading r).respond e.config (.frame last) =
      (if Checksum.crc16 (r.trimmed unused) = sum then
        Reaction.finish (some (.octets (r.trimmed unused))) (some .blockUploadEnd)
      else .abort .crcError).turn (.reading r) := by
  obtain ⟨htarget, hphase, hsize⟩ := h.spec
  have hdomain : r.target.type = .domain := by simpa [htarget, ObjectId.usesBlocks] using h.blocks
  have hsuffices : Reading.Suffices r.target (r.trimmed unused) := by
    intro needed hneeded
    rw [hdomain] at hneeded
    cases hneeded
  have hagrees := Reading.size_agrees hsize hsized
  rw [Reading.respond_ended e.config hphase hread, Reading.reaction_blocksEnded, ← Reading.trimmed, if_neg hagrees,
    Reading.reaction_finish, if_pos hsuffices, hdomain]
  by_cases hsum : Checksum.crc16 (r.trimmed unused) = sum
  · simp [hsum, Value.decode]
  · simp [hsum]

/-- **The checksum rejects bursts.** The octets that a block upload has put together come to an end frame with the
checksum of `payload`. If they differ from it by a burst, the client aborts, and no entry changes its value; if they are
the payload, the client confirms the upload and stores it. -/
theorem checksum_rejects_bursts {o : Occasion} {last payload : List UInt8} {unused : Nat} (h : e.Summed d id os size r)
    (hevent : o.event = .frame ⟨e.responseId, last⟩)
    (hread : Response.parse last = .ok (.blockUploadEnd unused (Checksum.crc16 payload)))
    (hsized : ∀ n, size = some n → n ≠ 0 → n.toNat = (r.trimmed unused).length) :
    let a := (Transfer.begin e.config ⟨id, .read⟩).1
    let before := e.course d a os
    let c := e.course d a (os ++ [o])
    (Checksum.Burst payload (r.trimmed unused) →
        c.fate = .ends (.aborted .crcError) ∧
        c.messages = before.messages ++ [.received last, .offered (.abort id.mux .crcError)] ∧
        c.dictionary = (d.commitError id .crcError .upload).1 ∧
        ∀ mux, (c.dictionary.find? mux).bind Entry.value = (d.find? mux).bind Entry.value) ∧
      (r.trimmed unused = payload →
        c.fate = .ends (.completed (some (.octets payload))) ∧
        c.messages = before.messages ++ [.received last, .offered .blockUploadEnd] ∧
        c.dictionary = (d.commitValue id (some (.octets payload)) .upload o.clock).1) := by
  obtain ⟨rfl, -, -⟩ := h.spec
  intro a before c
  have hresponse := h.respond hread hsized
  have hbegin : a = .reading { target := r.target, phase := .blockOpening e.config.blockSize.toNat } :=
    BlockUpload.begin_read e.config h.blocks
  have hcommit : c.dictionary = c.fate.commit c.endedAt d a := course_dictionary h.begun (os ++ [o])
  have hs : (e.run d os).engine.stimulus? o = some (.frame last) := by
    obtain ⟨hk, -⟩ := course_run h.begun os h.stands
    simp [stimulus?, hevent, hk.responseId]
  constructor
  · intro hburst
    rw [if_neg (Checksum.crc16_ne_of_burst hburst).symm] at hresponse
    have hends : ((Active.reading r).respond e.config (.frame last)).fate = .ends (.aborted .crcError) := by
      rw [hresponse]
      rfl
    obtain ⟨hpassage, hended⟩ := course_concat_ends h.begun h.stands hs hends
    obtain ⟨hmessages, hfate⟩ := Passage.mk.inj hpassage
    have hdictionary : c.dictionary = (d.commitError r.target .crcError .upload).1 := by
      rw [hcommit, hfate, hbegin]
      rfl
    refine ⟨hfate, ?_, hdictionary, fun mux => ?_⟩
    · rw [hmessages, hresponse]
      rfl
    · rw [hdictionary, Dictionary.find?_commitError]
      split
      · cases d.find? mux <;> rfl
      · rfl
  · rintro rfl
    rw [if_pos rfl] at hresponse
    have hends : ((Active.reading r).respond e.config (.frame last)).fate =
        .ends (.completed (some (.octets (r.trimmed unused)))) := by
      rw [hresponse]
      rfl
    obtain ⟨hpassage, hended⟩ := course_concat_ends h.begun h.stands hs hends
    obtain ⟨hmessages, hfate⟩ := Passage.mk.inj hpassage
    refine ⟨hfate, ?_, ?_⟩
    · rw [hmessages, hresponse]
      rfl
    · rw [hcommit, hfate, hbegin, hended]
      rfl

/-- the blocks of the read of `countdown`, with five bits turned over in two octets next to each other -/
def garbledRun : List Occasion :=
  [[0xc6, 0x01, 0x20, 0, 10, 0, 0, 0], [0x01, 9, 8, 7, 9, 0x55, 4, 3], [0x82, 2, 1, 0, 0, 0, 0, 0]].map
    fun data => .mk 1 true (.frame ⟨0x585, data⟩)

/-- the read after them -/
def garbled : Reading where
  target := countdownId
  size := 10
  data := [9, 8, 7, 9, 0x55, 4, 3, 2, 1, 0, 0, 0, 0, 0]
  phase := .blockEnd true

theorem burst_garbled : Checksum.Burst countdown.payload (garbled.trimmed 4) := by
  refine ⟨rfl, by decide, 24, fun i hi => ?_⟩
  by_cases hin : i < 80
  · have hbits : ∀ j < 80, (Checksum.bits countdown.payload)[j]? ≠ (Checksum.bits (garbled.trimmed 4))[j]? →
        24 ≤ j ∧ j < 24 + 16 := by decide +kernel
    exact hbits i hin hi
  · have hout (data : List UInt8) (hlength : data.length = 10) : (Checksum.bits data)[i]? = none := by
      rw [List.getElem?_eq_none_iff, Checksum.length_bits, hlength]
      omega
    exact absurd ((hout _ rfl).trans (hout _ rfl).symm) hi

theorem checksum_rejects_bursts_countdown :
    let o : Occasion := .mk 2 true (.frame ⟨0x585, [0xd1, 70, 102, 0, 0, 0, 0, 0]⟩)
    let c := readingDown.course countdowns (Transfer.begin readingDown.config ⟨countdownId, .read⟩).1 (garbledRun ++ [o])
    readingDown.Summed countdowns countdownId garbledRun (some 10) garbled ∧
      Checksum.Burst countdown.payload (garbled.trimmed 4) ∧ c.fate = .ends (.aborted .crcError) ∧
      c.dictionary = (countdowns.commitError countdownId .crcError .upload).1 ∧
      c.dictionary.find? countdownId.mux = some { countdownEntry with error := .crcError } := by
  intro o c
  have hsummed : readingDown.Summed countdowns countdownId garbledRun (some 10) garbled :=
    ⟨rfl, rfl, rfl, ⟨[0xc6, 0x01, 0x20, 0, 10, 0, 0, 0], [[0x01, 9, 8, 7, 9, 0x55, 4, 3], [0x82, 2, 1, 0, 0, 0, 0, 0]],
      by decide +kernel, rfl⟩, by decide +kernel, true, rfl⟩
  have hread : Response.parse [0xd1, 70, 102, 0, 0, 0, 0, 0] =
      .ok (.blockUploadEnd 4 (Checksum.crc16 countdown.payload)) := by decide +kernel
  have hsized : ∀ n : UInt32, some 10 = some n → n ≠ 0 → n.toNat = (garbled.trimmed 4).length := by
    rintro n hn -
    cases hn
    rfl
  have hevent : o.event = .frame ⟨readingDown.responseId, [0xd1, 70, 102, 0, 0, 0, 0, 0]⟩ := rfl
  obtain ⟨hburst, -⟩ := checksum_rejects_bursts hsummed hevent hread hsized
  obtain ⟨hfate, -, hdictionary, -⟩ := hburst burst_garbled
  refine ⟨hsummed, burst_garbled, hfate, hdictionary, ?_⟩
  rw [hdictionary, Dictionary.find?_commitError, if_pos rfl]
  rfl

end Engine

end SdoClient
