/-
What a download has handed over when it completes. A payload of up to four octets goes out with the initiate request, a
longer or empty one in segments that the server confirms one by one, a domain in blocks. In each case the octets that
the server has received are the payload.

Main statement: `received_completed`.
-/
import Mathlib.Tactic
import SdoClient.Proofs.BlockDownload

namespace SdoClient

/-- the payload octets that a request carries -/
def Request.carried : Request → List UInt8
  | initiateDownloadExpedited _ data len => data.toList.take len.toNat
  | downloadSegment _ data len _ => data.toList.take len.toNat
  | _ => []

/-- the padding that the end of a block download reports -/
def Request.unused? : Request → Option Nat
  | blockDownloadEnd unused _ => some unused.toNat
  | _ => none

/-- the octets that the server has received of a write: those of the confirmed blocks without the padding, or those that
the initiate request and the segments carry -/
def Transfer.received (config : Config) (t : Transfer) (messages : List Message) : List UInt8 :=
  if t.target.usesBlocks then
    let confirmed := confirmedOctets messages
    confirmed.take (confirmed.length - ((said messages).findSome? Request.unused?).getD 0)
  else ((t.begin config).2 :: said messages).flatMap Request.carried

/-! ## The chunks of a write -/

theorem Request.carried_padded {count : Nat} {data : List UInt8} (h : data.length ≤ count) (hcount : count < 256) :
    (Wire.padded count data).toList.take (UInt8.ofNat data.length).toNat = data := by
  have hlength : (UInt8.ofNat data.length).toNat = data.length :=
    UInt8.toNat_ofNat_of_lt' (by simp only [UInt8.size]; omega)
  rw [hlength, Wire.toList_padded_of_ge h]
  exact List.take_left

/-- the next chunk carries the payload on -/
theorem Writing.carried_chunkRequest (w : Writing) (toggle : Bool) :
    w.payload.take w.offset ++ (w.chunkRequest toggle).carried = w.payload.take w.chunk.stop := by
  have hcarried : (w.chunkRequest toggle).carried = w.chunk.data :=
    Request.carried_padded w.length_chunk_le (by decide)
  have hstop : w.payload.take w.chunk.stop = w.payload.take (w.offset + 7) := by
    rw [List.take_eq_take_iff]
    simp only [chunk, Wire.segmentSize]
    omega
  rw [hcarried, hstop, List.take_add]
  rfl

/-! ## The invariant -/

/-- the server has everything -/
def Complete (blocks : Bool) (payload : List UInt8) (sent : List Request) : Prop :=
  match blocks with
  | true => ∃ unused crc, .blockDownloadEnd unused crc ∈ sent
  | false => sent.flatMap Request.carried = payload

/-- what the requests sent so far say of a write of `payload`, by its phase -/
def Delivers (blocks : Bool) (payload : List UInt8) (sent : List Request) : Fate → Prop
  | .goesOn (.writing w) =>
    w.payload = payload ∧ w.Sized ∧
      match w.phase with
      | .opening expedited =>
        blocks = false ∧ sent.flatMap Request.carried = payload.take w.offset ∧
          (expedited = true → payload.length ≤ w.offset)
      | .segment _ => blocks = false ∧ sent.flatMap Request.carried = payload.take w.offset
      | .blockOpening | .block _ => blocks = true
      | .blockEnd => blocks = true ∧ Complete true payload sent
  | .goesOn (.reading _) => False
  | .ends (.completed _) => Complete blocks payload sent
  | .ends (.aborted _) | .ends (.abandoned _) => True

namespace Delivers

variable {config : Config} {blocks : Bool} {payload : List UInt8} {sent : List Request} {w : Writing}

/-- the next chunk goes out -/
theorem sendChunk (hpayload : w.payload = payload) (hsized : w.Sized) (hblocks : blocks = false)
    (hsent : sent.flatMap Request.carried = payload.take w.offset) (toggle : Bool) :
    Delivers blocks payload (sent ++ ((w.sendChunk toggle).reaction.turn (.writing w)).requests)
      ((w.sendChunk toggle).reaction.turn (.writing w)).fate := by
  subst hpayload
  refine ⟨rfl, hsized, hblocks, ?_⟩
  rw [Writing.reaction_sendChunk, Reaction.turn, List.flatMap_append, hsent, List.flatMap_singleton]
  exact w.carried_chunkRequest toggle

/-- a response of the server -/
theorem answered (h : Delivers blocks payload sent (.goesOn (.writing w))) {response : Response} {reaction : Reaction}
    (hanswered : w.Answered config response reaction) :
    Delivers blocks payload (sent ++ (reaction.turn (.writing w)).requests) (reaction.turn (.writing w)).fate := by
  obtain ⟨hpayload, hsized, hphase⟩ := h
  cases hanswered with
  | abort code => trivial
  | finish confirmed =>
    rw [Reaction.turn, Option.toList_none, List.append_nil]
    rcases confirmed with phase | ⟨toggle, phase, hend⟩ | phase <;> rw [phase] at hphase
    · obtain ⟨rfl, hsent, hall⟩ := hphase
      exact hsent.trans (List.take_of_length_le (hall rfl))
    · obtain ⟨rfl, hsent⟩ := hphase
      subst hpayload
      exact hsent.trans (List.take_of_length_le (hsized.ge.trans hend))
    · obtain ⟨rfl, hclosed⟩ := hphase
      exact hclosed
  | opened phase =>
    rw [phase] at hphase
    obtain ⟨hblocks, hsent, -⟩ := hphase
    exact sendChunk hpayload hsized hblocks hsent false
  | continued phase =>
    rw [phase] at hphase
    obtain ⟨hblocks, hsent⟩ := hphase
    exact sendChunk hpayload hsized hblocks hsent _
  | blocksOpened phase | resends phase | advances phase =>
    rw [phase] at hphase
    exact ⟨hpayload, hsized, hphase⟩
  | concludes phase =>
    rw [phase] at hphase
    exact ⟨hpayload, hsized, hphase, _, _, List.mem_append_right _ List.mem_cons_self⟩

/-- a tick sends a segment of a block, or nothing -/
theorem paced (h : Delivers blocks payload sent (.goesOn (.writing w))) (ready : Bool) :
    Delivers blocks payload (sent ++ ((Active.writing w).paced ready).requests)
      ((Active.writing w).paced ready).fate := by
  simp only [Active.paced]
  split
  · rename_i o hsending
    obtain ⟨hphase, -⟩ := w.sending?_eq_some hsending
    cases ready with
    | false => simpa using h
    | true =>
      obtain ⟨hpayload, hsized, hblocks⟩ := h
      rw [hphase] at hblocks
      exact ⟨hpayload, hsized, hblocks⟩
  · simpa using h

/-- **Step lemma.** Every turn of a write keeps what its requests say. -/
theorem respond {a : Active} (h : Delivers blocks payload sent (.goesOn a)) (s : Stimulus) :
    Delivers blocks payload (sent ++ (a.respond config s).requests) (a.respond config s).fate := by
  cases a with
  | reading r => exact h.elim
  | writing w =>
    cases s with
    | lapse => trivial
    | tick ready => exact h.paced ready
    | frame data =>
      simp only [Active.respond]
      rcases w.reactTo_cases config data with ⟨code, ha⟩ | ⟨code, ha⟩ | ⟨response, -, hanswered⟩
      · rw [ha]
        trivial
      · rw [ha]
        trivial
      · exact h.answered hanswered

theorem begin (config : Config) (id : ObjectId) (v : Value) (payload : List UInt8) :
    Delivers id.usesBlocks payload [(Transfer.begin config ⟨id, .write v payload⟩).2]
      (.goesOn (Transfer.begin config ⟨id, .write v payload⟩).1) := by
  simp only [Transfer.begin]
  split
  · rename_i hblocks
    exact ⟨rfl, rfl, hblocks⟩
  · rename_i hblocks
    have hblocks : id.usesBlocks = false := by simpa using hblocks
    split
    · rename_i hsize
      refine ⟨rfl, rfl, hblocks, ?_, fun _ => Nat.le_refl _⟩
      rw [List.flatMap_singleton, List.take_length]
      exact Request.carried_padded hsize.2 (by decide)
    · exact ⟨rfl, rfl, hblocks, rfl, fun h => absurd h Bool.false_ne_true⟩

end Delivers

/-! ## Completed downloads -/

theorem mem_said {request : Request} {messages : List Message} :
    request ∈ said messages ↔ .offered request ∈ messages := by
  unfold said
  rw [List.mem_filterMap]
  constructor
  · rintro ⟨m, hm, hrequest⟩
    cases m with
    | received data => cases hrequest
    | offered r =>
      cases hrequest
      exact hm
  · exact fun hm => ⟨_, hm, rfl⟩

theorem unused?_eq_some {request : Request} {n : Nat} (h : request.unused? = some n) :
    ∃ unused crc, request = .blockDownloadEnd unused crc ∧ n = unused.toNat := by
  cases request with
  | blockDownloadEnd unused crc =>
    cases h
    exact ⟨unused, crc, rfl, rfl⟩
  | _ => cases h

/-- the confirmed blocks of a download that was ended are the payload and the padding reported for it -/
theorem BlockDownload.Faithful.take_confirmed {config : Config} {id : ObjectId} {payload : List UInt8}
    {messages : List Message} (h : Faithful config id payload messages) {unused : UInt8} {crc : UInt16}
    (hclosed : .blockDownloadEnd unused crc ∈ said messages) :
    (confirmedOctets messages).take
        ((confirmedOctets messages).length - ((said messages).findSome? Request.unused?).getD 0) = payload := by
  have hreported : ((said messages).findSome? Request.unused?).isSome :=
    List.findSome?_isSome_iff.2 ⟨_, hclosed, rfl⟩
  obtain ⟨n, hn⟩ := Option.isSome_iff_exists.1 hreported
  obtain ⟨request, hrequest, hunused⟩ := List.exists_of_findSome?_eq_some hn
  obtain ⟨unused', crc', rfl, rfl⟩ := unused?_eq_some hunused
  have hend := h.concluded unused' crc' (mem_said.1 hrequest)
  rw [hn, Option.getD_some, hend.whole, Nat.add_sub_cancel]
  exact hend.exact

namespace Engine

/-- **Delivery.** Once a write completes, the server has received its payload. -/
theorem received_completed {e : Engine} {d : Dictionary} {id : ObjectId} {v : Value} {payload : List UInt8}
    (ha : e.active = some (Transfer.begin e.config ⟨id, .write v payload⟩).1) (os : List Occasion)
    {stored : Option Value} :
    let c := e.course d (Transfer.begin e.config ⟨id, .write v payload⟩).1 os
    c.fate = .ends (.completed stored) → Transfer.received e.config ⟨id, .write v payload⟩ c.messages = payload := by
  intro c hdone
  have hdelivers := course_invariant (d := d) e.config
    (fun ms fate => Delivers id.usesBlocks payload
      ((Transfer.begin e.config ⟨id, .write v payload⟩).2 :: said ms) fate)
    (fun ms a s h => by
      rw [said_append, said_messages]
      exact h.respond s)
    rfl ha [] (Delivers.begin e.config id v payload) os
  change Delivers _ _ (_ :: said c.messages) c.fate at hdelivers
  rw [hdone] at hdelivers
  have hcomplete : Complete id.usesBlocks payload _ := hdelivers
  unfold Transfer.received
  cases hid : id.usesBlocks with
  | false =>
    rw [hid] at hcomplete
    exact hcomplete
  | true =>
    rw [hid] at hcomplete
    obtain ⟨unused, crc, hclosed⟩ := hcomplete
    have hsaid : .blockDownloadEnd unused crc ∈ said c.messages := by
      rcases List.mem_cons.1 hclosed with hfirst | hsaid
      · simp [Transfer.begin, hid] at hfirst
      · exact hsaid
    have hsound := course_invariant (d := d) e.config (BlockDownload.Sound e.config id payload)
      (fun _ _ s h => h.respond s) rfl ha [] (BlockDownload.Sound.begin hid) os
    exact hsound.faithful.take_confirmed hsaid

/-- a write of `v` goes on as it is, stores `v`, or fails -/
def Writes (t : Transfer) (v : Value) : Fate → Prop
  | .goesOn a => a.transfer = t
  | .ends (.completed stored) => stored = some v
  | .ends (.aborted _) | .ends (.abandoned _) => True

/-- a write that completes stores its value -/
theorem stored_completed {e : Engine} {d : Dictionary} {id : ObjectId} {v : Value} {payload : List UInt8}
    (ha : e.active = some (Transfer.begin e.config ⟨id, .write v payload⟩).1) (os : List Occasion)
    {stored : Option Value}
    (hdone : (e.course d (Transfer.begin e.config ⟨id, .write v payload⟩).1 os).fate = .ends (.completed stored)) :
    stored = some v := by
  have keep : ∀ (ms : List Message) (a : Active) (s : Stimulus), Writes ⟨id, .write v payload⟩ v (.goesOn a) →
      Writes ⟨id, .write v payload⟩ v (a.respond e.config s).fate := by
    intro ms a s ht
    have ht : a.transfer = ⟨id, .write v payload⟩ := ht
    cases hf : (a.respond e.config s).fate with
    | goesOn next => exact (Active.transfer_respond hf).trans ht
    | ends ending =>
      cases ending with
      | completed stored =>
        obtain ⟨data, response, -, -, hresult⟩ := a.respond_justified hf
        cases a with
        | reading r => cases ht
        | writing w =>
          obtain ⟨-, rfl, -⟩ : w.target = id ∧ w.value = v ∧ w.payload = payload ∧ w.size = payload.length := by
            simpa [Active.transfer] using ht
          exact hresult
      | aborted code | abandoned code => trivial
  have hcourse := course_invariant (d := d) e.config (fun _ => Writes ⟨id, .write v payload⟩ v) keep rfl ha []
    (transfer_begin e.config _) os
  rw [hdone] at hcourse
  exact hcourse

end Engine

end SdoClient
