/-
Writes that are no block downloads. A payload of one to four octets goes out with the initiate request. Any other one is
announced and then sent in segments of seven octets, each after the confirmation of the one before. The server takes a
write by accepting it and confirming every segment, with alternating toggle bits.

Main statement: `segmented_download_exact`. At any time the segments offered are the first ones of the payload; the
write completes exactly on a whole confirmation, when all of the payload was offered; and a wrong toggle bit ends it.
-/
import Mathlib.Tactic
import SdoClient.Proofs.Delivery
import SdoClient.Proofs.SegmentedUpload

namespace SdoClient.Download

open Upload (Part Alternating toggleOf toggleOf_succ alternating_concat)

/-! ## Segments and their confirmations -/

/-- the payload goes out with the initiate request -/
def Expedited (payload : List UInt8) : Prop := 1 ≤ payload.length ∧ payload.length ≤ 4

instance (payload : List UInt8) : Decidable (Expedited payload) :=
  inferInstanceAs (Decidable (_ ∧ _))

/-- the number of segments in which a payload goes out -/
def partCount (payload : List UInt8) : Nat := if Expedited payload then 0 else segmentCount payload.length

/-- the segment of a payload after `i` others -/
def partAt (payload : List UInt8) (i : Nat) : Part :=
  { toggle := toggleOf i
    len := min 7 (payload.length - 7 * i)
    last := decide (payload.length ≤ 7 * i + 7)
    field := Wire.padded 7 (payload.drop (7 * i)) }

/-- the first `n` segments of a payload -/
def partsOf (payload : List UInt8) (n : Nat) : List Part := (List.range n).map (partAt payload)

/-- the request that offers a segment -/
def request (p : Part) : Request := .downloadSegment p.toggle p.field (UInt8.ofNat p.len) p.last

/-- the segment that a request offers -/
def part? : Request → Option Part
  | .downloadSegment toggle field len last => some ⟨toggle, len.toNat, last, field⟩
  | _ => none

/-- the segments offered -/
def sentParts (messages : List Message) : List Part := (said messages).filterMap part?

/-- the responses by which a server takes a payload: it accepts the write and confirms every segment -/
def confirmation (id : ObjectId) (payload : List UInt8) : List Response :=
  .downloadInitiate id.mux :: (List.range (partCount payload)).map fun i => .downloadSegment (toggleOf i)

/-- a write after the first `n` responses of its confirmation -/
def waiting (id : ObjectId) (v : Value) (payload : List UInt8) : Nat → Writing
  | 0 =>
    { target := id
      value := v
      payload
      offset := if Expedited payload then payload.length else 0
      phase := .opening (decide (Expedited payload)) }
  | k + 1 =>
    { target := id
      value := v
      payload
      offset := min (7 * (k + 1)) payload.length
      phase := .segment (toggleOf k) }

section segments

variable {payload : List UInt8}

theorem partsOf_succ (payload : List UInt8) (n : Nat) :
    partsOf payload (n + 1) = partsOf payload n ++ [partAt payload n] := by
  simp [partsOf, List.range_succ]

theorem partCount_eq_zero : partCount payload = 0 ↔ Expedited payload := by
  unfold partCount
  split
  · simp [*]
  · rename_i h
    have : segmentCount payload.length ≠ 0 := by
      unfold segmentCount
      omega
    simp [h, this]

/-- the segment after `i` others carries something of the payload, or is the only one of an empty payload -/
theorem lt_partCount {i : Nat} :
    i < partCount payload ↔ ¬Expedited payload ∧ (7 * i < payload.length ∨ payload.length = 0 ∧ i = 0) := by
  unfold partCount
  split
  · simp [*]
  · simp [*, lt_segmentCount]

theorem part?_request {p : Part} (h : p.len ≤ 7) : part? (request p) = some p := by
  have hlen : (UInt8.ofNat p.len).toNat = p.len := UInt8.toNat_ofNat_of_lt' (by simp only [UInt8.size]; omega)
  simp [request, part?, hlen]

theorem sentParts_partsOf {messages : List Message} {n : Nat} (closing : List Request)
    (h : said messages = (partsOf payload n).map request ++ closing) (hclosing : closing.filterMap part? = []) :
    sentParts messages = partsOf payload n := by
  have hparts : ∀ p ∈ partsOf payload n, part? (request p) = some p := by
    intro p hp
    obtain ⟨i, -, rfl⟩ := List.mem_map.1 hp
    exact part?_request (Nat.min_le_left _ _)
  rw [sentParts, h, List.filterMap_append, hclosing, List.append_nil, List.filterMap_map]
  exact (List.filterMap_congr hparts).trans List.filterMap_some

theorem octets_partAt (payload : List UInt8) (i : Nat) :
    (partAt payload i).octets = (payload.drop (7 * i)).take 7 := by
  have hlength : ((payload.drop (7 * i)).take 7).length = min 7 (payload.length - 7 * i) := by
    rw [List.length_take, List.length_drop]
  have hfield : (partAt payload i).field = Wire.padded 7 ((payload.drop (7 * i)).take 7) :=
    (Wire.padded_take 7 _).symm
  rw [Part.octets, hfield, Wire.toList_padded_of_ge (List.length_take_le _ _)]
  exact List.take_left' hlength

/-- the octets of the first segments are the beginning of the payload -/
theorem octetsOf_partsOf (payload : List UInt8) (n : Nat) :
    Upload.octetsOf (partsOf payload n) = payload.take (7 * n) := by
  induction n with
  | zero => rfl
  | succ n ih => rw [partsOf_succ, Upload.octetsOf_concat, ih, octets_partAt, Nat.mul_succ, List.take_add]

theorem alternating_partsOf (payload : List UInt8) (n : Nat) : Alternating (partsOf payload n) := by
  induction n with
  | zero => rfl
  | succ n ih =>
    rw [partsOf_succ, alternating_concat]
    exact ⟨ih, by simp [partAt, partsOf]⟩

theorem partsOf_getElem? {n i : Nat} {p : Part} (h : (partsOf payload n)[i]? = some p) :
    i < n ∧ p = partAt payload i := by
  obtain ⟨hi, rfl⟩ := List.getElem?_eq_some_iff.1 h
  have hn : i < n := by simpa [partsOf] using hi
  exact ⟨hn, by simp [partsOf]⟩

/-- the final segment alone is marked as the last, and every other one is full -/
theorem partAt_last {i : Nat} (h : i < segmentCount payload.length) :
    ((partAt payload i).last = true ↔ i + 1 = segmentCount payload.length) ∧
      ((partAt payload i).last = false → (partAt payload i).len = 7) := by
  have hfinal : i + 1 = segmentCount payload.length ↔ ¬i + 1 < segmentCount payload.length := by omega
  rw [hfinal, lt_segmentCount]
  simp only [partAt, decide_eq_true_eq, decide_eq_false_iff_not]
  omega

end segments

/-! ## The initiate request -/

section initiate

variable {id : ObjectId} {v : Value} {payload : List UInt8}

theorem begin_expedited (config : Config) (hid : id.usesBlocks = false) (h : Expedited payload) :
    (Transfer.begin config ⟨id, .write v payload⟩).2 =
      .initiateDownloadExpedited id.mux (Wire.padded 4 payload) (UInt8.ofNat payload.length) := by
  have hsize : 1 ≤ payload.length ∧ payload.length ≤ Wire.expeditedMax := h
  simp [Transfer.begin, hid, hsize]

theorem begin_announced (config : Config) (hid : id.usesBlocks = false) (h : ¬Expedited payload) :
    (Transfer.begin config ⟨id, .write v payload⟩).2 = .initiateDownload id.mux (announced payload.length) := by
  have hsize : ¬(1 ≤ payload.length ∧ payload.length ≤ Wire.expeditedMax) := h
  simp [Transfer.begin, hid, hsize]

/-- the octets of an initiate request that carries the payload: how many of the four are unused, and zeros there -/
theorem toBytes_expedited (mux : Mux) (h : Expedited payload) :
    (Request.initiateDownloadExpedited mux (Wire.padded 4 payload) (UInt8.ofNat payload.length)).toBytes =
      Wire.command 1 (4 * (4 - payload.length) + 3) ::
        (Request.muxBytes mux ++ (payload ++ List.replicate (4 - payload.length) 0)) := by
  obtain ⟨hlow, hhigh⟩ := h
  have hlength : (UInt8.ofNat payload.length).toNat = payload.length :=
    UInt8.toNat_ofNat_of_lt' (by simp only [UInt8.size]; omega)
  have hunused : (4 - payload.length) % 4 = 4 - payload.length := Nat.mod_eq_of_lt (by omega)
  rw [Request.toBytes, hlength, hunused, Wire.toList_padded_of_ge hhigh]
  rfl

/-- the octets of an initiate request that announces the payload -/
theorem toBytes_announced (mux : Mux) (hsize : payload.length < 2 ^ 32) :
    (Request.initiateDownload mux (announced payload.length)).toBytes =
      Wire.command 1 1 :: (Request.muxBytes mux ++ LittleEndian.encode 4 payload.length) := by
  have hmin : min payload.length (UInt32.size - 1) = payload.length := by
    simp only [UInt32.size]
    omega
  have hannounced : (announced payload.length).toNat = payload.length := by
    rw [announced, hmin]
    exact UInt32.toNat_ofNat_of_lt' hsize
  rw [Request.toBytes, hannounced]
  rfl

end initiate

/-! ## The turns of a write -/

section turns

variable {config : Config} {id : ObjectId} {v : Value} {payload : List UInt8} {n : Nat} {data : List UInt8}
  {response : Response}

theorem confirmation_zero (id : ObjectId) (payload : List UInt8) :
    (confirmation id payload)[0]? = some (.downloadInitiate id.mux) := rfl

theorem confirmation_succ (h : n < partCount payload) :
    (confirmation id payload)[n + 1]? = some (.downloadSegment (toggleOf n)) := by
  simp [confirmation, h]

theorem length_confirmation (id : ObjectId) (payload : List UInt8) :
    (confirmation id payload).length = partCount payload + 1 := by
  simp [confirmation]

/-- the next response of the confirmation -/
theorem take_confirmation_succ (h : (confirmation id payload)[n]? = some response) :
    (confirmation id payload).take (n + 1) = (confirmation id payload).take n ++ [response] := by
  rw [List.take_add_one, h, Option.toList_some]

/-- the turn of a write at a frame, after the first `n` responses of its confirmation -/
def turn (config : Config) (id : ObjectId) (v : Value) (payload : List UInt8) (n : Nat) (data : List UInt8) : Turn :=
  (Active.writing (waiting id v payload n)).respond config (.frame data)

theorem turn_answered (hread : Response.parse data = .ok response) (habort : ∀ mux code, response ≠ .abort mux code) :
    turn config id v payload n data =
      ((waiting id v payload n).answer config response).reaction.turn (.writing (waiting id v payload n)) := by
  rw [turn, Active.respond, Active.reactTo_response hread habort rfl, Active.answer]

/-- the chunk that begins after the first `n` segments is the next segment -/
theorem reaction_sendChunk (w : Writing) (hsized : w.Sized) (hpayload : w.payload = payload)
    (hoffset : w.offset = 7 * n) :
    (w.sendChunk (toggleOf n)).reaction =
      .ask (.writing { w with offset := min (7 * (n + 1)) payload.length, phase := .segment (toggleOf n) })
        (request (partAt payload n)) := by
  have hlength : w.chunk.data.length = min 7 (payload.length - 7 * n) := by
    rw [Writing.chunk, List.length_take, List.length_drop, hpayload, hoffset]
    rfl
  have hstop : w.chunk.stop = min (7 * (n + 1)) payload.length := by
    rw [Writing.chunk, hpayload, hoffset]
    rfl
  have hrequest : w.chunkRequest (toggleOf n) = request (partAt payload n) := by
    rw [Writing.chunkRequest, Writing.chunk_padded, Writing.chunk_last hsized, hlength, hpayload, hoffset]
    rfl
  rw [Writing.reaction_sendChunk, hstop, hrequest]

/-- a confirmation that is not the last: the next segment goes out -/
theorem turn_goesOn (hn : n < partCount payload) (hnext : (confirmation id payload)[n]? = some response)
    (hread : Response.parse data = .ok response) :
    turn config id v payload n data =
      ⟨[request (partAt payload n)], .goesOn (.writing (waiting id v payload (n + 1)))⟩ := by
  obtain ⟨hlong, hmore⟩ := lt_partCount.1 hn
  cases n with
  | zero =>
    obtain rfl : Response.downloadInitiate id.mux = response := Option.some.inj hnext
    have hopened := reaction_sendChunk (n := 0) (waiting id v payload 0) rfl rfl (if_neg hlong)
    rw [turn_answered hread (fun _ _ => Response.noConfusion), Writing.reaction_answer]
    simp only [waiting, hlong, decide_false, Bool.false_eq_true, if_true, if_false] at hopened ⊢
    exact congrArg (Reaction.turn _) hopened
  | succ k =>
    rw [confirmation_succ (by omega)] at hnext
    obtain rfl := Option.some.inj hnext
    have hoffset : (waiting id v payload (k + 1)).offset = 7 * (k + 1) := by
      change min (7 * (k + 1)) payload.length = 7 * (k + 1)
      omega
    have hmore : ¬(waiting id v payload (k + 1)).size ≤ (waiting id v payload (k + 1)).offset := by
      rw [hoffset]
      change ¬payload.length ≤ 7 * (k + 1)
      omega
    have hsent := reaction_sendChunk (waiting id v payload (k + 1)) rfl rfl hoffset
    rw [turn_answered hread (fun _ _ => Response.noConfusion), Writing.reaction_answer]
    change Reaction.turn _ ((waiting id v payload (k + 1)).confirmed (toggleOf k) (toggleOf k)).reaction = _
    rw [Writing.reaction_confirmed, if_neg (fun h => h rfl)]
    rw [toggleOf_succ] at hsent
    rw [if_neg hmore, hsent]
    simp only [waiting, toggleOf_succ, Reaction.turn]

/-- the last confirmation: the write completes -/
theorem turn_completes (hnext : (confirmation id payload)[partCount payload]? = some response)
    (hread : Response.parse data = .ok response) :
    turn config id v payload (partCount payload) data = ⟨[], .ends (.completed (some v))⟩ := by
  generalize hn : partCount payload = n at hnext ⊢
  cases n with
  | zero =>
    obtain rfl : Response.downloadInitiate id.mux = response := Option.some.inj hnext
    have hshort : Expedited payload := partCount_eq_zero.1 hn
    rw [turn_answered hread (fun _ _ => Response.noConfusion), Writing.reaction_answer]
    simp only [waiting, hshort, decide_true, if_true]
    rfl
  | succ k =>
    rw [confirmation_succ (by omega)] at hnext
    obtain rfl := Option.some.inj hnext
    have hend : (waiting id v payload (k + 1)).size ≤ (waiting id v payload (k + 1)).offset := by
      have hlast : ¬k + 1 < partCount payload := by omega
      have hlong : ¬Expedited payload := fun h => by simp [partCount_eq_zero.2 h] at hn
      have hall : ¬7 * (k + 1) < payload.length := fun h => hlast (lt_partCount.2 ⟨hlong, .inl h⟩)
      change payload.length ≤ min (7 * (k + 1)) payload.length
      omega
    rw [turn_answered hread (fun _ _ => Response.noConfusion), Writing.reaction_answer]
    change Reaction.turn _ ((waiting id v payload (k + 1)).confirmed (toggleOf k) (toggleOf k)).reaction = _
    rw [Writing.reaction_confirmed, if_neg (fun h => h rfl)]
    exact congrArg (Reaction.turn _) (if_pos hend)

/-- the confirmation of a segment with the other toggle bit -/
theorem turn_toggle {answered : Bool} (hread : Response.parse data = .ok (.downloadSegment answered))
    (hother : answered ≠ toggleOf n) :
    turn config id v payload (n + 1) data =
      ⟨[.abort id.mux .toggleNotAlternated], .ends (.aborted .toggleNotAlternated)⟩ := by
  rw [turn_answered hread (fun _ _ => Response.noConfusion), Writing.reaction_answer]
  change Reaction.turn _ ((waiting id v payload (n + 1)).confirmed (toggleOf n) answered).reaction = _
  rw [Writing.reaction_confirmed, if_pos hother]
  rfl

/-- any other frame than the next response of the confirmation ends the write -/
theorem turn_deviates (config : Config) (v : Value) (hn : n ≤ partCount payload)
    (hother : ∀ response, (confirmation id payload)[n]? = some response → Response.parse data ≠ .ok response) :
    ∃ ending : Ending, ending.failed = true ∧ (turn config id v payload n data).fate = .ends ending := by
  rw [turn, Active.respond]
  rcases (Active.writing (waiting id v payload n)).reactTo_cases config data with ⟨code, ha⟩ | ⟨mux, code, -, ha⟩ |
    ⟨response, hread, ha⟩ | ⟨r, i, s, hr, -, -, -⟩
  · exact ⟨_, rfl, by rw [ha]; rfl⟩
  · exact ⟨.abandoned code, rfl, by rw [ha]; rfl⟩
  · rw [ha, Active.answer, Writing.reaction_answer]
    cases n with
    | zero =>
      cases response with
      | downloadInitiate mux =>
        have hmux : mux ≠ id.mux := fun h => hother _ (confirmation_zero id payload) (h ▸ hread)
        exact ⟨.aborted .commandNotValid, rfl, congrArg (fun r => (Reaction.turn _ r).fate) (if_neg hmux)⟩
      | _ => exact ⟨.aborted .commandNotValid, rfl, rfl⟩
    | succ k =>
      cases response with
      | downloadSegment answered =>
        have htoggle : answered ≠ toggleOf k := fun h => hother _ (confirmation_succ hn) (h ▸ hread)
        change ∃ ending : Ending, _ ∧ (Reaction.turn _
          ((waiting id v payload (k + 1)).confirmed (toggleOf k) answered).reaction).fate = _
        rw [Writing.reaction_confirmed, if_pos htoggle]
        exact ⟨.aborted .toggleNotAlternated, rfl, rfl⟩
      | _ => exact ⟨.aborted .commandNotValid, rfl, rfl⟩
  · cases hr

/-- ticks leave such a write alone -/
theorem paced_waiting (id : ObjectId) (v : Value) (payload : List UInt8) (n : Nat) (ready : Bool) :
    (Active.writing (waiting id v payload n)).paced ready = ⟨[], .goesOn (.writing (waiting id v payload n))⟩ := by
  cases n <;> rfl

theorem begin_waiting (config : Config) (v : Value) (payload : List UInt8) (hid : id.usesBlocks = false) :
    (Transfer.begin config ⟨id, .write v payload⟩).1 = .writing (waiting id v payload 0) := by
  by_cases hshort : Expedited payload
  · have hsize : 1 ≤ payload.length ∧ payload.length ≤ Wire.expeditedMax := hshort
    simp [Transfer.begin, hid, hsize, waiting, hshort]
  · have hsize : ¬(1 ≤ payload.length ∧ payload.length ≤ Wire.expeditedMax) := hshort
    simp [Transfer.begin, hid, hsize, waiting, hshort]

end turns

/-! ## The exchange -/

/-- the first `n` responses of the confirmation came, and the first `n` segments went out -/
structure Exchanged (id : ObjectId) (payload : List UInt8) (messages : List Message) (n : Nat) : Prop where
  le : n ≤ partCount payload
  heard : (heard messages).map Response.parse = ((confirmation id payload).take n).map .ok
  said : said messages = (partsOf payload n).map request

/-- what the messages of a write say, by what becomes of it -/
def Sound (id : ObjectId) (v : Value) (payload : List UInt8) (messages : List Message) : Fate → Prop
  | .goesOn a => ∃ n, Exchanged id payload messages n ∧ a = .writing (waiting id v payload n)
  | .ends (.completed stored) =>
    stored = some v ∧ (heard messages).map Response.parse = (confirmation id payload).map .ok ∧
      said messages = (partsOf payload (partCount payload)).map request
  | .ends (.aborted code) =>
    (heard messages).map Response.parse ≠ (confirmation id payload).map .ok ∧
      ∃ n ≤ partCount payload, said messages = (partsOf payload n).map request ++ [.abort id.mux code]
  | .ends (.abandoned _) =>
    (heard messages).map Response.parse ≠ (confirmation id payload).map .ok ∧
      ∃ n ≤ partCount payload, said messages = (partsOf payload n).map request

section exchange

variable {config : Config} {id : ObjectId} {v : Value} {payload : List UInt8} {messages : List Message} {n : Nat}
  {data : List UInt8}

/-- after so many responses the confirmation is not whole yet -/
theorem Exchanged.unconfirmed (h : Exchanged id payload messages n) :
    (SdoClient.heard messages).map Response.parse ≠ (confirmation id payload).map .ok := by
  have hle := h.le
  intro hwhole
  have hlength := congrArg List.length (h.heard.symm.trans hwhole)
  rw [List.length_map, List.length_map, List.length_take, length_confirmation] at hlength
  omega

/-- a frame that is not the next response makes no confirmation whole -/
theorem Exchanged.deviated (h : Exchanged id payload messages n)
    (hother : ∀ response, (confirmation id payload)[n]? = some response → Response.parse data ≠ .ok response) :
    (SdoClient.heard messages).map Response.parse ++ [Response.parse data] ≠ (confirmation id payload).map .ok := by
  have hle := h.le
  have hn : n < (confirmation id payload).length := by
    rw [length_confirmation]
    omega
  intro hwhole
  have hnth := congrArg (·[n]?) hwhole
  have htake : (((confirmation id payload).take n).map (Except.ok (ε := FrameFault))).length = n := by
    rw [List.length_map, List.length_take, Nat.min_eq_left (Nat.le_of_lt hn)]
  simp only [h.heard, List.getElem?_append_right (Nat.le_of_eq htake), htake, Nat.sub_self,
    List.getElem?_cons_zero, List.getElem?_map, List.getElem?_eq_getElem hn, Option.map_some,
    Option.some.injEq] at hnth
  exact hother _ (List.getElem?_eq_getElem hn) hnth

/-- the write fails -/
theorem Exchanged.failed (h : Exchanged id payload messages n) {s : Stimulus} {ending : Ending}
    (hfate : ((Active.writing (waiting id v payload n)).respond config s).fate = .ends ending)
    (hfailed : ending.failed = true)
    (hheard : (SdoClient.heard (messages ++ s.heard)).map Response.parse ≠ (confirmation id payload).map .ok) :
    Sound id v payload (messages ++ ((Active.writing (waiting id v payload n)).respond config s).messages s)
      (.ends ending) := by
  have hjust := Active.respond_justified hfate
  have htarget : (Active.writing (waiting id v payload n)).target = id := by cases n <;> rfl
  have hheard : (SdoClient.heard (messages ++ ((Active.writing (waiting id v payload n)).respond config s).messages
      s)).map Response.parse ≠ (confirmation id payload).map .ok := by
    rwa [heard_append, heard_messages, ← heard_append]
  cases ending with
  | completed stored => cases hfailed
  | aborted code =>
    refine ⟨hheard, n, h.le, ?_⟩
    rw [said_append, said_messages, h.said, hjust, htarget]
  | abandoned code =>
    refine ⟨hheard, n, h.le, ?_⟩
    rw [said_append, said_messages, h.said, hjust.1, List.append_nil]

/-- **Step lemma.** Every turn of a write keeps what its messages say. -/
theorem Sound.respond {a : Active} (h : Sound id v payload messages (.goesOn a)) (config : Config) (s : Stimulus) :
    Sound id v payload (messages ++ (a.respond config s).messages s) (a.respond config s).fate := by
  obtain ⟨n, hex, rfl⟩ := h
  have hle := hex.le
  cases s with
  | tick ready =>
    have hturn : (Active.writing (waiting id v payload n)).respond config (.tick ready) =
        ⟨[], .goesOn (.writing (waiting id v payload n))⟩ := paced_waiting id v payload n ready
    rw [hturn]
    exact ⟨n, by simpa [Turn.messages, Stimulus.heard] using hex, rfl⟩
  | lapse =>
    refine hex.failed rfl rfl ?_
    simpa [Stimulus.heard] using hex.unconfirmed
  | frame data =>
    by_cases hnext : ∃ response, (confirmation id payload)[n]? = some response ∧ Response.parse data = .ok response
    · obtain ⟨response, hresponse, hread⟩ := hnext
      have hheard : (SdoClient.heard (messages ++ [.received data])).map Response.parse =
          ((confirmation id payload).take (n + 1)).map .ok := by
        rw [take_confirmation_succ hresponse, heard_append, List.map_append, List.map_append, hex.heard]
        exact congrArg (_ ++ [·]) hread
      by_cases hn : n < partCount payload
      · have hturn : (Active.writing (waiting id v payload n)).respond config (.frame data) =
            ⟨[request (partAt payload n)], .goesOn (.writing (waiting id v payload (n + 1)))⟩ :=
          turn_goesOn hn hresponse hread
        rw [hturn]
        refine ⟨n + 1, ⟨hn, ?_, ?_⟩, rfl⟩
        · rw [heard_append, heard_messages, ← heard_append]
          exact hheard
        · rw [said_append, said_messages, hex.said, partsOf_succ, List.map_append, List.map_singleton]
      · obtain rfl : n = partCount payload := by omega
        have hturn : (Active.writing (waiting id v payload (partCount payload))).respond config (.frame data) =
            ⟨[], .ends (.completed (some v))⟩ := turn_completes hresponse hread
        rw [hturn]
        refine ⟨rfl, ?_, ?_⟩
        · rw [heard_append, heard_messages, ← heard_append]
          rw [List.take_of_length_le (Nat.le_of_eq (length_confirmation id payload))] at hheard
          exact hheard
        · rw [said_append, said_messages, hex.said, List.append_nil]
    · have hother : ∀ response, (confirmation id payload)[n]? = some response →
          Response.parse data ≠ .ok response := fun response hr hread => hnext ⟨response, hr, hread⟩
      obtain ⟨ending, hfailed, hfate⟩ := turn_deviates config v hle hother
      have hfate : ((Active.writing (waiting id v payload n)).respond config (.frame data)).fate = .ends ending := hfate
      rw [hfate]
      refine hex.failed hfate hfailed ?_
      rw [heard_append, List.map_append]
      exact hex.deviated hother

theorem Sound.begin (id : ObjectId) (v : Value) (payload : List UInt8) :
    Sound id v payload [] (.goesOn (.writing (waiting id v payload 0))) :=
  ⟨0, ⟨Nat.zero_le _, rfl, rfl⟩, rfl⟩

/-- all that a write offers is segments and perhaps an abort at its end -/
theorem Sound.said_eq {fate : Fate} (h : Sound id v payload messages fate) :
    ∃ n ≤ partCount payload, sentParts messages = partsOf payload n ∧
      ∃ closing, said messages = (partsOf payload n).map request ++ closing ∧
        (closing = [] ∨ ∃ code, fate = .ends (.aborted code) ∧ closing = [.abort id.mux code]) := by
  have hwhole : ∀ n, said messages = (partsOf payload n).map request → sentParts messages = partsOf payload n :=
    fun n hsaid => sentParts_partsOf [] (by rw [hsaid, List.append_nil]) rfl
  rcases fate with a | (stored | code | code)
  · obtain ⟨n, hex, -⟩ := h
    exact ⟨n, hex.le, hwhole n hex.said, [], by rw [hex.said, List.append_nil], .inl rfl⟩
  · obtain ⟨-, -, hsaid⟩ := h
    exact ⟨_, Nat.le_refl _, hwhole _ hsaid, [], by rw [hsaid, List.append_nil], .inl rfl⟩
  · obtain ⟨-, n, hn, hsaid⟩ := h
    exact ⟨n, hn, sentParts_partsOf _ hsaid rfl, [.abort id.mux code], hsaid, .inr ⟨code, rfl, rfl⟩⟩
  · obtain ⟨-, n, hn, hsaid⟩ := h
    exact ⟨n, hn, hwhole n hsaid, [], by rw [hsaid, List.append_nil], .inl rfl⟩

/-- the write completes exactly on a whole confirmation -/
theorem Sound.completed_iff {fate : Fate} (h : Sound id v payload messages fate) :
    fate = .ends (.completed (some v)) ↔
      (heard messages).map Response.parse = (confirmation id payload).map .ok := by
  rcases fate with a | (stored | code | code)
  · obtain ⟨n, hex, -⟩ := h
    exact iff_of_false Fate.noConfusion hex.unconfirmed
  · obtain ⟨rfl, hwhole, -⟩ := h
    exact iff_of_true rfl hwhole
  · exact iff_of_false (by simp) h.1
  · exact iff_of_false (by simp) h.1

/-- frames that begin with the rest of the confirmation complete the write -/
theorem listen_confirmed (hn : n ≤ partCount payload) {frames : List (List UInt8)}
    (h : ((confirmation id payload).drop n).map .ok <+: frames.map Response.parse) :
    ((Active.writing (waiting id v payload n)).listen config frames).fate = .ends (.completed (some v)) := by
  have hlt : n < (confirmation id payload).length := by
    rw [length_confirmation]
    omega
  have hresponse := List.getElem?_eq_getElem hlt
  rw [List.drop_eq_getElem_cons hlt, List.map_cons] at h
  induction frames generalizing n with
  | nil => exact absurd (List.prefix_nil.1 h) (List.cons_ne_nil _ _)
  | cons data rest ih =>
    rw [List.map_cons, List.cons_prefix_cons] at h
    obtain ⟨hread, hrest⟩ := h
    by_cases hmore : n < partCount payload
    · have hturn : (Active.writing (waiting id v payload n)).respond config (.frame data) =
          ⟨[request (partAt payload n)], .goesOn (.writing (waiting id v payload (n + 1)))⟩ :=
        turn_goesOn hmore hresponse hread.symm
      have hlt' : n + 1 < (confirmation id payload).length := by
        rw [length_confirmation]
        omega
      rw [List.drop_eq_getElem_cons hlt', List.map_cons] at hrest
      have hlater := ih hmore hlt' hrest (List.getElem?_eq_getElem hlt')
      rw [Active.listen, hturn]
      exact hlater
    · obtain rfl : n = partCount payload := by omega
      have hturn : (Active.writing (waiting id v payload (partCount payload))).respond config (.frame data) =
          ⟨[], .ends (.completed (some v))⟩ := turn_completes hresponse hread.symm
      rw [Active.listen, hturn]

end exchange

end SdoClient.Download

namespace SdoClient.Engine

open Download Upload

section

variable {e : Engine} {d : Dictionary} {id : ObjectId} {v : Value} {payload : List UInt8} {a next : Active}
  {os : List Occasion}

/-- without a timeout, a write completes on a whole confirmation -/
theorem course_confirmed (ha : e.active = some (.writing (waiting id v payload 0))) (hos : e.Timely d os)
    (h : (confirmation id payload).map .ok <+: (e.delivered os).map Response.parse) :
    (e.course d (.writing (waiting id v payload 0)) os).fate = .ends (.completed (some v)) := by
  let Waits : Active → Prop := fun a => ∃ messages, Sound id v payload messages (.goesOn a)
  have hkeep : ∀ a data next, Waits a → (a.respond e.config (.frame data)).fate = .goesOn next → Waits next := by
    rintro a data next ⟨messages, hsound⟩ hfate
    have hturn := hsound.respond e.config (.frame data)
    rw [hfate] at hturn
    exact ⟨_, hturn⟩
  have hpaced : ∀ a ready, Waits a → a.paced ready = ⟨[], .goesOn a⟩ := by
    rintro a ready ⟨messages, n, -, rfl⟩
    exact paced_waiting id v payload n ready
  have hlisten := course_listen (d := d) e.config Waits hkeep hpaced rfl ha ⟨[], Sound.begin id v payload⟩ hos
  rw [show (e.course d _ os).fate = (e.course d _ os).toPassage.fate from rfl, hlisten]
  exact listen_confirmed (Nat.zero_le _) h

/-- without a timeout, a write completes exactly on a whole confirmation -/
theorem course_confirmed_iff (hbegin : a = .writing (waiting id v payload 0)) (ha : e.active = some a)
    (hos : e.Timely d os) (hsound : Sound id v payload (e.course d a os).messages (e.course d a os).fate) :
    (e.course d a os).fate = .ends (.completed (some v)) ↔
      (confirmation id payload).map .ok <+: (e.delivered os).map Response.parse := by
  subst hbegin
  constructor
  · intro hfate
    rw [← hsound.completed_iff.1 hfate]
    exact (heard_course_isPrefix ha os).map _
  · exact course_confirmed ha hos

/-- once a write completes, its requests have carried all of the payload, and its value is stored -/
theorem course_carried (config : Config) (hconfig : e.config = config) (hid : id.usesBlocks = false)
    (ha : e.active = some (Transfer.begin config ⟨id, .write v payload⟩).1) (os : List Occasion) {stored : Option Value}
    (hdone : (e.course d (Transfer.begin config ⟨id, .write v payload⟩).1 os).fate = .ends (.completed stored)) :
    stored = some v ∧ ((Transfer.begin config ⟨id, .write v payload⟩).2 ::
      said (e.course d (Transfer.begin config ⟨id, .write v payload⟩).1 os).messages).flatMap Request.carried =
        payload := by
  subst hconfig
  have hreceived := received_completed ha os hdone
  rw [Transfer.received, hid] at hreceived
  exact ⟨stored_completed ha os hdone, hreceived⟩

/-- the confirmation of a segment with the wrong toggle bit ends the write, and no value changes -/
theorem course_toggle (ha : e.active = some a) {messages : List Message}
    (hsound : Sound id v payload messages (.goesOn a)) {toggle answered last : Bool} {field : Vector UInt8 7}
    {len : UInt8} (hsent : (said messages).getLast? = some (.downloadSegment toggle field len last))
    {frame : CanFrame} (hid : frame.id = e.responseId)
    (hread : Response.parse frame.data = .ok (.downloadSegment answered)) (hother : answered ≠ toggle)
    (clock : Time) (ready : Bool) :
    let c := e.course d a [⟨clock, ready, .frame frame⟩]
    c.fate = .ends (.aborted .toggleNotAlternated) ∧
      c.messages = [.received frame.data, .offered (.abort id.mux .toggleNotAlternated)] ∧
      ∀ m, (c.dictionary.find? m).map Entry.value = (d.find? m).map Entry.value := by
  intro c
  obtain ⟨n, hex, rfl⟩ := hsound
  rw [hex.said] at hsent
  cases n with
  | zero => cases hsent
  | succ k =>
    have htoggle : toggle = toggleOf k := by
      rw [partsOf_succ, List.map_append, List.map_singleton, List.getLast?_concat, request, Option.some.injEq] at hsent
      exact (Request.downloadSegment.inj hsent).1.symm
    have hturn : (Active.writing (waiting id v payload (k + 1))).respond e.config (.frame frame.data) =
        ⟨[.abort id.mux .toggleNotAlternated], .ends (.aborted .toggleNotAlternated)⟩ :=
      turn_toggle hread (htoggle ▸ hother)
    have hs : e.stimulus? ⟨clock, ready, .frame frame⟩ = some (.frame frame.data) := if_pos hid
    have hfate : ((Active.writing (waiting id v payload (k + 1))).respond e.config (.frame frame.data)).fate =
        .ends (.aborted .toggleNotAlternated) := by rw [hturn]
    have hcourse : c = _ := course_ends hs hfate
    refine ⟨?_, ?_, ?_⟩
    · rw [hcourse]
    · rw [hcourse, hturn]
      rfl
    · intro m
      have hdictionary : c.dictionary = c.fate.commit c.endedAt d _ := course_dictionary ha _
      rw [hdictionary, hcourse, Fate.commit, Ending.commit, Dictionary.find?_commitError]
      split
      · cases d.find? m <;> rfl
      · rfl

/-- **Expedited and segmented downloads deliver exactly the payload.** A write that moves no domain leaves the queue,
and anything may happen then. A payload of one to four octets is carried by the initiate request, with the count of
unused octets and zeros there, and no segment follows. Any other payload is announced with its size, and the segments
offered are its beginning: with alternating toggle bits, full but for the final one, which alone is marked as the last.
Nothing else is offered but an abort at the end. The write completes exactly when the frames it has heard are the whole
confirmation, and then all of the payload was offered and the value is stored; without a timeout it completes whenever
the delivered frames begin with that confirmation. The confirmation of the segment just offered with the other toggle
bit aborts the write, and no value changes. -/
theorem segmented_download_exact (e : Engine) (clock : Time) (d : Dictionary) (id : ObjectId) (v : Value)
    (payload : List UInt8) (rest : List Transfer) (os : List Occasion) (hid : id.usesBlocks = false)
    (hsize : payload.length < 2 ^ 32) (hidle : e.active = none)
    (hqueue : e.queue = ⟨id, .write v payload⟩ :: rest) :
    let begun := (e.startNext clock).1
    let first := (Transfer.begin e.config ⟨id, .write v payload⟩).2
    let c := begun.course d (Transfer.begin e.config ⟨id, .write v payload⟩).1 os
    let parts := sentParts c.messages
    offers (e.startNext clock).2 = [first] ∧ said c.messages <+: offers (begun.run d os).effects ∧
      heard c.messages <+: begun.delivered os ∧
      (if 1 ≤ payload.length ∧ payload.length ≤ 4 then
        first.toBytes = Wire.command 1 (4 * (4 - payload.length) + 3) ::
            (Request.muxBytes id.mux ++ (payload ++ List.replicate (4 - payload.length) 0)) ∧
          parts = []
      else
        first.toBytes = Wire.command 1 1 :: (Request.muxBytes id.mux ++ LittleEndian.encode 4 payload.length)) ∧
      Upload.octetsOf parts <+: payload ∧ Alternating parts ∧
      (∀ i p, parts[i]? = some p →
        (p.last = true ↔ i + 1 = segmentCount payload.length) ∧ (p.last = false → p.len = 7)) ∧
      (∃ closing, said c.messages = parts.map request ++ closing ∧
        (closing = [] ∨ ∃ code, c.fate = .ends (.aborted code) ∧ closing = [.abort id.mux code])) ∧
      (c.fate = .ends (.completed (some v)) ↔
        (heard c.messages).map Response.parse = (confirmation id payload).map .ok) ∧
      (∀ stored, c.fate = .ends (.completed stored) →
        stored = some v ∧ (first :: said c.messages).flatMap Request.carried = payload) ∧
      (begun.Timely d os → (c.fate = .ends (.completed (some v)) ↔
        (confirmation id payload).map .ok <+: (begun.delivered os).map Response.parse)) ∧
      ∀ next toggle field len last, c.fate = .goesOn next →
        (said c.messages).getLast? = some (.downloadSegment toggle field len last) →
        ∀ later ready frame answered, frame.id = begun.responseId →
          Response.parse frame.data = .ok (.downloadSegment answered) → answered ≠ toggle →
          let c' := begun.course d (Transfer.begin e.config ⟨id, .write v payload⟩).1
            (os ++ [⟨later, ready, .frame frame⟩])
          c'.fate = .ends (.aborted .toggleNotAlternated) ∧
            c'.messages = c.messages ++ [.received frame.data, .offered (.abort id.mux .toggleNotAlternated)] ∧
            ∀ m, (c'.dictionary.find? m).map Entry.value = (d.find? m).map Entry.value := by
  intro begun first c parts
  obtain ⟨ha, hfirst⟩ := startNext_starts clock hidle hqueue
  have hconfig : begun.config = e.config := (startNext_spec e clock).2.2.1
  have hbegin := begin_waiting e.config v payload hid
  have hsound : Sound id v payload c.messages c.fate := by
    have hbegun := Sound.begin id v payload
    rw [← hbegin] at hbegun
    have hkeep := fun messages a s (h : Sound id v payload messages (.goesOn a)) => h.respond e.config s
    exact course_invariant (d := d) e.config (Sound id v payload) hkeep hconfig ha [] hbegun os
  obtain ⟨n, hn, hparts, closing, hsaid, hclosing⟩ := hsound.said_eq
  have hparts : parts = partsOf payload n := hparts
  refine ⟨hfirst, said_course_isPrefix ha os, heard_course_isPrefix ha os, ?_, ?_, ?_, ?_, ?_, hsound.completed_iff,
    fun stored hdone => course_carried e.config hconfig hid ha os hdone,
    fun htimely => course_confirmed_iff hbegin ha htimely hsound, ?_⟩
  · split
    · rename_i hshort
      refine ⟨?_, ?_⟩
      · have hfirst : first = _ := begin_expedited e.config hid hshort
        rw [hfirst]
        exact toBytes_expedited id.mux hshort
      · rw [partCount_eq_zero.2 hshort] at hn
        rw [hparts, Nat.le_zero.1 hn]
        rfl
    · rename_i hlong
      have hfirst : first = _ := begin_announced e.config hid hlong
      rw [hfirst]
      exact toBytes_announced id.mux hsize
  · rw [hparts, octetsOf_partsOf]
    exact List.take_prefix _ _
  · rw [hparts]
    exact alternating_partsOf payload n
  · intro i p hp
    rw [hparts] at hp
    obtain ⟨hi, rfl⟩ := partsOf_getElem? hp
    have hcount : i < segmentCount payload.length := lt_segmentCount.2 (lt_partCount.1 (Nat.lt_of_lt_of_le hi hn)).2
    exact partAt_last hcount
  · exact ⟨closing, by rw [hsaid, hparts], hclosing⟩
  · intro next toggle field len last hfate hlast later ready frame answered hframe hread hother c'
    obtain ⟨hrun, -⟩ := course_run ha os hfate
    rw [hfate] at hsound
    have happended : c' = _ := course_append ha os [⟨later, ready, .frame frame⟩] hfate
    obtain ⟨hended, hmessages, hvalues⟩ := course_toggle (d := d) hrun.active hsound hlast
      (hframe.trans hrun.responseId.symm) hread hother later ready
    rw [happended]
    exact ⟨hended, congrArg (c.messages ++ ·) hmessages, hvalues⟩

/-- octets of node 5 -/
def labelId : ObjectId := ⟨0, 5, ⟨0x2002, 0⟩, .octetString⟩

/-- an engine that is about to write the ten octets -/
def labelling : Engine := { node := 5, queue := [⟨labelId, .write (.octets tenOctets) tenOctets⟩] }

/-- the server accepts the write and confirms two segments, with a foreign frame between -/
def labelledRun : List Occasion :=
  [⟨1, true, .frame ⟨0x585, [0x60, 0x02, 0x20, 0, 0, 0, 0, 0]⟩⟩, ⟨2, true, .frame ⟨0x585, [0x20, 0, 0, 0, 0, 0, 0, 0]⟩⟩,
    ⟨3, true, .frame ⟨0x586, [0x80, 0, 0, 0, 0, 0, 0, 0]⟩⟩, ⟨4, true, .frame ⟨0x585, [0x30, 0, 0, 0, 0, 0, 0, 0]⟩⟩]

theorem segmented_download_exact_label :
    let begun := (labelling.startNext 0).1
    let opened := Transfer.begin labelling.config ⟨labelId, .write (.octets tenOctets) tenOctets⟩
    let c := begun.course { bus := 0, node := 5 } opened.1 labelledRun
    labelId.usesBlocks = false ∧ tenOctets.length < 2 ^ 32 ∧ labelling.active = none ∧
      begun.Timely { bus := 0, node := 5 } labelledRun ∧ c.fate = .ends (.completed (some (.octets tenOctets))) ∧
      (opened.2 :: said c.messages).flatMap Request.carried = tenOctets ∧
      (sentParts c.messages).map Part.len = [7, 3] := by
  intro begun opened c
  have htimely : begun.Timely { bus := 0, node := 5 } labelledRun := by decide +kernel
  obtain ⟨-, -, -, -, -, -, -, -, -, hdone, hcompletes, -⟩ := segmented_download_exact labelling 0
    { bus := 0, node := 5 } labelId (.octets tenOctets) tenOctets [] labelledRun rfl (by decide) rfl rfl
  have hconfirmed : (confirmation labelId tenOctets).map .ok <+: (begun.delivered labelledRun).map Response.parse := by
    decide +kernel
  have hfate : c.fate = .ends (.completed (some (.octets tenOctets))) := (hcompletes htimely).2 hconfirmed
  exact ⟨rfl, by decide, rfl, htimely, hfate, (hdone _ hfate).2, by decide +kernel⟩

end

end SdoClient.Engine
