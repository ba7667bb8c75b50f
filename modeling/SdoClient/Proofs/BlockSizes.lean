/-
The block sizes that a client announces. The request that opens a block upload carries the block size of the settings as
it is. An acknowledgement asks for what the rest of the upload needs, in the valid range, once the server has told the
size; while the size is unknown it carries the block size of the settings again.

Main statements:
- `announced_block_sizes`: in every run, each announced block size is the one of the settings, or it is valid and no
  larger than the rest of the upload needs;
- `set_size_announced_valid`: so settings that were made by their setter announce valid sizes only;
- `illegal_size_announced`: but an illegal block size in the settings reaches the server.
-/
import Mathlib.Tactic
import SdoClient.Proofs.Traffic

namespace SdoClient

/-- the block size that a request announces -/
def Request.announced? : Request → Option UInt8
  | blockUploadInitiate _ n _ _ | blockUploadAck _ n => some n
  | _ => none

/-! ## Sizes -/

/-- a block is no larger than the rest needs -/
theorem blockSizeFor_le_needed {rest : Nat} (h : 0 < rest) (most : UInt8) :
    blockSizeFor rest most ≤ (rest + 6) / 7 := by
  simp only [blockSizeFor, Wire.segmentSize]
  omega

/-- a block size to ask for when `received` octets are in, of the `declared` ones if that is not 0 -/
structure Fitting (configured : UInt8) (declared received : Nat) (n : UInt8) : Prop where
  unknown : declared = 0 → n = configured
  valid : declared ≠ 0 → Wire.validBlockSize n.toNat = true
  needed : received < declared → n.toNat ≤ (declared - received + 6) / 7

/-- a read asks for a fitting block size -/
theorem Reading.fitting_nextBlockSize (r : Reading) (config : Config) :
    Fitting config.blockSize r.size r.data.length (UInt8.ofNat (r.nextBlockSize config)) := by
  obtain ⟨hleast, hmost⟩ := blockSizeFor_bounds (r.size - r.data.length) config.blockSize
  unfold nextBlockSize
  by_cases hsize : r.size = 0
  · rw [if_pos hsize, UInt8.ofNat_toNat]
    exact ⟨fun _ => rfl, fun hknown => absurd hsize hknown, fun hmore => by omega⟩
  · have hvalue : (UInt8.ofNat (blockSizeFor (r.size - r.data.length) config.blockSize)).toNat =
        blockSizeFor (r.size - r.data.length) config.blockSize := by
      rw [UInt8.toNat_ofNat']
      omega
    rw [if_neg hsize]
    refine ⟨fun hunknown => absurd hunknown hsize, fun _ => ?_, fun hmore => ?_⟩
    · simp [hvalue, Wire.validBlockSize, Wire.blockMax, hleast, hmost]
    · rw [hvalue]
      exact blockSizeFor_le_needed (by omega) config.blockSize

/-! ## Reactions that announce nothing -/

/-- the requests of a reaction announce no block size -/
def Reaction.Mute (a : Active) (r : Reaction) : Prop := ∀ q ∈ (r.turn a).requests, q.announced? = none

section mute

variable {a : Active} {config : Config}

theorem mute_nothing {r : Reaction} (h : (r.turn a).requests = []) : r.Mute a := by
  intro q hq
  rw [h] at hq
  cases hq

theorem mute_one {r : Reaction} {request : Request} (h : (r.turn a).requests = [request])
    (hrequest : request.announced? = none) : r.Mute a := by
  intro q hq
  rw [h] at hq
  rw [List.mem_singleton.1 hq]
  exact hrequest

theorem mute_abort (code : AbortCode) : (Reaction.abort code).Mute a := mute_one rfl rfl

theorem mute_ite {c : Prop} [Decidable c] {x y : Reaction} (hx : x.Mute a) (hy : y.Mute a) :
    (if c then x else y).Mute a := by
  split
  · exact hx
  · exact hy

theorem Reading.mute_answer (r : Reading) (response : Response) : (r.answer config response).reaction.Mute a := by
  have hanswered := r.answered_answer config response
  generalize (r.answer config response).reaction = reaction at hanswered
  cases hanswered with
  | abort code => exact mute_abort _
  | finish value => exact mute_nothing rfl
  | closes phase value => exact mute_one rfl rfl
  | opened | continued | blocksOpened => exact mute_one rfl rfl

theorem Writing.mute_answer (w : Writing) (response : Response) : (w.answer config response).reaction.Mute a := by
  have hanswered := w.answered_answer config response
  generalize (w.answer config response).reaction = reaction at hanswered
  cases hanswered with
  | abort code => exact mute_abort _
  | opened | continued | concludes => exact mute_one rfl rfl
  | finish | blocksOpened | resends | advances => exact mute_nothing rfl

/-- a turn announces nothing, unless it acknowledges a block, and then it asks for a fitting block size -/
theorem Active.announces_cases (a : Active) (config : Config) (s : Stimulus) :
    (∀ q ∈ (a.respond config s).requests, q.announced? = none) ∨
      ∃ (r : Reading) (i : Intake) (data : List UInt8) (ackseq n : UInt8) (next : Reading),
        a = .reading r ∧ r.phase = .block i ∧ s = .frame data ∧
          a.respond config s = ⟨[.blockUploadAck ackseq n], .goesOn (.reading next)⟩ ∧
          Fitting config.blockSize next.size next.data.length n := by
  cases s with
  | lapse => exact .inl (mute_abort (a := a) .timeout)
  | tick ready =>
    refine .inl fun q hq => ?_
    simp only [respond, paced] at hq
    split at hq
    · cases hq
    · split at hq
      · split at hq
        · rw [List.mem_singleton.1 hq]
          rfl
        · cases hq
      · cases hq
  | frame data =>
    rw [respond]
    rcases a.reactTo_cases config data with ⟨code, ha⟩ | ⟨mux, code, -, ha⟩ | ⟨response, -, ha⟩ |
      ⟨r, i, segment, rfl, hphase, -, ha⟩ <;> rw [ha]
    · exact .inl (mute_abort code)
    · exact .inl (mute_nothing rfl)
    · cases a with
      | reading r => exact .inl (r.mute_answer response)
      | writing w => exact .inl (w.mute_answer response)
    · rw [Reading.reaction_segment]
      split
      · rw [Reading.acknowledge_eq]
        exact .inr ⟨r, i, data, _, _, _, rfl, hphase, rfl, rfl,
          (r.gathered (i.take segment)).fitting_nextBlockSize config⟩
      · exact .inl (mute_nothing rfl)

end mute

/-! ## What an announcement rests on -/

/-- messages that end with an acknowledgement, which asks for blocks of `n` segments: the last upload that was opened,
the answer of the server with the size and the blocks so far, and a fitting `n` -/
def Asked (config : Config) (messages : List Message) (n : UInt8) : Prop :=
  ∃ (earlier : List Message) (mux : Mux) (first : List UInt8) (crc : Bool) (size : Option UInt32)
    (rounds : List Round),
    messages = earlier ++ .offered (.blockUploadInitiate mux config.blockSize 0 config.crc) ::
      BlockUpload.opening first rounds ∧
    Response.parse first = .ok (.blockUploadInitiate mux crc size) ∧ (∀ b ∈ rounds, b.Sound) ∧
    Fitting config.blockSize ((size.map UInt32.toNat).getD 0) (rounds.flatMap Round.octets).length n

/-- a block size asked for is valid, if the one of the settings is -/
theorem Asked.valid {config : Config} {messages : List Message} {n : UInt8} (h : Asked config messages n)
    (hconfig : Wire.validBlockSize config.blockSize.toNat = true) : Wire.validBlockSize n.toNat = true := by
  obtain ⟨_, _, _, _, size, _, -, -, -, hfitting⟩ := h
  by_cases hdeclared : (size.map UInt32.toNat).getD 0 = 0
  · rw [hfitting.unknown hdeclared]
    exact hconfig
  · exact hfitting.valid hdeclared

/-- the block size that a request announces is right after these messages -/
def Founded (config : Config) (before : List Message) : Request → Prop
  | .blockUploadInitiate _ n _ _ => n = config.blockSize
  | .blockUploadAck ackseq n => Asked config (before ++ [.offered (.blockUploadAck ackseq n)]) n
  | _ => True

theorem founded_of_mute {config : Config} {before : List Message} {q : Request} (h : q.announced? = none) :
    Founded config before q := by
  cases q with
  | blockUploadInitiate _ _ _ _ | blockUploadAck _ _ => cases h
  | _ => trivial

/-- all block sizes announced are right -/
inductive Announces (config : Config) : List Message → Prop
  | nil : Announces config []
  | received {messages : List Message} (h : Announces config messages) (data : List UInt8) :
      Announces config (messages ++ [.received data])
  | offered {messages : List Message} (h : Announces config messages) {q : Request}
      (founded : Founded config messages q) : Announces config (messages ++ [.offered q])

section announces

variable {config : Config} {messages : List Message}

theorem Announces.founded (h : Announces config messages) {before after : List Message} {q : Request}
    (hsplit : messages = before ++ .offered q :: after) : Founded config before q := by
  induction h generalizing after with
  | nil => simp at hsplit
  | received _ data ih =>
    rcases List.eq_nil_or_concat after with rfl | ⟨after, last, rfl⟩
    · cases (List.append_inj' hsplit rfl).2
    · rw [List.concat_eq_append, ← List.cons_append, ← List.append_assoc] at hsplit
      exact ih (List.append_inj' hsplit rfl).1
  | offered _ founded ih =>
    rcases List.eq_nil_or_concat after with rfl | ⟨after, last, rfl⟩
    · obtain ⟨rfl, hlast⟩ := List.append_inj' hsplit rfl
      cases hlast
      exact founded
    · rw [List.concat_eq_append, ← List.cons_append, ← List.append_assoc] at hsplit
      exact ih (List.append_inj' hsplit rfl).1

/-- under settings with a valid block size, only valid ones are announced -/
theorem Announces.valid (h : Announces config messages) (hconfig : Wire.validBlockSize config.blockSize.toNat = true)
    {q : Request} {n : UInt8} (hmem : .offered q ∈ messages) (hn : q.announced? = some n) :
    Wire.validBlockSize n.toNat = true := by
  obtain ⟨before, after, hsplit⟩ := List.append_of_mem hmem
  have hfounded := h.founded hsplit
  cases q with
  | blockUploadInitiate mux m pst crc =>
    cases hn
    obtain rfl : n = config.blockSize := hfounded
    exact hconfig
  | blockUploadAck ackseq m =>
    cases hn
    have hasked : Asked config _ n := hfounded
    exact hasked.valid hconfig
  | _ => cases hn

theorem Announces.heard (h : Announces config messages) (s : Stimulus) : Announces config (messages ++ s.heard) := by
  cases s with
  | frame data => exact h.received data
  | lapse | tick _ => rwa [Stimulus.heard, List.append_nil]

theorem Announces.mute (h : Announces config messages) {requests : List Request}
    (hmute : ∀ q ∈ requests, q.announced? = none) : Announces config (messages ++ requests.map .offered) := by
  induction requests generalizing messages with
  | nil => rwa [List.map_nil, List.append_nil]
  | cons q rest ih =>
    obtain ⟨hq, hrest⟩ := List.forall_mem_cons.1 hmute
    have hnext := ih (h.offered (founded_of_mute hq)) hrest
    rwa [List.append_assoc] at hnext

end announces

/-! ## The transfer in progress -/

/-- where a transfer stands in the messages: a block upload has come on since the request that opened it -/
structure Standing (config : Config) (messages : List Message) (a : Active) : Prop where
  spoken : a.transfer.Sized → ∃ w, Spoken w a
  progress : ∀ id, a.transfer = ⟨id, .read⟩ → id.usesBlocks = true → ∃ earlier current,
    messages = earlier ++ .offered (.blockUploadInitiate id.mux config.blockSize 0 config.crc) :: current ∧
      BlockUpload.Progress config id current (.goesOn a)

section standing

variable {config : Config} {messages : List Message} {a : Active}

theorem standing_begin (config : Config) (messages : List Message) (t : Transfer) :
    Standing config (messages ++ [.offered (t.begin config).2]) (t.begin config).1 := by
  refine ⟨fun hsized => ⟨_, spoken_begin config (Engine.transfer_begin config t ▸ hsized)⟩,
    fun id ht hid => ⟨messages, [], ?_, ?_⟩⟩
  · rw [Engine.transfer_begin] at ht
    subst ht
    simp only [Transfer.begin, hid, if_true]
  · rw [Engine.transfer_begin] at ht
    subst ht
    exact .begin hid

/-- the request that opens a transfer announces the block size of the settings, if any -/
theorem founded_begin (config : Config) (messages : List Message) (t : Transfer) :
    Founded config messages (t.begin config).2 := by
  obtain ⟨id, job⟩ := t
  cases job with
  | read =>
    simp only [Transfer.begin]
    split
    · rfl
    · trivial
  | write v payload =>
    simp only [Transfer.begin]
    split
    · trivial
    · split <;> trivial

/-- right after an offer, the messages of a block upload are its opening and whole blocks -/
theorem BlockUpload.Progress.between {id : ObjectId} {current : List Message} {r : Reading} {q : Request}
    (h : Progress config id (current ++ [.offered q]) (.goesOn (.reading r))) :
    ∃ (first : List UInt8) (crc : Bool) (size : Option UInt32) (rounds : List Round),
      current ++ [.offered q] = opening first rounds ∧
        Response.parse first = .ok (.blockUploadInitiate id.mux crc size) ∧ (∀ b ∈ rounds, b.Sound) ∧
        r.size = (size.map UInt32.toNat).getD 0 ∧ r.data = rounds.flatMap Round.octets := by
  have hunderway : ∃ checked segments, Underway config id (current ++ [.offered q]) r checked segments := by
    obtain ⟨-, hprogress⟩ := h
    split at hprogress
    · exact absurd hprogress (List.append_ne_nil_of_right_ne_nil _ (List.cons_ne_nil _ _))
    · obtain ⟨segments, hunderway, -⟩ := hprogress
      exact ⟨_, segments, hunderway⟩
    · exact ⟨_, [], hprogress⟩
    · exact hprogress.elim
  obtain ⟨-, -, first, crc, size, rounds, frames, hfirst, hrounds, -, hmessages, hsize, hdata, -⟩ := hunderway
  -- the last message is an offer, so no segment of another block is in yet
  rcases List.eq_nil_or_concat frames with rfl | ⟨frames, last, rfl⟩
  · rw [List.map_nil, List.append_nil] at hmessages
    exact ⟨first, crc, size, rounds, hmessages, hfirst, hrounds, hsize, hdata⟩
  · rw [List.concat_eq_append, List.map_append, ← List.append_assoc] at hmessages
    cases (List.append_inj' hmessages rfl).2

/-- **Step lemma.** A turn announces only what is right, and the transfer goes on to stand where the messages say. -/
theorem Standing.respond (h : Standing config messages a) (hright : Announces config messages) (s : Stimulus) :
    Announces config (messages ++ (a.respond config s).messages s) ∧
      ∀ next, (a.respond config s).fate = .goesOn next →
        Standing config (messages ++ (a.respond config s).messages s) next := by
  have hstanding : ∀ next, (a.respond config s).fate = .goesOn next →
      Standing config (messages ++ (a.respond config s).messages s) next := by
    intro next hnext
    have htransfer := Active.transfer_respond hnext
    refine ⟨fun hsized => ?_, fun id ht hid => ?_⟩
    · obtain ⟨w, hspoken⟩ := h.spoken (htransfer ▸ hsized)
      have hspeaks := hspoken.respond config s
      rw [Speaks, hnext] at hspeaks
      exact ⟨_, hspeaks⟩
    rw [htransfer] at ht
    obtain ⟨earlier, current, rfl, hprogress⟩ := h.progress id ht hid
    have hturn := hprogress.respond hid s
    rw [hnext] at hturn
    exact ⟨earlier, _, by rw [List.append_assoc, List.cons_append], hturn⟩
  refine ⟨?_, hstanding⟩
  have hheard := hright.heard s
  rcases a.announces_cases config s with hmute | ⟨r, i, data, ackseq, n, next, rfl, hphase, rfl, hturn, hfitting⟩
  · rw [Turn.messages, ← List.append_assoc]
    exact hheard.mute hmute
  · -- the acknowledgement of a block
    have hblocks : r.target.usesBlocks = true := by
      obtain ⟨w, hspoken⟩ := h.spoken (Transfer.sized_read r.target)
      simp only [Spoken, hphase] at hspoken
      exact hspoken.1
    obtain ⟨earlier, current, rfl, hprogress⟩ := h.progress r.target rfl hblocks
    have hnext := hprogress.respond hblocks (.frame data)
    rw [hturn, Turn.messages, List.map_singleton, ← List.append_assoc] at hnext
    obtain ⟨first, crc, size, rounds, hmessages, hfirst, hrounds, hsize, hdata⟩ := hnext.between
    rw [hsize, hdata] at hfitting
    rw [hturn, Turn.messages, List.map_singleton, ← List.append_assoc]
    refine hheard.offered ⟨earlier, r.target.mux, first, crc, size, rounds, ?_, hfirst, hrounds, hfitting⟩
    rw [← hmessages]
    simp only [List.append_assoc, List.cons_append]

end standing

/-! ## Runs -/

namespace Service

variable {config : Config} {messages : List Message} {s : Service}

/-- an engine under settings that do not change, all announcements right, and the transfer where the messages say -/
structure Traced (config : Config) (messages : List Message) (s : Service) : Prop where
  settings : s.engine.config = config
  right : Announces config messages
  standing : ∀ a ∈ s.engine.active, Standing config messages a

theorem traced_start (node : UInt8) (config : Config) (d : Dictionary) : (start node config d).Traced config [] :=
  ⟨rfl, .nil, fun a ha => by cases ha⟩

/-- **Run lemma.** Every run announces only what is right. -/
theorem Traced.run (h : s.Traced config messages) (ms : List Move) :
    (s.run ms).Traced config (messages ++ s.traffic ms) := by
  let Q : List Message → Option Active → Prop := fun messages current =>
    Announces config messages ∧ ∀ a ∈ current, Standing config messages a
  have opens : ∀ messages (t : Transfer), Q messages none →
      Q (messages ++ [.offered (t.begin config).2]) (some (t.begin config).1) := by
    rintro messages t ⟨hright, -⟩
    refine ⟨hright.offered (founded_begin config messages t), fun a ha => ?_⟩
    cases ha
    exact standing_begin config messages t
  have hears : ∀ messages data, Q messages none → Q (messages ++ [.received data]) none :=
    fun messages data hkept => ⟨hkept.1.received data, fun a ha => by cases ha⟩
  have turns : ∀ messages a s, Q messages (some a) →
      Q (messages ++ (a.respond config s).messages s) (a.respond config s).fate.next? := by
    rintro messages a s ⟨hright, hstanding⟩
    obtain ⟨hturn, hstands⟩ := (hstanding a rfl).respond hright s
    exact ⟨hturn, fun next hnext => hstands next (Fate.next?_eq_some.1 hnext)⟩
  obtain ⟨hright, hstanding⟩ := traffic_invariant (Q := Q) opens hears turns h.settings ⟨h.right, h.standing⟩ ms
  exact ⟨(s.config_run ms).trans h.settings, hright, hstanding⟩

/-- **Announced block sizes.** Whatever a new engine meets, the traffic holds all its requests, and among them: a
request that opens a block upload announces the block size of the settings. An acknowledgement follows the last such
request, the answer of the server and the blocks since; it announces the block size of the settings if the server told
no size, and otherwise a valid one, which is no larger than the rest of the upload needs as long as there is a rest. So
under settings with a valid block size, all block sizes announced are valid. -/
theorem announced_block_sizes (node : UInt8) (config : Config) (d : Dictionary) (ms : List Move) :
    let traffic := (start node config d).traffic ms
    said traffic = (start node config d).offered ms ∧
      (∀ mux n pst crc, .offered (.blockUploadInitiate mux n pst crc) ∈ traffic → n = config.blockSize) ∧
      (∀ before ackseq n after, traffic = before ++ .offered (.blockUploadAck ackseq n) :: after →
        Asked config (before ++ [.offered (.blockUploadAck ackseq n)]) n) ∧
      (Wire.validBlockSize config.blockSize.toNat = true → ∀ q n, .offered q ∈ traffic → q.announced? = some n →
        Wire.validBlockSize n.toNat = true) := by
  intro traffic
  have hright : Announces config traffic := ((traced_start node config d).run ms).right
  have hinitiate : ∀ mux n pst crc, .offered (.blockUploadInitiate mux n pst crc) ∈ traffic → n = config.blockSize := by
    intro mux n pst crc hmem
    obtain ⟨before, after, hsplit⟩ := List.append_of_mem hmem
    exact hright.founded hsplit
  exact ⟨said_traffic _ ms, hinitiate, fun before ackseq n after hsplit => hright.founded hsplit,
    fun hconfig q n hmem hn => hright.valid hconfig hmem hn⟩

/-- **The setter keeps the announcements valid.** Under settings whose block size was set by it, whatever size was asked
for, a new engine announces valid block sizes only. -/
theorem set_size_announced_valid (node : UInt8) (config : Config) (asked : UInt8) (d : Dictionary) (ms : List Move)
    {q : Request} {n : UInt8} (hmem : .offered q ∈ (start node (config.withBlockSize asked) d).traffic ms)
    (hn : q.announced? = some n) : Wire.validBlockSize n.toNat = true :=
  ((traced_start node _ d).run ms).right.valid (config.valid_withBlockSize asked) hmem hn

/-- an upload of 20 octets in blocks of two segments, of which the first has come in -/
def blockOfTwo : List Move :=
  [.event ⟨0, true, .upload fileId⟩, .event ⟨1, true, .frame ⟨0x585, [0xc2, 0x01, 0x20, 0x00, 20, 0, 0, 0]⟩⟩,
    .event ⟨2, true, .frame ⟨0x585, [1, 1, 2, 3, 4, 5, 6, 7]⟩⟩,
    .event ⟨3, true, .frame ⟨0x585, [2, 8, 9, 10, 11, 12, 13, 14]⟩⟩]

/-- the six octets that are left need one segment -/
theorem announced_block_sizes_two :
    let config : Config := { blockSize := 2 }
    let traffic := (start 5 config twoEntries).traffic blockOfTwo
    let before : List Message :=
      [.offered (.blockUploadInitiate fileId.mux 2 0 false), .received [0xc2, 0x01, 0x20, 0x00, 20, 0, 0, 0],
        .offered .blockUploadStart, .received [1, 1, 2, 3, 4, 5, 6, 7], .received [2, 8, 9, 10, 11, 12, 13, 14]]
    traffic = before ++ [.offered (.blockUploadAck 2 1)] ∧ Asked config (before ++ [.offered (.blockUploadAck 2 1)]) 1 ∧
      Wire.validBlockSize config.blockSize.toNat = true ∧ Wire.validBlockSize (1 : UInt8).toNat = true := by
  intro config traffic before
  have htraffic : traffic = before ++ [.offered (.blockUploadAck 2 1)] := by decide +kernel
  obtain ⟨-, -, hasked, hvalid⟩ := announced_block_sizes 5 config twoEntries blockOfTwo
  have hconfig : Wire.validBlockSize config.blockSize.toNat = true := by decide
  have hmem : .offered (.blockUploadAck 2 1) ∈ traffic := by
    rw [htraffic]
    simp
  exact ⟨htraffic, hasked before 2 1 [] htraffic, hconfig, hvalid hconfig _ 1 hmem rfl⟩

/-- settings with the block size 0 are announced to the server -/
theorem illegal_size_announced :
    ¬∀ (node : UInt8) (config : Config) (d : Dictionary) (ms : List Move) (q : Request) (n : UInt8),
      .offered q ∈ (start node config d).traffic ms → q.announced? = some n →
        Wire.validBlockSize n.toNat = true := by
  intro hclaimed
  have hvalid := hclaimed 5 { blockSize := 0 } twoEntries [.event ⟨0, true, .upload fileId⟩]
    (.blockUploadInitiate fileId.mux 0 0 false) 0 (by decide +kernel) rfl
  exact absurd hvalid (by decide)

end Service

end SdoClient
