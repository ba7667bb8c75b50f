/-
Writing a value and reading it back. The server answers the read with the octets that it received of the write, in any
of the forms that the protocol has for them; then the entry holds after the read what it held after the write.

Main statement: `read_back_agrees`.
-/
import Mathlib.Tactic
import SdoClient.Proofs.BlockStream
import SdoClient.Proofs.Delivery
import SdoClient.Proofs.SegmentedUpload
import SdoClient.Proofs.ValueRoundTrip

namespace SdoClient

open Upload

/-! ## Answers that carry given octets -/

/-- the frames by which a server answers a read of `id` with the octets `payload` -/
inductive Echo (config : Config) (id : ObjectId) (payload : List UInt8) : List (List UInt8) → Prop
  /-- one to four octets at once, with their number -/
  | counted {frame : List UInt8} {field : Vector UInt8 4}
      (form : id.usesBlocks = false) (some : 1 ≤ payload.length) (few : payload.length ≤ 4)
      (opened : Response.parse frame = .ok (.uploadInitiate id.mux true true (4 - payload.length) field))
      (carried : field.toList.take payload.length = payload) : Echo config id payload [frame]
  /-- a type of at most four octets at once, filled up to four and without the number -/
  | filled {frame : List UInt8} {unused : Nat} {field : Vector UInt8 4}
      (width : id.type.byteLength? = some payload.length) (few : payload.length ≤ 4)
      (opened : Response.parse frame = .ok (.uploadInitiate id.mux true false unused field))
      (carried : field.toList.take payload.length = payload) : Echo config id payload [frame]
  /-- segments of any lengths, with the size or without -/
  | segmented {first : List UInt8} {size : Nat} {frames : List (List UInt8)} {parts : List Part} {p : Part}
      (form : id.usesBlocks = false) (announced : Announces id first size) (sized : size = 0 ∨ size = payload.length)
      (carried : Carry frames (parts ++ [p])) (alternating : Alternating (parts ++ [p]))
      (unfinished : ∀ q ∈ parts, q.last = false) (last : p.last = true)
      (octets : Upload.octetsOf (parts ++ [p]) = payload) : Echo config id payload (first :: frames)
  /-- blocks, however many of them have to be sent again -/
  | blocks {src : Source} {messages : List Message} (form : id.usesBlocks = true) (streamed : src.payload = payload)
      (conversation : src.Conversation config id messages) : Echo config id payload (heard messages)

namespace Echo

variable {config : Config} {id : ObjectId} {payload : List UInt8} {frames : List (List UInt8)}

theorem usesBlocks_of_width {count : Nat} (h : id.type.byteLength? = some count) : id.usesBlocks = false := by
  unfold ObjectId.usesBlocks
  cases ht : id.type <;> simp_all [DataType.byteLength?]

/-- a read that is no block upload completes with an answer -/
theorem listen_answer (hid : id.usesBlocks = false) {octets : List UInt8} (h : Answer id frames octets)
    (hsuffices : Reading.Suffices id octets) (rest : List (List UInt8)) :
    ((Transfer.begin config ⟨id, .read⟩).1.listen config (frames ++ rest)).fate =
      .ends (.completed (Value.decode octets id.type)) := by
  have hbegin : (Transfer.begin config ⟨id, .read⟩).1 = .reading (Waiting.opening.reading id) := by
    simp only [Transfer.begin, hid, Bool.false_eq_true, if_false]
    rfl
  obtain ⟨hcompleted, -⟩ := listen_fate config id (frames ++ rest)
  rw [hbegin]
  exact (hcompleted _).2 ⟨frames, rest, octets, rfl, h, hsuffices, rfl⟩

/-- **Every form of answer is understood.** A read that is answered with octets that suffice completes with the value
that they say. -/
theorem listen (h : Echo config id payload frames) (hsuffices : Reading.Suffices id payload)
    (hconfig : Wire.validBlockSize config.blockSize.toNat = true) (rest : List (List UInt8)) :
    ((Transfer.begin config ⟨id, .read⟩).1.listen config (frames ++ rest)).fate =
      .ends (.completed (Value.decode payload id.type)) := by
  cases h with
  | @counted frame field form some few opened carried =>
    have hanswer := Answer.expedited opened
    have hlength : 4 - (4 - payload.length) = payload.length := by omega
    rw [if_pos rfl, hlength, carried] at hanswer
    exact listen_answer form hanswer hsuffices rest
  | @filled frame unused field width few opened carried =>
    have hanswer := Answer.expedited opened
    rw [if_neg Bool.false_ne_true, List.take_of_length_le (by simp)] at hanswer
    have hread : Value.decode field.toList id.type = Value.decode payload id.type := by
      rw [← Value.decode_take width (by simpa using few), carried]
    have hwide : Reading.Suffices id field.toList := by
      intro needed hneeded
      obtain rfl : needed = payload.length := Option.some.inj (hneeded.symm.trans width)
      simpa using few
    rw [← hread]
    exact listen_answer (usesBlocks_of_width width) hanswer hwide rest
  | segmented form announced sized carried alternating unfinished last octets =>
    have hanswer := Answer.segmented announced carried alternating unfinished last
      fun hnonzero => by rw [octets, sized.resolve_left hnonzero]
    rw [octets] at hanswer
    exact listen_answer form hanswer hsuffices rest
  | @blocks src messages form streamed conversation =>
    have hdomain : id.type = .domain := by simpa [ObjectId.usesBlocks] using form
    obtain ⟨hpos, -⟩ : 1 ≤ config.blockSize.toNat ∧ config.blockSize.toNat ≤ Wire.blockMax := by
      simpa [Wire.validBlockSize] using hconfig
    rw [Active.listen_append_ends (conversation.listen config form hpos), streamed, hdomain, Value.decode]

end Echo

/-! ## Writing and reading back -/

/-- the octets of a value that fits its type are as many as the type needs -/
theorem Reading.suffices_payload {id : ObjectId} {v : Value} (h : v.fits id.type) :
    Suffices id (v.payload id.type) := by
  have hencode : v.encode id.type = .ok (v.payload id.type) := by rw [Value.encode, if_pos h]
  exact fun needed hneeded => (Value.length_encode hencode hneeded).ge

namespace Engine

/-- a write of a value that fits, within the limits of its entry, is taken, whatever type the caller thinks it has -/
theorem download_accepted {e : Engine} {d : Dictionary} {id : ObjectId} {entry : Entry} {v : Value} (clock : Time)
    (asked : DataType) (hnode : id.node = e.node) (hdictionary : d.node = e.node)
    (hentry : d.find? id.mux = some entry) (htype : id.type = entry.type) (hfits : v.fits id.type)
    (hlimits : entry.withinLimits v) :
    e.download clock d { id with type := asked } v = .ok (e.enqueue clock (.ofWrite id v)) := by
  have hresolve : e.resolve d { id with type := asked } = .ok (id, entry) := by
    simp only [resolve, hentry, ← htype]
    exact if_neg (by simp [hnode, hdictionary])
  simp [download, hresolve, hlimits, Value.encode, hfits, Transfer.ofWrite]

/-- the write of `v` to `id` that `e` has just begun completes in the run `os` -/
structure Written (e : Engine) (d : Dictionary) (os : List Occasion) (id : ObjectId) (v : Value) : Prop where
  begun : e.active = some ((Transfer.ofWrite id v).begin e.config).1
  held : (d.find? id.mux).isSome
  completed : ∃ stored,
    (e.course d ((Transfer.ofWrite id v).begin e.config).1 os).fate = .ends (.completed stored)

/-- the read of `id` that `e` has just begun is answered in time with the octets `payload` in the run `os` -/
structure Echoed (e : Engine) (d : Dictionary) (os : List Occasion) (id : ObjectId) (payload : List UInt8) : Prop where
  begun : e.active = some (Transfer.begin e.config ⟨id, .read⟩).1
  held : (d.find? id.mux).isSome
  blockSize : Wire.validBlockSize e.config.blockSize.toNat = true
  timely : e.Timely d os
  answered : ∃ frames, Echo e.config id payload frames ∧ frames <+: e.delivered os

/-- a read or a write that completes with `value` leaves it in its entry, without an error -/
theorem course_stored {e : Engine} {d : Dictionary} {a : Active} {os : List Occasion} {value : Option Value}
    (ha : e.active = some a) (held : (d.find? a.target.mux).isSome)
    (hdone : (e.course d a os).fate = .ends (.completed value)) :
    ∃ x, (e.course d a os).dictionary.find? a.target.mux = some x ∧ x.value = value ∧ x.error = .none := by
  obtain ⟨before, hbefore⟩ := Option.isSome_iff_exists.1 held
  refine ⟨before.succeed value (e.course d a os).endedAt, ?_, rfl, rfl⟩
  rw [course_dictionary ha, hdone, Fate.commit, Ending.commit, Dictionary.find?_commitValue, if_pos rfl, hbefore]
  rfl

/-- a read that is answered in time completes with what the octets say -/
theorem Echoed.completed {e : Engine} {d : Dictionary} {os : List Occasion} {id : ObjectId} {payload : List UInt8}
    (h : Echoed e d os id payload) (hsuffices : Reading.Suffices id payload) :
    (e.course d (Transfer.begin e.config ⟨id, .read⟩).1 os).fate =
      .ends (.completed (Value.decode payload id.type)) := by
  obtain ⟨frames, hecho, rest, hdelivered⟩ := h.answered
  have hlisten := hecho.listen hsuffices h.blockSize rest
  rw [hdelivered] at hlisten
  have hreading : ∃ r, (Transfer.begin e.config ⟨id, .read⟩).1 = .reading r := by
    unfold Transfer.begin
    simp only
    split <;> exact ⟨_, rfl⟩
  obtain ⟨r, hr⟩ := hreading
  have hcourse := course_reading (d := d) (hr ▸ h.begun) h.timely
  rw [← hr] at hcourse
  rw [← hlisten, ← hcourse]

/-- **Write and read back.** A write of a value that fits the type of its entry and lies within its limits is taken.
Once it completes, the server has received octets by which it can answer a read of the entry, in any form that the
protocol has for them: then the read completes, and the entry holds the value that the write left in it, without an
error. That value has the content of the value written. -/
theorem read_back_agrees (d : Dictionary) (id : ObjectId) (entry : Entry) (v : Value)
    (hentry : d.find? id.mux = some entry) (htype : id.type = entry.type) (hfits : v.fits id.type)
    (hlimits : entry.withinLimits v) :
    (∀ (e : Engine) (clock : Time) (asked : DataType), id.node = e.node → d.node = e.node →
      e.download clock d { id with type := asked } v = .ok (e.enqueue clock (.ofWrite id v))) ∧
      ∀ (e₁ : Engine) (d₁ : Dictionary) (os₁ : List Occasion) (e₂ : Engine) (d₂ : Dictionary) (os₂ : List Occasion),
        Written e₁ d₁ os₁ id v →
        let c₁ := e₁.course d₁ ((Transfer.ofWrite id v).begin e₁.config).1 os₁
        let c₂ := e₂.course d₂ (Transfer.begin e₂.config ⟨id, .read⟩).1 os₂
        Echoed e₂ d₂ os₂ id ((Transfer.ofWrite id v).received e₁.config c₁.messages) →
          ∃ w x y, c₁.dictionary.find? id.mux = some x ∧ x.value = some w ∧
            c₂.fate = .ends (.completed (some w)) ∧
            c₂.dictionary.find? id.mux = some y ∧ y.value = some w ∧ y.error = .none ∧ w.SameContent v := by
  refine ⟨fun e clock asked hnode hd => download_accepted clock asked hnode hd hentry htype hfits hlimits, ?_⟩
  intro e₁ d₁ os₁ e₂ d₂ os₂ hwritten c₁ c₂ hechoed
  obtain ⟨w, hw, -, -, hcontent⟩ := Value.decode_payload hfits
  obtain ⟨stored, hdone⟩ := hwritten.completed
  have hpayload : (Transfer.ofWrite id v).received e₁.config c₁.messages = v.payload id.type :=
    received_completed hwritten.begun os₁ hdone
  have hstored : stored = some w := by
    have hvalue := stored_completed hwritten.begun os₁ hdone
    rwa [hw, Option.getD_some] at hvalue
  have hread : c₂.fate = .ends (.completed (some w)) := by
    rw [hpayload] at hechoed
    have hcompleted := hechoed.completed (Reading.suffices_payload hfits)
    rwa [hw] at hcompleted
  have htarget : ((Transfer.ofWrite id v).begin e₁.config).1.target = id := Transfer.target_begin _ _
  have htarget' : (Transfer.begin e₂.config ⟨id, .read⟩).1.target = id := Transfer.target_begin _ _
  obtain ⟨x, hx, hxvalue, -⟩ := course_stored hwritten.begun (htarget.symm ▸ hwritten.held) hdone
  obtain ⟨y, hy, hyvalue, hyerror⟩ := course_stored hechoed.begun (htarget'.symm ▸ hechoed.held) hread
  rw [htarget] at hx
  rw [htarget'] at hy
  exact ⟨w, x, y, hx, hxvalue.trans hstored, hread, hy, hyvalue, hyerror, hcontent⟩

/-- a position of five octets, between zero and two millions -/
def positionId : ObjectId := ⟨0, 5, ⟨0x2000, 2⟩, .unsigned .w40⟩

def positionEntry : Entry :=
  { subIndex := 2, name := "position", type := .unsigned .w40, access := {}, low := some (.u8 0)
    high := some (.u32 2000000) }

def oneAxis : Dictionary :=
  (({ bus := 0, node := 5 } : Dictionary).insert { index := 0x2000, name := "axis" }).addEntry 0x2000 positionEntry

/-- an engine that has just begun a write of a million, given in 32 bits with a sign -/
def writingMillion : Engine :=
  { node := 5, active := some ((Transfer.ofWrite positionId (.i32 1000000)).begin {}).1 }

def readingMillion : Engine := { node := 5, active := some (Transfer.begin {} ⟨positionId, .read⟩).1 }

/-- the server takes the announcement and the one segment -/
def millionTaken : List Occasion :=
  [[0x60, 0x00, 0x20, 0x02, 0, 0, 0, 0], [0x20, 0, 0, 0, 0, 0, 0, 0]].map fun data => .mk 1 true (.frame ⟨0x585, data⟩)

/-- the server answers with the size and two segments, of three octets and of two -/
def millionFrames : List (List UInt8) :=
  [[0x41, 0x00, 0x20, 0x02, 5, 0, 0, 0], [0x08, 0x40, 0x42, 0x0f, 0, 0, 0, 0], [0x1b, 0, 0, 0, 0, 0, 0, 0]]

def millionAnswered : List Occasion := millionFrames.map fun data => .mk 2 true (.frame ⟨0x585, data⟩)

theorem read_back_agrees_million :
    let t := Transfer.ofWrite positionId (.i32 1000000)
    let c₁ := writingMillion.course oneAxis (t.begin writingMillion.config).1 millionTaken
    let c₂ := readingMillion.course c₁.dictionary (Transfer.begin readingMillion.config ⟨positionId, .read⟩).1
      millionAnswered
    (c₁.dictionary.find? positionId.mux).bind Entry.value = some (.u64 1000000) ∧
      (c₂.dictionary.find? positionId.mux).bind Entry.value = some (.u64 1000000) ∧
      (c₂.dictionary.find? positionId.mux).map Entry.error = some .none := by
  intro t c₁ c₂
  have hentry : oneAxis.find? positionId.mux = some positionEntry := by decide +kernel
  obtain ⟨-, hback⟩ := read_back_agrees oneAxis positionId positionEntry (.i32 1000000) hentry rfl (by decide)
    (by decide +kernel)
  have hwritten : Written writingMillion oneAxis millionTaken positionId (.i32 1000000) :=
    ⟨rfl, by decide +kernel, some (.u64 1000000), by decide +kernel⟩
  have hreceived : t.received writingMillion.config c₁.messages = [0x40, 0x42, 0x0f, 0, 0] := by decide +kernel
  have hannounced : Announces positionId [0x41, 0x00, 0x20, 0x02, 5, 0, 0, 0] 5 :=
    ⟨true, 0, #v[5, 0, 0, 0], rfl, rfl⟩
  have hcarried : Carry (millionFrames.drop 1)
      ([⟨false, 3, false, #v[0x40, 0x42, 0x0f, 0, 0, 0, 0]⟩] ++ [⟨true, 2, true, #v[0, 0, 0, 0, 0, 0, 0]⟩]) := rfl
  have hecho : Echo readingMillion.config positionId [0x40, 0x42, 0x0f, 0, 0] millionFrames :=
    .segmented rfl hannounced (.inr rfl) hcarried rfl (by decide) rfl rfl
  have hechoed : Echoed readingMillion c₁.dictionary millionAnswered positionId [0x40, 0x42, 0x0f, 0, 0] :=
    ⟨rfl, by decide +kernel, by decide, by decide +kernel, millionFrames, hecho, [], rfl⟩
  obtain ⟨w, x, y, hx, hxw, -, hy, hyw, hye, -⟩ :=
    hback writingMillion oneAxis millionTaken readingMillion c₁.dictionary millionAnswered hwritten
      (hreceived.symm ▸ hechoed)
  have hstored : (c₁.dictionary.find? positionId.mux).bind Entry.value = some (.u64 1000000) := by decide +kernel
  rw [hx, Option.bind_some, hxw] at hstored
  rw [hx, hy, Option.bind_some, Option.bind_some, Option.map_some, hxw, hyw, hye]
  exact ⟨hstored, hstored, rfl⟩

end Engine

end SdoClient
