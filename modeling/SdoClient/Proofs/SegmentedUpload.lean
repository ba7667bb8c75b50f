/-
Reads that are no block uploads, from the frames alone. An answer of the server is either one expedited frame or a frame
that announces segments and the segments themselves, with alternating toggle bits and only the final one marked as the
last. A read completes exactly on such an answer; the first frame that does not fit ends it in its own way.

Main statement: `upload_reassembles`. What becomes of a read is settled by the frames: it waits after a proper beginning
of an answer, it completes with the decoded octets of a whole one, and it fails at the first deviation.
-/
import Mathlib.Tactic
import SdoClient.Proofs.Course

namespace SdoClient.Upload

/-! ## Answers -/

/-- a segment of an answer; `len` octets of the field count -/
structure Part where
  toggle : Bool
  len : Nat
  last : Bool
  field : Vector UInt8 7
  deriving DecidableEq

namespace Part

def response (p : Part) : Response := .uploadSegment p.toggle p.len p.last p.field

def octets (p : Part) : List UInt8 := p.field.toList.take p.len

end Part

def octetsOf (parts : List Part) : List UInt8 := parts.flatMap Part.octets

/-- the frames carry these segments -/
def Carry (frames : List (List UInt8)) (parts : List Part) : Prop :=
  frames.map Response.parse = parts.map fun p => .ok p.response

/-- the toggle bit of a segment after `n` others -/
def toggleOf (n : Nat) : Bool := decide (n % 2 = 1)

/-- the toggle bits are 0, 1, 0, 1, … -/
def Alternating (parts : List Part) : Prop := parts.map Part.toggle = (List.range parts.length).map toggleOf

/-- the frame announces segments, of `size` octets in all unless this is 0 -/
def Announces (id : ObjectId) (frame : List UInt8) (size : Nat) : Prop :=
  ∃ sizeIndicated unused field, Response.parse frame = .ok (.uploadInitiate id.mux false sizeIndicated unused field) ∧
    size = if sizeIndicated then LittleEndian.decode field.toList else 0

/-- a whole answer to a read of `id`, and the octets that it carries -/
inductive Answer (id : ObjectId) : List (List UInt8) → List UInt8 → Prop
  | expedited {frame : List UInt8} {sizeIndicated : Bool} {unused : Nat} {field : Vector UInt8 4}
      (opened : Response.parse frame = .ok (.uploadInitiate id.mux true sizeIndicated unused field)) :
      Answer id [frame] (field.toList.take (if sizeIndicated then 4 - unused else 4))
  | segmented {first : List UInt8} {size : Nat} {frames : List (List UInt8)} {parts : List Part} {p : Part}
      (announced : Announces id first size)
      (carried : Carry frames (parts ++ [p]))
      (alternating : Alternating (parts ++ [p]))
      (unfinished : ∀ q ∈ parts, q.last = false)
      (last : p.last = true)
      (total : size ≠ 0 → (octetsOf (parts ++ [p])).length = size) :
      Answer id (first :: frames) (octetsOf (parts ++ [p]))

/-! ## Beginnings of answers -/

/-- what a read waits for -/
inductive Waiting where
  | opening
  /-- the segment after `parts`, for `size` octets in all unless this is 0 -/
  | part (size : Nat) (parts : List Part)

/-- the proper beginnings of an answer -/
inductive Awaits (id : ObjectId) : List (List UInt8) → Waiting → Prop
  | opening : Awaits id [] .opening
  | part {first : List UInt8} {size : Nat} {frames : List (List UInt8)} {parts : List Part}
      (announced : Announces id first size)
      (carried : Carry frames parts)
      (alternating : Alternating parts)
      (unfinished : ∀ q ∈ parts, q.last = false) :
      Awaits id (first :: frames) (.part size parts)

/-- the frame takes the answer on -/
inductive Continues (id : ObjectId) : Waiting → List UInt8 → Waiting → Prop
  | announced {frame : List UInt8} {size : Nat} (announced : Announces id frame size) :
      Continues id .opening frame (.part size [])
  | part {size : Nat} {parts : List Part} {frame : List UInt8} {p : Part}
      (carried : Response.parse frame = .ok p.response) (toggle : p.toggle = toggleOf parts.length)
      (unfinished : p.last = false) :
      Continues id (.part size parts) frame (.part size (parts ++ [p]))

/-- the frame is the end of the answer, with these octets in all -/
inductive Completes (id : ObjectId) : Waiting → List UInt8 → List UInt8 → Prop
  | expedited {frame : List UInt8} {sizeIndicated : Bool} {unused : Nat} {field : Vector UInt8 4}
      (opened : Response.parse frame = .ok (.uploadInitiate id.mux true sizeIndicated unused field)) :
      Completes id .opening frame (field.toList.take (if sizeIndicated then 4 - unused else 4))
  | part {size : Nat} {parts : List Part} {frame : List UInt8} {p : Part}
      (carried : Response.parse frame = .ok p.response) (toggle : p.toggle = toggleOf parts.length)
      (last : p.last = true) (total : size ≠ 0 → (octetsOf (parts ++ [p])).length = size) :
      Completes id (.part size parts) frame (octetsOf (parts ++ [p]))

/-- the frame does not fit, and what becomes of the read then -/
inductive Deviates (id : ObjectId) : Waiting → List UInt8 → Ending → Prop
  /-- a frame of another length -/
  | length {x : Waiting} {frame : List UInt8} (h : frame.length ≠ Wire.size) :
      Deviates id x frame (.aborted .generalError)
  /-- no response of the protocol -/
  | unreadable {x : Waiting} {frame : List UInt8} {fault : FrameFault} (h : frame.length = Wire.size)
      (unread : Response.parse frame = .error fault) : Deviates id x frame (.aborted .commandNotValid)
  /-- the server ends the transfer -/
  | aborted {x : Waiting} {frame : List UInt8} {mux : Mux} {code : AbortCode}
      (abort : Response.parse frame = .ok (.abort mux code)) : Deviates id x frame (.abandoned code)
  /-- an answer about another entry -/
  | misaddressed {frame : List UInt8} {mux : Mux} {expedited sizeIndicated : Bool} {unused : Nat}
      {field : Vector UInt8 4}
      (opened : Response.parse frame = .ok (.uploadInitiate mux expedited sizeIndicated unused field))
      (other : mux ≠ id.mux) : Deviates id .opening frame (.aborted .commandNotValid)
  /-- another response in the place of the first one -/
  | notOpening {frame : List UInt8} {response : Response} (read : Response.parse frame = .ok response)
      (abort : ∀ mux code, response ≠ .abort mux code)
      (unexpected : ∀ mux expedited sizeIndicated unused field,
        response ≠ .uploadInitiate mux expedited sizeIndicated unused field) :
      Deviates id .opening frame (.aborted .commandNotValid)
  /-- another response in the place of a segment -/
  | notPart {size : Nat} {parts : List Part} {frame : List UInt8} {response : Response}
      (read : Response.parse frame = .ok response) (abort : ∀ mux code, response ≠ .abort mux code)
      (unexpected : ∀ p : Part, response ≠ p.response) :
      Deviates id (.part size parts) frame (.aborted .commandNotValid)
  /-- a toggle bit that does not alternate -/
  | toggle {size : Nat} {parts : List Part} {frame : List UInt8} {p : Part}
      (carried : Response.parse frame = .ok p.response) (toggle : p.toggle ≠ toggleOf parts.length) :
      Deviates id (.part size parts) frame (.aborted .toggleNotAlternated)
  /-- the segments are not what was announced -/
  | total {size : Nat} {parts : List Part} {frame : List UInt8} {p : Part}
      (carried : Response.parse frame = .ok p.response) (toggle : p.toggle = toggleOf parts.length)
      (last : p.last = true) (nonzero : size ≠ 0) (differs : (octetsOf (parts ++ [p])).length ≠ size) :
      Deviates id (.part size parts) frame (.aborted .lengthMismatch)
  /-- a whole answer that is too short for the declared type -/
  | short {x : Waiting} {frame b : List UInt8} (completes : Completes id x frame b)
      (short : ¬Reading.Suffices id b) : Deviates id x frame (.aborted .lengthMismatch)

variable {id : ObjectId}

theorem octetsOf_concat (parts : List Part) (p : Part) : octetsOf (parts ++ [p]) = octetsOf parts ++ p.octets := by
  simp [octetsOf]

theorem alternating_concat (parts : List Part) (p : Part) :
    Alternating (parts ++ [p]) ↔ Alternating parts ∧ p.toggle = toggleOf parts.length := by
  unfold Alternating
  rw [List.map_append, List.length_append, List.length_singleton, List.range_succ, List.map_append, List.map_singleton,
    List.map_singleton]
  constructor
  · intro h
    obtain ⟨hparts, hp⟩ := List.append_inj' h (by simp)
    exact ⟨hparts, List.singleton_inj.1 hp⟩
  · rintro ⟨hparts, hp⟩
    rw [hparts, hp]

theorem carry_concat {frames : List (List UInt8)} {parts : List Part} {frame : List UInt8} {p : Part} :
    Carry (frames ++ [frame]) (parts ++ [p]) ↔ Carry frames parts ∧ Response.parse frame = .ok p.response := by
  unfold Carry
  rw [List.map_append, List.map_append, List.map_singleton, List.map_singleton]
  constructor
  · intro h
    obtain ⟨hframes, hframe⟩ := List.append_inj' h rfl
    exact ⟨hframes, List.singleton_inj.1 hframe⟩
  · rintro ⟨hframes, hframe⟩
    rw [hframes, hframe]

theorem Awaits.append {fs : List (List UInt8)} {x x' : Waiting} {frame : List UInt8} (h : Awaits id fs x)
    (hc : Continues id x frame x') : Awaits id (fs ++ [frame]) x' := by
  cases hc with
  | announced announced =>
    cases h
    exact .part announced rfl rfl (fun q hq => absurd hq List.not_mem_nil)
  | @part size parts _ p carried toggle unfinished =>
    cases h with
    | part announced carries alternating opens =>
      have halternating := (alternating_concat parts p).2 ⟨alternating, toggle⟩
      refine .part announced (carry_concat.2 ⟨carries, carried⟩) halternating ?_
      intro q hq
      rcases List.mem_append.1 hq with hq | hq
      · exact opens q hq
      · rw [List.mem_singleton.1 hq]
        exact unfinished

/-- a proper beginning, without its final frame, is one too -/
theorem Awaits.init {before : List (List UInt8)} {frame : List UInt8} {x : Waiting}
    (h : Awaits id (before ++ [frame]) x) : ∃ x₀, Awaits id before x₀ ∧ Continues id x₀ frame x := by
  generalize hfs : before ++ [frame] = fs at h
  cases h with
  | opening => simp at hfs
  | @part first size frames parts announced carried alternating opens =>
    cases before with
    | nil =>
      obtain ⟨rfl, rfl⟩ := List.cons_eq_cons.1 hfs
      have hnone : parts = [] := List.map_eq_nil_iff.1 carried.symm
      subst hnone
      exact ⟨.opening, .opening, .announced announced⟩
    | cons head before =>
      obtain ⟨rfl, rfl⟩ := List.cons_eq_cons.1 hfs
      rcases List.eq_nil_or_concat parts with rfl | ⟨parts, p, rfl⟩
      · have hempty := List.map_eq_nil_iff.1 carried
        simp at hempty
      · rw [List.concat_eq_append] at *
        obtain ⟨hcarried, hframe⟩ := carry_concat.1 carried
        obtain ⟨halternating, htoggle⟩ := (alternating_concat parts p).1 alternating
        have hopens : ∀ q ∈ parts, q.last = false := fun q hq => opens q (List.mem_append_left _ hq)
        exact ⟨.part size parts, .part announced hcarried halternating hopens,
          .part hframe htoggle (opens p (by simp))⟩

/-- a whole answer is a proper beginning and its final frame -/
theorem answer_iff {fs : List (List UInt8)} {b : List UInt8} :
    Answer id fs b ↔ ∃ before frame x, fs = before ++ [frame] ∧ Awaits id before x ∧ Completes id x frame b := by
  constructor
  · rintro (⟨opened⟩ | @⟨first, size, frames, parts, p, announced, carried, alternating, opens, last, total⟩)
    · exact ⟨[], _, .opening, rfl, .opening, .expedited opened⟩
    · have hcarried : frames.map Response.parse =
          parts.map (fun p => .ok p.response) ++ [.ok p.response] := carried.trans List.map_append
      obtain ⟨before, lasts, rfl, hbefore, hlasts⟩ := List.map_eq_append_iff.1 hcarried
      obtain ⟨frame, rfl, hframe⟩ := List.map_eq_singleton_iff.1 hlasts
      obtain ⟨halternating, htoggle⟩ := (alternating_concat parts p).1 alternating
      exact ⟨first :: before, frame, .part size parts, rfl, .part announced hbefore halternating opens,
        .part hframe htoggle last total⟩
  · rintro ⟨before, frame, x, rfl, hawaits, hcompletes⟩
    cases hcompletes with
    | expedited opened =>
      cases hawaits
      exact .expedited opened
    | @part size parts _ p carried toggle last total =>
      cases hawaits with
      | part announced carries alternating opens =>
        exact .segmented announced (carry_concat.2 ⟨carries, carried⟩)
          ((alternating_concat parts p).2 ⟨alternating, toggle⟩) opens last total

/-! ## The client -/

/-- a read that waits -/
def Waiting.reading (id : ObjectId) : Waiting → Reading
  | .opening => { target := id, phase := .opening }
  | .part size parts =>
    { target := id, size, data := octetsOf parts, phase := .segment (toggleOf parts.length) }

/-- the turn of a waiting read at a frame -/
def Waiting.turn (config : Config) (id : ObjectId) (x : Waiting) (frame : List UInt8) : Turn :=
  (Active.reading (x.reading id)).respond config (.frame frame)

variable {config : Config} {x x' : Waiting} {frame : List UInt8}

theorem toggleOf_succ (n : Nat) : toggleOf (n + 1) = !toggleOf n := by
  unfold toggleOf
  rcases Nat.mod_two_eq_zero_or_one n with h | h <;> simp [Nat.add_mod, h]

theorem streaming?_waiting (id : ObjectId) (x : Waiting) : (Active.reading (x.reading id)).streaming? = none := by
  cases x <;> rfl

theorem turn_answered {response : Response} (hread : Response.parse frame = .ok response)
    (habort : ∀ mux code, response ≠ .abort mux code) :
    x.turn config id frame = ((x.reading id).answer config response).reaction.turn (.reading (x.reading id)) := by
  rw [Waiting.turn, Active.respond, Active.reactTo_response hread habort (streaming?_waiting id x), Active.answer]

theorem turn_part {size : Nat} {parts : List Part} {p : Part} (carried : Response.parse frame = .ok p.response) :
    (Waiting.part size parts).turn config id frame =
      (((Waiting.part size parts).reading id).continued (toggleOf parts.length) p.toggle p.len p.last
        p.field).reaction.turn (.reading ((Waiting.part size parts).reading id)) := by
  rw [turn_answered carried (fun _ _ => Response.noConfusion), Reading.reaction_answer]
  rfl

theorem turn_continues (h : Continues id x frame x') :
    (x.turn config id frame).fate = .goesOn (.reading (x'.reading id)) := by
  cases h with
  | announced announced =>
    obtain ⟨sizeIndicated, unused, field, hread, rfl⟩ := announced
    rw [turn_answered hread (fun _ _ => Response.noConfusion), Reading.reaction_answer]
    simp only [Waiting.reading, if_true]
    rfl
  | @part size parts _ p carried toggle unfinished =>
    rw [turn_part carried, Reading.reaction_continued, toggle, unfinished]
    simp only [ne_eq, not_true_eq_false, if_false, Bool.false_eq_true, Reaction.turn, Waiting.reading, octetsOf_concat,
      List.length_append, List.length_singleton, toggleOf_succ]
    rfl

theorem turn_finish (r : Reading) (a : Active) :
    ((r.finish none).reaction.turn a).fate =
      if Reading.Suffices r.target r.data then .ends (.completed (Value.decode r.data r.target.type))
      else .ends (.aborted .lengthMismatch) := by
  rw [Reading.reaction_finish]
  split <;> rfl

theorem turn_completes {b : List UInt8} (h : Completes id x frame b) :
    (x.turn config id frame).fate =
      if Reading.Suffices id b then .ends (.completed (Value.decode b id.type))
      else .ends (.aborted .lengthMismatch) := by
  cases h with
  | expedited opened =>
    rw [turn_answered opened (fun _ _ => Response.noConfusion), Reading.reaction_answer]
    simp only [Waiting.reading, if_true]
    rw [Reading.reaction_opened, if_pos rfl, turn_finish]
    rfl
  | @part size parts _ p carried toggle last total =>
    have htotal : ¬(size ≠ 0 ∧ (octetsOf parts ++ p.octets).length ≠ size) := by
      rw [← octetsOf_concat]
      exact fun ⟨hnonzero, hdiffers⟩ => hdiffers (total hnonzero)
    rw [turn_part carried, Reading.reaction_continued, toggle, last, if_neg (fun h => h rfl), if_pos rfl]
    refine (congrArg (fun r => (Reaction.turn _ r).fate) (if_neg htotal)).trans ?_
    rw [turn_finish, octetsOf_concat]
    rfl

theorem turn_deviates {ending : Ending} (h : Deviates id x frame ending) :
    (x.turn config id frame).fate = .ends ending := by
  cases h with
  | length hl =>
    rw [Waiting.turn, Active.respond, Active.reactTo_length hl]
    rfl
  | unreadable hl unread =>
    have hs := streaming?_waiting id x
    rw [Waiting.turn, Active.respond, Active.reactTo_answered hl (.inl hs), Active.answered, unread]
    rfl
  | aborted abort =>
    have hl := Response.length_of_parse abort
    have hs := streaming?_waiting id x
    rw [Waiting.turn, Active.respond, Active.reactTo_answered hl (.inl hs), Active.answered, abort]
    rfl
  | misaddressed opened other =>
    rw [turn_answered opened (fun _ _ => Response.noConfusion), Reading.reaction_answer]
    exact congrArg (fun r => (Reaction.turn _ r).fate) (if_neg other)
  | @notOpening _ response read abort unexpected =>
    rw [turn_answered read abort, Reading.reaction_answer]
    cases response with
    | uploadInitiate mux expedited sizeIndicated unused field => exact absurd rfl (unexpected _ _ _ _ _)
    | _ => rfl
  | @notPart size parts _ response read abort unexpected =>
    rw [turn_answered read abort, Reading.reaction_answer]
    cases response with
    | uploadSegment toggle len last field => exact absurd rfl (unexpected ⟨toggle, len, last, field⟩)
    | _ => rfl
  | toggle carried toggle =>
    rw [turn_part carried, Reading.reaction_continued, if_pos toggle]
    rfl
  | @total size parts _ p carried toggle last nonzero differs =>
    rw [octetsOf_concat] at differs
    rw [turn_part carried, Reading.reaction_continued, toggle, last, if_neg (fun h => h rfl), if_pos rfl]
    exact congrArg (fun r => (Reaction.turn _ r).fate) (if_pos ⟨nonzero, differs⟩)
  | short completes short => rw [turn_completes completes, if_neg short]

theorem Deviates.failed {ending : Ending} (h : Deviates id x frame ending) : ending.failed = true := by
  cases h <;> rfl

/-- every frame takes the answer on, is its end, or deviates -/
theorem frame_cases (id : ObjectId) (x : Waiting) (frame : List UInt8) :
    (∃ x', Continues id x frame x') ∨ (∃ b, Completes id x frame b ∧ Reading.Suffices id b) ∨
      ∃ ending, Deviates id x frame ending := by
  by_cases hl : frame.length = Wire.size
  swap
  · exact .inr (.inr ⟨_, .length hl⟩)
  have hwhole : ∀ b, Completes id x frame b →
      (∃ b, Completes id x frame b ∧ Reading.Suffices id b) ∨ ∃ ending, Deviates id x frame ending := by
    intro b hb
    by_cases hs : Reading.Suffices id b
    · exact .inl ⟨b, hb, hs⟩
    · exact .inr ⟨_, .short hb hs⟩
  cases hread : Response.parse frame with
  | error fault => exact .inr (.inr ⟨_, .unreadable hl hread⟩)
  | ok response =>
    by_cases habort : ∃ mux code, response = .abort mux code
    · obtain ⟨mux, code, rfl⟩ := habort
      exact .inr (.inr ⟨_, .aborted hread⟩)
    have habort : ∀ mux code, response ≠ .abort mux code := fun mux code h => habort ⟨mux, code, h⟩
    cases x with
    | opening =>
      cases response with
      | uploadInitiate mux expedited sizeIndicated unused field =>
        by_cases hmux : mux = id.mux
        · subst hmux
          cases expedited with
          | true => exact .inr (hwhole _ (.expedited hread))
          | false => exact .inl ⟨_, .announced ⟨sizeIndicated, unused, field, hread, rfl⟩⟩
        · exact .inr (.inr ⟨_, .misaddressed hread hmux⟩)
      | _ => exact .inr (.inr ⟨_, .notOpening hread habort (fun _ _ _ _ _ => Response.noConfusion)⟩)
    | part size parts =>
      cases response with
      | uploadSegment toggle len last field =>
        have hcarried : Response.parse frame = .ok (Part.response ⟨toggle, len, last, field⟩) := hread
        by_cases htoggle : toggle = toggleOf parts.length
        · cases last with
          | false => exact .inl ⟨_, .part hcarried htoggle rfl⟩
          | true =>
            by_cases htotal : size ≠ 0 ∧ (octetsOf (parts ++ [⟨toggle, len, true, field⟩])).length ≠ size
            · exact .inr (.inr ⟨_, .total hcarried htoggle rfl htotal.1 htotal.2⟩)
            · refine .inr (hwhole _ (.part hcarried htoggle rfl fun hnonzero => ?_))
              exact not_not.1 fun hdiffers => htotal ⟨hnonzero, hdiffers⟩
        · exact .inr (.inr ⟨_, .toggle hcarried htoggle⟩)
      | _ => exact .inr (.inr ⟨_, .notPart hread habort (fun _ => Response.noConfusion)⟩)

/-! ## Runs -/

/-- after a proper beginning of an answer, what becomes of the read is up to the frames that follow -/
theorem listen_awaits {before : List (List UInt8)} (h : Awaits id before x) (after : List (List UInt8)) :
    ((Active.reading (Waiting.opening.reading id)).listen config (before ++ after)).fate =
      ((Active.reading (x.reading id)).listen config after).fate := by
  induction before using List.reverseRecOn generalizing x after with
  | nil =>
    cases h
    rfl
  | append_singleton before frame ih =>
    obtain ⟨x₀, h₀, hc⟩ := h.init
    have hturn : (x₀.turn config id frame).fate = .goesOn (.reading (x.reading id)) := turn_continues hc
    rw [List.append_assoc, ih h₀, List.singleton_append, Active.listen, ← Waiting.turn, hturn]

/-- a frame that ends the read settles what becomes of it -/
theorem listen_ends {before after : List (List UInt8)} {ending : Ending} (h : Awaits id before x)
    (hturn : (x.turn config id frame).fate = .ends ending) :
    ((Active.reading (Waiting.opening.reading id)).listen config (before ++ frame :: after)).fate = .ends ending := by
  rw [listen_awaits h, Active.listen, ← Waiting.turn, hturn]

/-- either the frames are a proper beginning, or one of them is the end of the answer or the first to deviate -/
theorem frames_cases (id : ObjectId) (fs : List (List UInt8)) :
    (∃ x, Awaits id fs x) ∨ ∃ before frame after x, fs = before ++ frame :: after ∧ Awaits id before x ∧
      ((∃ b, Completes id x frame b ∧ Reading.Suffices id b) ∨ ∃ ending, Deviates id x frame ending) := by
  induction fs using List.reverseRecOn with
  | nil => exact .inl ⟨_, .opening⟩
  | append_singleton fs last ih =>
    rcases ih with ⟨x, hx⟩ | ⟨before, frame, after, x, rfl, hx, hends⟩
    · rcases frame_cases id x last with ⟨x', hc⟩ | hends
      · exact .inl ⟨x', hx.append hc⟩
      · exact .inr ⟨fs, last, [], x, rfl, hx, hends⟩
    · exact .inr ⟨before, frame, after ++ [last], x, by simp, hx, hends⟩

/-- the fate of a read, from the frames alone -/
theorem listen_fate (config : Config) (id : ObjectId) (fs : List (List UInt8)) :
    let fate := ((Active.reading (Waiting.opening.reading id)).listen config fs).fate
    (∀ v, fate = .ends (.completed v) ↔
        ∃ answer rest b, fs = answer ++ rest ∧ Answer id answer b ∧ Reading.Suffices id b ∧
          v = Value.decode b id.type) ∧
      ((∃ next, fate = .goesOn next) ↔ ∃ x, Awaits id fs x) ∧
      ∀ ending, ending.failed = true →
        (fate = .ends ending ↔
          ∃ before frame after x, fs = before ++ frame :: after ∧ Awaits id before x ∧ Deviates id x frame ending) := by
  intro fate
  have hcompletes : ∀ {before frame after x b}, fs = before ++ frame :: after → Awaits id before x →
      Completes id x frame b → Reading.Suffices id b → fate = .ends (.completed (Value.decode b id.type)) := by
    rintro before frame after x b rfl hx hb hs
    exact listen_ends hx ((turn_completes hb).trans (if_pos hs))
  have hdeviates : ∀ {before frame after x ending}, fs = before ++ frame :: after → Awaits id before x →
      Deviates id x frame ending → fate = .ends ending := by
    rintro before frame after x ending rfl hx hd
    exact listen_ends hx (turn_deviates hd)
  have hawaits : ∀ {x}, Awaits id fs x → fate = .goesOn (.reading (x.reading id)) := by
    intro x hx
    have hfate : ((Active.reading (Waiting.opening.reading id)).listen config (fs ++ [])).fate = _ :=
      listen_awaits hx []
    rwa [List.append_nil] at hfate
  refine ⟨fun v => ⟨?_, ?_⟩, ⟨?_, ?_⟩, fun ending hfailed => ⟨?_, ?_⟩⟩
  · intro hfate
    rcases frames_cases id fs with ⟨x, hx⟩ | ⟨before, frame, after, x, hfs, hx, ⟨b, hb, hs⟩ | ⟨ending, hd⟩⟩
    · rw [hawaits hx] at hfate
      cases hfate
    · rw [hcompletes hfs hx hb hs] at hfate
      have hanswer : Answer id (before ++ [frame]) b := answer_iff.2 ⟨before, frame, x, rfl, hx, hb⟩
      cases hfate
      exact ⟨before ++ [frame], after, b, by simpa using hfs, hanswer, hs, rfl⟩
    · have hfailed := hd.failed
      rw [hdeviates hfs hx hd] at hfate
      cases hfate
      cases hfailed
  · rintro ⟨answer, rest, b, hfs, hanswer, hs, rfl⟩
    obtain ⟨before, frame, x, rfl, hx, hb⟩ := answer_iff.1 hanswer
    exact hcompletes (by simpa using hfs) hx hb hs
  · rintro ⟨next, hfate⟩
    rcases frames_cases id fs with hx | ⟨before, frame, after, x, hfs, hx, ⟨b, hb, hs⟩ | ⟨ending, hd⟩⟩
    · exact hx
    · rw [hcompletes hfs hx hb hs] at hfate
      cases hfate
    · rw [hdeviates hfs hx hd] at hfate
      cases hfate
  · rintro ⟨x, hx⟩
    exact ⟨_, hawaits hx⟩
  · intro hfate
    rcases frames_cases id fs with ⟨x, hx⟩ | ⟨before, frame, after, x, hfs, hx, ⟨b, hb, hs⟩ | ⟨ending', hd⟩⟩
    · rw [hawaits hx] at hfate
      cases hfate
    · rw [hcompletes hfs hx hb hs] at hfate
      cases hfate
      cases hfailed
    · rw [hdeviates hfs hx hd] at hfate
      cases hfate
      exact ⟨before, frame, after, x, hfs, hx, hd⟩
  · rintro ⟨before, frame, after, x, hfs, hx, hd⟩
    exact hdeviates hfs hx hd

end SdoClient.Upload

namespace SdoClient.Engine

open Upload

/-- **Reassembly of an upload.** Without a timeout, the frames delivered settle what becomes of a read that is no block
upload. It completes exactly if they begin with a whole answer of enough octets, and the value is what these decode to;
it waits exactly if they are a proper beginning of an answer; and it fails exactly as the first frame that deviates
says. A failure that the client notices ends with its abort, and the dictionary takes the outcome. -/
theorem upload_reassembles (e : Engine) (d : Dictionary) (id : ObjectId) (os : List Occasion)
    (hid : id.usesBlocks = false) (ha : e.active = some (Transfer.begin e.config ⟨id, .read⟩).1)
    (htimely : e.Timely d os) :
    let c := e.course d (Transfer.begin e.config ⟨id, .read⟩).1 os
    (∀ v, c.fate = .ends (.completed v) ↔
        ∃ answer rest b, e.delivered os = answer ++ rest ∧ Answer id answer b ∧ Reading.Suffices id b ∧
          v = Value.decode b id.type) ∧
      ((∃ next, c.fate = .goesOn next) ↔ ∃ x, Awaits id (e.delivered os) x) ∧
      (∀ ending, ending.failed = true →
        (c.fate = .ends ending ↔
          ∃ before frame after x, e.delivered os = before ++ frame :: after ∧ Awaits id before x ∧
            Deviates id x frame ending)) ∧
      (∀ code, c.fate = .ends (.aborted code) → ∃ before, c.messages = before ++ [.offered (.abort id.mux code)]) ∧
      c.dictionary = match c.fate with
        | .goesOn _ => d
        | .ends (.completed v) => (d.commitValue id v .upload c.endedAt).1
        | .ends (.aborted code) | .ends (.abandoned code) => (d.commitError id code .upload).1 := by
  intro c
  have hbegin : (Transfer.begin e.config ⟨id, .read⟩).1 = .reading (Waiting.opening.reading id) := by
    simp only [Transfer.begin, hid, Bool.false_eq_true, if_false]
    rfl
  have hfate : c.fate = ((Active.reading (Waiting.opening.reading id)).listen e.config (e.delivered os)).fate := by
    have hreading := course_reading (d := d) (hbegin ▸ ha) htimely
    rw [← hreading, ← hbegin]
  obtain ⟨hcompleted, hwaits, hfails⟩ := listen_fate e.config id (e.delivered os)
  rw [← hfate] at hcompleted hwaits hfails
  refine ⟨hcompleted, hwaits, hfails, ?_, ?_⟩
  · intro code hcode
    have haborted := course_aborted ha os hcode
    rwa [Transfer.target_begin] at haborted
  · have hdictionary : c.dictionary = c.fate.commit c.endedAt d (Transfer.begin e.config ⟨id, .read⟩).1 :=
      course_dictionary ha os
    rw [hdictionary, hbegin]
    cases c.fate with
    | goesOn next => rfl
    | ends ending => cases ending <;> rfl

/-- a number of four octets -/
def counterId : ObjectId := ⟨0, 5, ⟨0x2000, 1⟩, .unsigned .w32⟩

/-- its entry, with the mark of a transfer that was not answered -/
def counterEntry : Entry :=
  { subIndex := 1, name := "counter", type := .unsigned .w32, access := { read := true }, error := .timeout }

/-- a dictionary of node 5 with the entry -/
def counters : Dictionary :=
  (({ bus := 0, node := 5 } : Dictionary).insert { index := 0x2000, name := "counters" }).addEntry 0x2000 counterEntry

def readingCounter : Engine := { node := 5, active := some (Transfer.begin {} ⟨counterId, .read⟩).1 }

/-- the announcement of four octets, three of them in one segment, the fourth in another one, and a frame too many -/
def counterFrames : List (List UInt8) :=
  [[0x41, 0x00, 0x20, 0x01, 4, 0, 0, 0], [0x08, 0x78, 0x56, 0x34, 0, 0, 0, 0], [0x1d, 0x12, 0, 0, 0, 0, 0, 0],
    [0x80, 0x00, 0x20, 0x01, 0, 0, 4, 5]]

def counterRun : List Occasion := counterFrames.map fun data => .mk 1 true (.frame ⟨0x585, data⟩)

theorem upload_reassembles_counter :
    let c := readingCounter.course counters (Transfer.begin readingCounter.config ⟨counterId, .read⟩).1 counterRun
    counterId.usesBlocks = false ∧ readingCounter.Timely counters counterRun ∧
      c.fate = .ends (.completed (some (.u32 0x12345678))) ∧
      c.dictionary = (counters.commitValue counterId (some (.u32 0x12345678)) .upload 1).1 ∧
      c.dictionary.find? counterId.mux = some { counterEntry with
        value := some (.u32 0x12345678)
        changedAt := some 1
        error := .none } := by
  intro c
  have htimely : readingCounter.Timely counters counterRun := by decide +kernel
  obtain ⟨hcompleted, -, -, -, hdictionary⟩ :=
    upload_reassembles readingCounter counters counterId counterRun rfl rfl htimely
  have hannounced : Announces counterId [0x41, 0x00, 0x20, 0x01, 4, 0, 0, 0] 4 := ⟨true, 0, #v[4, 0, 0, 0], rfl, rfl⟩
  have hcarried : Carry (counterFrames.extract 1 3)
      ([⟨false, 3, false, #v[0x78, 0x56, 0x34, 0, 0, 0, 0]⟩] ++ [⟨true, 1, true, #v[0x12, 0, 0, 0, 0, 0, 0]⟩]) := rfl
  have hanswer : Answer counterId (counterFrames.take 3) [0x78, 0x56, 0x34, 0x12] :=
    .segmented hannounced hcarried rfl (by decide) rfl (fun _ => rfl)
  have hsuffices : Reading.Suffices counterId [0x78, 0x56, 0x34, 0x12] := by decide
  have hfate : c.fate = .ends (.completed (some (.u32 0x12345678))) :=
    (hcompleted _).2 ⟨_, counterFrames.drop 3, _, rfl, hanswer, hsuffices, rfl⟩
  have hended : c.endedAt = 1 := by decide +kernel
  have hstored : c.dictionary = (counters.commitValue counterId (some (.u32 0x12345678)) .upload 1).1 := by
    rw [← hended, hdictionary, hfate]
  refine ⟨rfl, htimely, hfate, hstored, ?_⟩
  rw [hstored, Dictionary.find?_commitValue, if_pos rfl]
  rfl

end SdoClient.Engine
