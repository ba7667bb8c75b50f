/-
The course of one transfer: what passes between client and server from a moment at which the transfer is in progress
until it ends, and what becomes of it. Everything else that the engine meets meanwhile leaves no trace in it.

Main statements:
- `meetings_invariant`, `course_invariant`: what every turn of the transfer keeps holds of all that it meets, and of
  the messages of its course;
- `course_run`: a course is what a run of the engine shows, up to the end of the transfer;
- `course_listen`: without a timeout, the course of a read depends on the delivered frames alone.
-/
import Mathlib.Tactic
import SdoClient.Proofs.Ending

namespace SdoClient

/-- a message between client and server -/
inductive Message where
  /-- octets from the server -/
  | received (data : List UInt8)
  /-- a request of the client, whether or not the bus takes it -/
  | offered (request : Request)
  deriving DecidableEq

/-- the messages of a transfer, oldest first, and what becomes of it -/
structure Passage where
  messages : List Message := []
  fate : Fate
  deriving DecidableEq

/-- a passage, the dictionary at its end, and the time of its end, 0 while the transfer goes on -/
structure Course extends Passage where
  dictionary : Dictionary
  endedAt : Time := 0
  deriving DecidableEq

/-- the message that a stimulus brings -/
def Stimulus.heard : Stimulus → List Message
  | frame data => [.received data]
  | lapse | tick _ => []

/-- the messages of the turn at a stimulus -/
def Turn.messages (turn : Turn) (s : Stimulus) : List Message := s.heard ++ turn.requests.map .offered

/-- what the transfer in progress meets, and how it stands then -/
structure Meeting where
  active : Active
  stimulus : Stimulus
  deriving DecidableEq

/-- the messages at a meeting -/
def Meeting.messages (config : Config) (m : Meeting) : List Message :=
  (m.active.respond config m.stimulus).messages m.stimulus

/-- the octets received -/
def heard (messages : List Message) : List (List UInt8) :=
  messages.filterMap fun | .received data => some data | .offered _ => none

/-- the requests offered -/
def said (messages : List Message) : List Request :=
  messages.filterMap fun | .received _ => none | .offered request => some request

theorem heard_append (a b : List Message) : heard (a ++ b) = heard a ++ heard b := List.filterMap_append

theorem said_append (a b : List Message) : said (a ++ b) = said a ++ said b := List.filterMap_append

theorem heard_cons_offered (request : Request) (rest : List Message) :
    heard (.offered request :: rest) = heard rest := rfl

theorem heard_received (frames : List (List UInt8)) : heard (frames.map .received) = frames := by
  induction frames with
  | nil => rfl
  | cons data rest ih => exact congrArg (data :: ·) ih

theorem said_offered (requests : List Request) : said (requests.map .offered) = requests := by
  induction requests with
  | nil => rfl
  | cons r rest ih => exact congrArg (r :: ·) ih

theorem said_messages (turn : Turn) (s : Stimulus) : said (turn.messages s) = turn.requests := by
  rw [Turn.messages, said_append, said_offered]
  cases s <;> rfl

theorem heard_messages (turn : Turn) (s : Stimulus) : heard (turn.messages s) = heard s.heard := by
  have hoffered : ∀ requests : List Request, heard (requests.map .offered) = [] := by
    intro requests
    induction requests with
    | nil => rfl
    | cons r rest ih => exact ih
  rw [Turn.messages, heard_append, hoffered, List.append_nil]

/-- the dictionary after a transfer that began with `d` and came to `fate` -/
def Fate.commit (clock : Time) (d : Dictionary) (a : Active) : Fate → Dictionary
  | goesOn _ => d
  | ends ending => (ending.commit clock d a).1

/-- only the target and the direction of a transfer matter to its commit -/
theorem Fate.commit_congr {a b : Active} (clock : Time) (d : Dictionary) (fate : Fate) (h : a.transfer = b.transfer) :
    fate.commit clock d a = fate.commit clock d b := by
  have htarget : a.target = b.target := by
    rw [← Active.target_transfer, ← Active.target_transfer, h]
  have hdirection : a.direction = b.direction := by
    rw [← Active.direction_transfer, ← Active.direction_transfer, h]
  cases fate with
  | goesOn next => rfl
  | ends ending => cases ending <;> simp only [commit, Ending.commit, htarget, hdirection]

/-- what a transfer makes of frames alone -/
def Active.listen (config : Config) (a : Active) : List (List UInt8) → Passage
  | [] => { fate := .goesOn a }
  | data :: rest =>
    let turn := a.respond config (.frame data)
    match turn.fate with
    | .goesOn next =>
      let later := next.listen config rest
      { later with messages := turn.messages (.frame data) ++ later.messages }
    | .ends ending => { messages := turn.messages (.frame data), fate := .ends ending }

namespace Engine

variable {e : Engine} {d : Dictionary} {a : Active} {o : Occasion} {os : List Occasion}

/-- the course of the transfer `a` in progress during a run -/
def course (e : Engine) (d : Dictionary) (a : Active) : List Occasion → Course
  | [] => { fate := .goesOn a, dictionary := d }
  | o :: rest =>
    let after := e.step d o
    match e.stimulus? o with
    | none => after.engine.course after.dictionary a rest
    | some s =>
      let turn := a.respond e.config s
      match turn.fate with
      | .goesOn next =>
        let later := after.engine.course after.dictionary next rest
        { later with messages := turn.messages s ++ later.messages }
      | .ends ending =>
        { messages := turn.messages s, fate := .ends ending, dictionary := after.dictionary, endedAt := o.clock }

section equations

variable {s : Stimulus} {rest : List Occasion}

theorem course_unmoved (hs : e.stimulus? o = none) :
    e.course d a (o :: rest) = (e.step d o).engine.course (e.step d o).dictionary a rest := by
  simp only [course, hs]

theorem course_goesOn {next : Active} (hs : e.stimulus? o = some s)
    (hf : (a.respond e.config s).fate = .goesOn next) :
    e.course d a (o :: rest) =
      { (e.step d o).engine.course (e.step d o).dictionary next rest with
        messages := (a.respond e.config s).messages s ++
          ((e.step d o).engine.course (e.step d o).dictionary next rest).messages } := by
  simp only [course, hs, hf]

theorem course_ends {ending : Ending} (hs : e.stimulus? o = some s)
    (hf : (a.respond e.config s).fate = .ends ending) :
    e.course d a (o :: rest) =
      { messages := (a.respond e.config s).messages s
        fate := .ends ending
        dictionary := (e.step d o).dictionary
        endedAt := o.clock } := by
  simp only [course, hs, hf]

end equations

/-! ## Single events -/

/-- what stays of an engine and its dictionary while the transfer `next` is in progress -/
structure Continues (e : Engine) (d : Dictionary) (next : Active) (r : Outcome) : Prop where
  active : r.engine.active = some next
  config : r.engine.config = e.config
  responseId : r.engine.responseId = e.responseId
  dictionary : r.dictionary = d
  silent : notices r.effects = []

theorem unmoved_continues (ha : e.active = some a) (hs : e.stimulus? o = none) :
    e.Continues d a (e.step d o) ∧ offers (e.step d o).effects = [] := by
  obtain ⟨he, hd, ho, hn⟩ := step_unmoved (d := d) ha hs
  refine ⟨⟨?_, ?_, ?_, hd, hn⟩, ho⟩
  · rw [he]
    exact ha
  · rw [he]
  · rw [he]
    rfl

theorem goesOn_continues {s : Stimulus} {next : Active} (ha : e.active = some a) (hs : e.stimulus? o = some s)
    (hf : (a.respond e.config s).fate = .goesOn next) :
    e.Continues d next (e.step d o) ∧ offers (e.step d o).effects = (a.respond e.config s).requests := by
  have hc := step_active (d := d) ha hs
  simp only [Carries, hf] at hc
  obtain ⟨hnext, -, hconfig, hnode, hd, ho, hn⟩ := hc
  exact ⟨⟨hnext, hconfig, by rw [responseId, responseId, hconfig, hnode], hd, hn⟩, ho⟩

theorem ends_commits {s : Stimulus} {ending : Ending} (ha : e.active = some a) (hs : e.stimulus? o = some s)
    (hf : (a.respond e.config s).fate = .ends ending) :
    (e.step d o).dictionary = (ending.commit o.clock d a).1 ∧
      (a.respond e.config s).requests <+: offers (e.step d o).effects := by
  have hc := step_active (d := d) ha hs
  simp only [Carries, hf] at hc
  obtain ⟨-, hd, ho, -⟩ := hc
  rw [ho]
  exact ⟨hd, List.prefix_append _ _⟩

/-! ## Meetings -/

/-- what the transfer in progress meets during a run, and how it stands then, oldest first -/
def meetings (e : Engine) (d : Dictionary) (a : Active) : List Occasion → List Meeting
  | [] => []
  | o :: rest =>
    let after := e.step d o
    match e.stimulus? o with
    | none => after.engine.meetings after.dictionary a rest
    | some s =>
      match (a.respond e.config s).fate with
      | .goesOn next => ⟨a, s⟩ :: after.engine.meetings after.dictionary next rest
      | .ends _ => [⟨a, s⟩]

section equations

variable {s : Stimulus} {rest : List Occasion}

theorem meetings_unmoved (hs : e.stimulus? o = none) :
    e.meetings d a (o :: rest) = (e.step d o).engine.meetings (e.step d o).dictionary a rest := by
  simp only [meetings, hs]

theorem meetings_goesOn {next : Active} (hs : e.stimulus? o = some s)
    (hf : (a.respond e.config s).fate = .goesOn next) :
    e.meetings d a (o :: rest) = ⟨a, s⟩ :: (e.step d o).engine.meetings (e.step d o).dictionary next rest := by
  simp only [meetings, hs, hf]

theorem meetings_ends {ending : Ending} (hs : e.stimulus? o = some s)
    (hf : (a.respond e.config s).fate = .ends ending) : e.meetings d a (o :: rest) = [⟨a, s⟩] := by
  simp only [meetings, hs, hf]

end equations

/-- the messages of a course are those of its meetings -/
theorem messages_meetings (config : Config) (hconfig : e.config = config) (ha : e.active = some a)
    (os : List Occasion) :
    (e.course d a os).messages = (e.meetings d a os).flatMap (Meeting.messages config) := by
  induction os generalizing e d a with
  | nil => rfl
  | cons o rest ih =>
    cases hs : e.stimulus? o with
    | none =>
      obtain ⟨hk, -⟩ := unmoved_continues (d := d) ha hs
      rw [course_unmoved hs, meetings_unmoved hs]
      exact ih (hk.config.trans hconfig) hk.active
    | some s =>
      have hmessages : (a.respond e.config s).messages s = Meeting.messages config ⟨a, s⟩ := by
        rw [Meeting.messages, hconfig]
      cases hf : (a.respond e.config s).fate with
      | goesOn next =>
        obtain ⟨hk, -⟩ := goesOn_continues (d := d) ha hs hf
        rw [course_goesOn hs hf, meetings_goesOn hs hf, List.flatMap_cons, hmessages,
          ih (hk.config.trans hconfig) hk.active]
      | ends ending => rw [course_ends hs hf, meetings_ends hs hf, List.flatMap_singleton, hmessages]

/-- **Run lemma.** What holds at first and is kept by every turn holds of the meetings of a transfer. -/
theorem meetings_invariant (config : Config) (P : List Meeting → Fate → Prop)
    (keep : ∀ ms a s, P ms (.goesOn a) → P (ms ++ [⟨a, s⟩]) (a.respond config s).fate)
    (hconfig : e.config = config) (ha : e.active = some a) (ms : List Meeting) (h : P ms (.goesOn a))
    (os : List Occasion) : P (ms ++ e.meetings d a os) (e.course d a os).fate := by
  induction os generalizing e d a ms with
  | nil => simpa [course, meetings] using h
  | cons o rest ih =>
    cases hs : e.stimulus? o with
    | none =>
      obtain ⟨hk, -⟩ := unmoved_continues (d := d) ha hs
      rw [course_unmoved hs, meetings_unmoved hs]
      exact ih (hk.config.trans hconfig) hk.active ms h
    | some s =>
      have hturn := keep ms a s h
      rw [← hconfig] at hturn
      cases hf : (a.respond e.config s).fate with
      | goesOn next =>
        obtain ⟨hk, -⟩ := goesOn_continues (d := d) ha hs hf
        rw [hf] at hturn
        rw [course_goesOn hs hf, meetings_goesOn hs hf, List.append_cons]
        exact ih (hk.config.trans hconfig) hk.active _ hturn
      | ends ending =>
        rw [hf] at hturn
        rw [course_ends hs hf, meetings_ends hs hf]
        exact hturn

/-! ## Runs -/

/-- **Run lemma.** What holds at first and is kept by every turn of the transfer holds of its course. -/
theorem course_invariant (config : Config) (P : List Message → Fate → Prop)
    (keep : ∀ ms a s, P ms (.goesOn a) → P (ms ++ (a.respond config s).messages s) (a.respond config s).fate)
    (hconfig : e.config = config) (ha : e.active = some a) (ms : List Message) (h : P ms (.goesOn a))
    (os : List Occasion) : P (ms ++ (e.course d a os).messages) (e.course d a os).fate := by
  let Q : List Meeting → Fate → Prop := fun met fate => P (ms ++ met.flatMap (Meeting.messages config)) fate
  have keepQ : ∀ met b s, Q met (.goesOn b) → Q (met ++ [⟨b, s⟩]) (b.respond config s).fate := by
    intro met b s hb
    have hturn := keep _ b s hb
    rw [List.append_assoc] at hturn
    simp only [Q, List.flatMap_append, List.flatMap_singleton]
    exact hturn
  have hmet : Q (e.meetings d a os) (e.course d a os).fate :=
    meetings_invariant config Q keepQ hconfig ha [] (by simpa [Q] using h) os
  rw [messages_meetings config hconfig ha]
  exact hmet

/-- an aborted transfer ends with the abort that the client offers -/
theorem course_aborted (ha : e.active = some a) (os : List Occasion) {code : AbortCode}
    (hf : (e.course d a os).fate = .ends (.aborted code)) :
    ∃ before, (e.course d a os).messages = before ++ [.offered (.abort a.target.mux code)] := by
  let P : List Message → Fate → Prop := fun ms fate =>
    match fate with
    | .goesOn next => next.target = a.target
    | .ends (.aborted code) => ∃ before, ms = before ++ [.offered (.abort a.target.mux code)]
    | .ends _ => True
  have keep : ∀ ms b s, P ms (.goesOn b) →
      P (ms ++ (b.respond e.config s).messages s) (b.respond e.config s).fate := by
    intro ms b s hb
    have hb : b.target = a.target := hb
    cases hr : (b.respond e.config s).fate with
    | goesOn next =>
      change next.target = a.target
      rw [← hb, ← Active.target_transfer, Active.transfer_respond hr, Active.target_transfer]
    | ends ending =>
      cases ending with
      | aborted code =>
        have hrequests : (b.respond e.config s).requests = [.abort b.target.mux code] := b.respond_justified hr
        refine ⟨ms ++ s.heard, ?_⟩
        rw [Turn.messages, hrequests, hb, List.append_assoc]
        rfl
      | completed value | abandoned code => exact trivial
  have hcourse := course_invariant (d := d) e.config P keep rfl ha [] rfl os
  rw [hf] at hcourse
  exact hcourse

/-- the dictionary at the end of a course: only the end of the transfer changes it -/
theorem course_dictionary (ha : e.active = some a) (os : List Occasion) :
    (e.course d a os).dictionary = (e.course d a os).fate.commit (e.course d a os).endedAt d a := by
  induction os generalizing e d a with
  | nil => rfl
  | cons o rest ih =>
    cases hs : e.stimulus? o with
    | none =>
      obtain ⟨hk, -⟩ := unmoved_continues (d := d) ha hs
      rw [course_unmoved hs, hk.dictionary]
      exact ih hk.active
    | some s =>
      cases hf : (a.respond e.config s).fate with
      | goesOn next =>
        obtain ⟨hk, -⟩ := goesOn_continues (d := d) ha hs hf
        rw [course_goesOn hs hf, hk.dictionary]
        exact (ih hk.active).trans (Fate.commit_congr _ _ _ (Active.transfer_respond hf))
      | ends ending =>
        rw [course_ends hs hf]
        exact (ends_commits ha hs hf).1

theorem Continues.run {b next : Active} {rest : List Occasion} (h : e.Continues d b (e.step d o))
    (hrest : (e.step d o).engine.Continues d next ((e.step d o).engine.run d rest)) :
    e.Continues d next (e.run d (o :: rest)) := by
  rw [Engine.run, h.dictionary]
  exact ⟨hrest.active, hrest.config.trans h.config, hrest.responseId.trans h.responseId, hrest.dictionary,
    by simp [h.silent, hrest.silent]⟩

/-- as long as the transfer goes on, the run offers the requests of its course and publishes nothing -/
theorem course_run {next : Active} (ha : e.active = some a) (os : List Occasion)
    (hf : (e.course d a os).fate = .goesOn next) :
    e.Continues d next (e.run d os) ∧ offers (e.run d os).effects = said (e.course d a os).messages := by
  induction os generalizing e a with
  | nil =>
    cases hf
    exact ⟨⟨ha, rfl, rfl, rfl, rfl⟩, rfl⟩
  | cons o rest ih =>
    cases hs : e.stimulus? o with
    | none =>
      obtain ⟨hk, ho⟩ := unmoved_continues (d := d) ha hs
      rw [course_unmoved hs, hk.dictionary] at hf ⊢
      obtain ⟨hrun, hoffers⟩ := ih hk.active hf
      exact ⟨hk.run hrun, by rw [run, hk.dictionary, offers_append, ho, hoffers, List.nil_append]⟩
    | some s =>
      cases hr : (a.respond e.config s).fate with
      | goesOn n =>
        obtain ⟨hk, ho⟩ := goesOn_continues (d := d) ha hs hr
        rw [course_goesOn hs hr, hk.dictionary] at hf ⊢
        obtain ⟨hrun, hoffers⟩ := ih hk.active hf
        exact ⟨hk.run hrun, by rw [run, hk.dictionary, offers_append, ho, hoffers, said_append, said_messages]⟩
      | ends ending =>
        rw [course_ends hs hr] at hf
        cases hf

/-- a course that has not come to its end goes on where it stands -/
theorem course_append {next : Active} (ha : e.active = some a) (os more : List Occasion)
    (hf : (e.course d a os).fate = .goesOn next) :
    e.course d a (os ++ more) =
      { (e.run d os).engine.course d next more with
        messages := (e.course d a os).messages ++ ((e.run d os).engine.course d next more).messages } := by
  induction os generalizing e a with
  | nil =>
    cases hf
    rfl
  | cons o rest ih =>
    rw [List.cons_append, run]
    cases hs : e.stimulus? o with
    | none =>
      obtain ⟨hk, -⟩ := unmoved_continues (d := d) ha hs
      rw [course_unmoved hs, hk.dictionary] at hf
      rw [course_unmoved hs, course_unmoved hs, hk.dictionary]
      exact ih hk.active hf
    | some s =>
      cases hr : (a.respond e.config s).fate with
      | goesOn n =>
        obtain ⟨hk, -⟩ := goesOn_continues (d := d) ha hs hr
        rw [course_goesOn hs hr, hk.dictionary] at hf
        rw [course_goesOn hs hr, course_goesOn hs hr, hk.dictionary, ih hk.active hf]
        simp only [List.append_assoc]
      | ends ending =>
        rw [course_ends hs hr] at hf
        cases hf

/-- the event that ends a transfer ends its course, at the time of the event -/
theorem course_concat_ends {next : Active} {s : Stimulus} {ending : Ending} (ha : e.active = some a)
    (hf : (e.course d a os).fate = .goesOn next) (hs : (e.run d os).engine.stimulus? o = some s)
    (hends : (next.respond e.config s).fate = .ends ending) :
    (e.course d a (os ++ [o])).toPassage =
        ⟨(e.course d a os).messages ++ (next.respond e.config s).messages s, .ends ending⟩ ∧
      (e.course d a (os ++ [o])).endedAt = o.clock := by
  obtain ⟨hk, -⟩ := course_run ha os hf
  rw [← hk.config] at hends
  rw [course_append ha os [o] hf, course_ends hs hends, hk.config]
  exact ⟨rfl, rfl⟩

/-- the requests of a course are the first that the run offers, in order -/
theorem said_course_isPrefix (ha : e.active = some a) (os : List Occasion) :
    said (e.course d a os).messages <+: offers (e.run d os).effects := by
  induction os generalizing e d a with
  | nil => exact List.prefix_rfl
  | cons o rest ih =>
    cases hs : e.stimulus? o with
    | none =>
      obtain ⟨hk, ho⟩ := unmoved_continues (d := d) ha hs
      rw [course_unmoved hs]
      simpa [run, ho] using ih hk.active
    | some s =>
      cases hr : (a.respond e.config s).fate with
      | goesOn next =>
        obtain ⟨hk, ho⟩ := goesOn_continues (d := d) ha hs hr
        rw [course_goesOn hs hr]
        simpa [run, ho, said_append, said_messages] using ih hk.active
      | ends ending =>
        obtain ⟨-, ho⟩ := ends_commits (d := d) ha hs hr
        rw [course_ends hs hr, said_messages]
        exact ho.trans (by simp [run])

/-! ## Runs without a timeout -/

/-- the frames that reach the engine during a run, whatever is in progress -/
def delivered (e : Engine) (os : List Occasion) : List (List UInt8) :=
  os.filterMap fun o =>
    match o.event with
    | .frame frame => if frame.id = e.responseId then some frame.data else none
    | _ => none

theorem delivered_congr {e' : Engine} (h : e'.responseId = e.responseId) : e'.delivered os = e.delivered os := by
  simp only [delivered, h]

theorem delivered_of_unmoved (hs : e.stimulus? o = none) : e.delivered [o] = [] := by
  obtain ⟨clock, ready, event⟩ := o
  cases event with
  | frame frame =>
    by_cases hid : frame.id = e.responseId
    · simp [stimulus?, hid] at hs
    · simp [delivered, hid]
  | _ => rfl

theorem delivered_of_stimulus {s : Stimulus} (hs : e.stimulus? o = some s) : e.delivered [o] = heard s.heard := by
  obtain ⟨clock, ready, event⟩ := o
  cases event with
  | frame frame =>
    by_cases hid : frame.id = e.responseId
    · have hframe : s = .frame frame.data := by simpa [stimulus?, hid] using hs.symm
      subst hframe
      simp [delivered, hid, heard, Stimulus.heard]
    · simp [stimulus?, hid] at hs
  | upload id => cases hs
  | download id v => cases hs
  | timeout =>
    cases hs
    rfl
  | tick =>
    cases hs
    rfl
  | poll now =>
    have hsilent : s = .lapse ∨ s = .tick ready := by
      simp only [stimulus?] at hs
      split at hs
      · exact .inl (Option.some.inj hs).symm
      · split at hs
        · exact .inr (Option.some.inj hs).symm
        · cases hs
    rcases hsilent with rfl | rfl <;> rfl

theorem delivered_cons : e.delivered (o :: os) = e.delivered [o] ++ e.delivered os := by
  change e.delivered ([o] ++ os) = _
  exact List.filterMap_append

/-- the frames that a course hears are the first that reach the engine, in order -/
theorem heard_course_isPrefix (ha : e.active = some a) (os : List Occasion) :
    heard (e.course d a os).messages <+: e.delivered os := by
  induction os generalizing e d a with
  | nil => exact List.prefix_rfl
  | cons o rest ih =>
    rw [delivered_cons]
    cases hs : e.stimulus? o with
    | none =>
      obtain ⟨hk, -⟩ := unmoved_continues (d := d) ha hs
      have hlater := ih (d := (e.step d o).dictionary) hk.active
      rw [delivered_congr hk.responseId] at hlater
      rw [course_unmoved hs, delivered_of_unmoved hs]
      exact hlater
    | some s =>
      cases hf : (a.respond e.config s).fate with
      | goesOn next =>
        obtain ⟨hk, -⟩ := goesOn_continues (d := d) ha hs hf
        have hlater := ih (d := (e.step d o).dictionary) hk.active
        rw [delivered_congr hk.responseId] at hlater
        rw [course_goesOn hs hf, heard_append, heard_messages, delivered_of_stimulus hs]
        exact (List.prefix_append_right_inj _).2 hlater
      | ends ending =>
        rw [course_ends hs hf, heard_messages, delivered_of_stimulus hs]
        exact List.prefix_append _ _

/-- no timeout strikes during a run -/
def Timely (e : Engine) (d : Dictionary) : List Occasion → Prop
  | [] => True
  | o :: rest => e.stimulus? o ≠ some .lapse ∧ (e.step d o).engine.Timely (e.step d o).dictionary rest

instance decidableTimely (e : Engine) (d : Dictionary) : (os : List Occasion) → Decidable (e.Timely d os)
  | [] => .isTrue trivial
  | o :: rest =>
    have := decidableTimely (e.step d o).engine (e.step d o).dictionary rest
    inferInstanceAs (Decidable (e.stimulus? o ≠ some .lapse ∧ _))

/-- without a timeout, and if ticks leave it alone, the course of a transfer depends on the delivered frames alone -/
theorem course_listen (config : Config) (P : Active → Prop)
    (hkeep : ∀ a data next, P a → (a.respond config (.frame data)).fate = .goesOn next → P next)
    (hpaced : ∀ a ready, P a → a.paced ready = ⟨[], .goesOn a⟩)
    (hconfig : e.config = config) (ha : e.active = some a) (hP : P a) (hos : e.Timely d os) :
    (e.course d a os).toPassage = a.listen config (e.delivered os) := by
  induction os generalizing e d a with
  | nil => rfl
  | cons o rest ih =>
    obtain ⟨hlapse, hrest⟩ := hos
    rw [delivered_cons]
    cases hs : e.stimulus? o with
    | none =>
      obtain ⟨hk, -⟩ := unmoved_continues (d := d) ha hs
      have hlater := ih (hk.config.trans hconfig) hk.active hP hrest
      rw [delivered_congr hk.responseId] at hlater
      rw [course_unmoved hs, delivered_of_unmoved hs]
      exact hlater
    | some s =>
      rw [delivered_of_stimulus hs]
      cases s with
      | lapse => exact absurd hs hlapse
      | tick ready =>
        have hturn : a.respond e.config (.tick ready) = ⟨[], .goesOn a⟩ := hpaced a ready hP
        have hf : (a.respond e.config (.tick ready)).fate = .goesOn a := by rw [hturn]
        obtain ⟨hk, -⟩ := goesOn_continues (d := d) ha hs hf
        have hlater := ih (hk.config.trans hconfig) hk.active hP hrest
        rw [delivered_congr hk.responseId] at hlater
        rw [course_goesOn hs hf, hturn]
        exact hlater
      | frame data =>
        subst hconfig
        change _ = a.listen e.config (data :: e.delivered rest)
        rw [Active.listen]
        cases hf : (a.respond e.config (.frame data)).fate with
        | goesOn next =>
          obtain ⟨hk, -⟩ := goesOn_continues (d := d) ha hs hf
          have hlater := ih hk.config hk.active (hkeep a data next hP hf) hrest
          rw [delivered_congr hk.responseId] at hlater
          simp only [course_goesOn hs hf, ← hlater]
        | ends ending => simp only [course_ends hs hf]

/-- ticks leave a read alone -/
theorem course_reading {r : Reading} (ha : e.active = some (.reading r)) (hos : e.Timely d os) :
    (e.course d (.reading r) os).toPassage = (Active.reading r).listen e.config (e.delivered os) := by
  refine course_listen e.config (fun a => a.direction = .upload) ?_ ?_ rfl ha rfl hos
  · intro a data next hP hf
    rw [← Active.direction_transfer, Active.transfer_respond hf, Active.direction_transfer]
    exact hP
  · intro a ready hP
    cases a with
    | reading r => rfl
    | writing w => cases hP

end Engine

/-! ## Listening -/

namespace Active

variable {config : Config} {a next : Active} {ms : List Message} {xs : List (List UInt8)}

theorem listen_append (h : a.listen config xs = ⟨ms, .goesOn next⟩) (ys : List (List UInt8)) :
    a.listen config (xs ++ ys) =
      { next.listen config ys with messages := ms ++ (next.listen config ys).messages } := by
  induction xs generalizing a ms with
  | nil =>
    cases h
    rfl
  | cons data rest ih =>
    rw [List.cons_append, listen]
    rw [listen] at h
    cases hf : (a.respond config (.frame data)).fate with
    | goesOn n =>
      simp only [hf] at h ⊢
      obtain ⟨hm, hn⟩ := Passage.mk.inj h
      have hrest : n.listen config rest = ⟨(n.listen config rest).messages, .goesOn next⟩ := by rw [← hn]
      rw [ih hrest]
      simp only [← hm, List.append_assoc]
    | ends ending =>
      simp only [hf] at h
      cases (Passage.mk.inj h).2

/-- after its end a transfer hears nothing more -/
theorem listen_append_ends {ending : Ending} (h : a.listen config xs = ⟨ms, .ends ending⟩) (ys : List (List UInt8)) :
    a.listen config (xs ++ ys) = ⟨ms, .ends ending⟩ := by
  induction xs generalizing a ms with
  | nil => cases h
  | cons data rest ih =>
    rw [List.cons_append, listen]
    rw [listen] at h
    cases hf : (a.respond config (.frame data)).fate with
    | goesOn n =>
      simp only [hf] at h ⊢
      obtain ⟨hm, hn⟩ := Passage.mk.inj h
      have hrest : n.listen config rest = ⟨(n.listen config rest).messages, .ends ending⟩ := by rw [← hn]
      rw [ih hrest, hm]
    | ends ending' =>
      simp only [hf] at h ⊢
      exact h

end Active

end SdoClient
