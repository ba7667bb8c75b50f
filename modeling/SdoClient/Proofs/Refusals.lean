/-
What a refused frame changes: the log, and what the bus got. Take one engine over two transports that answer as they
like. Whatever a transport makes of an offered request, the engine goes on in the same way; only a pacing tick first
asks whether the bus is ready. The clock does not matter either, but for when the timers are due and for the times of
the last changes in the dictionary.

Main statements:
- `Engine.step_alike`: engines that differ only in when their timers are due, over dictionaries that differ only in when
  values were changed, stay so over the same event;
- `Engine.step_same`: at the same time, the event makes exactly the same of one engine;
- `Transport.carry_matches`: two transports that are offered the same requests tell the log the same, but for what
  became of each request;
- `Node.perform_alike`, `Node.performAll_alike`: so do two nodes over one event, and over a whole run;
- `refusals_change_nothing`: in every state that can be reached, an event that is no tick makes the same of the node
  over all transports, and a tick over all that are equally ready.
-/
import Mathlib.Tactic
import SdoClient.Proofs.Admission
import SdoClient.Proofs.Pacing

namespace SdoClient

/-! ## Dictionaries that differ in when values were changed -/

/-- the entry without the time of its last change; that there was one is kept -/
def Entry.untimed (x : Entry) : Entry := { x with changedAt := x.changedAt.map fun _ => 0 }

@[simp] theorem Entry.type_untimed (x : Entry) : x.untimed.type = x.type := rfl

@[simp] theorem Entry.withinLimits_untimed (x : Entry) (v : Value) : x.untimed.withinLimits v = x.withinLimits v := rfl

namespace Dictionary

/-- the dictionary without the times of the last changes -/
def untimed (d : Dictionary) : Dictionary :=
  { d with objects := d.objects.map fun _ o => { o with entries := o.entries.map fun _ x => x.untimed } }

/-- the dictionaries are the same, but for when values were changed -/
def Alike (d d' : Dictionary) : Prop := d.untimed = d'.untimed

variable {d d' : Dictionary}

theorem Alike.refl (d : Dictionary) : d.Alike d := rfl

theorem find?_untimed (d : Dictionary) (m : Mux) : d.untimed.find? m = (d.find? m).map Entry.untimed := by
  simp only [find?, untimed, SortedMap.find?_map]
  cases d.objects.find? m.index <;> simp [SortedMap.find?_map]

theorem untimed_modify (d : Dictionary) (m : Mux) {f g : Entry → Entry} (h : ∀ x, (f x).untimed = g x.untimed) :
    (d.modify m f).untimed = d.untimed.modify m g := by
  simp only [untimed, modify, SortedMap.modify, SortedMap.map_map]
  congr 2
  funext i o
  by_cases hi : i = m.index
  · simp only [hi, if_true, SortedMap.map_map]
    congr 2
    funext s x
    by_cases hs : s = m.subIndex
    · simp only [hs, if_true, h]
    · simp only [hs, if_false]
  · simp only [hi, if_false]

theorem Alike.find? (h : d.Alike d') (m : Mux) : (d.find? m).map Entry.untimed = (d'.find? m).map Entry.untimed := by
  have h : d.untimed = d'.untimed := h
  rw [← find?_untimed, ← find?_untimed, h]

theorem Alike.owner (h : d.Alike d') : d.node = d'.node ∧ d.feed = d'.feed := by
  have hnode : d.untimed.node = d'.untimed.node := congrArg node h
  have hfeed : d.untimed.feed = d'.untimed.feed := congrArg feed h
  exact ⟨hnode, hfeed⟩

/-- a commit does the same to alike dictionaries, if it differs only in the time of the change -/
theorem Alike.commit (h : d.Alike d') (n : Notice) {f f' g : Entry → Entry} (hf : ∀ x, (f x).untimed = g x.untimed)
    (hf' : ∀ x, (f' x).untimed = g x.untimed) :
    (d.commit n f).1.Alike (d'.commit n f').1 ∧ (d.commit n f).2 = (d'.commit n f').2 := by
  have hknown : (d.find? n.id.mux).isSome = (d'.find? n.id.mux).isSome := by
    simpa using congrArg Option.isSome (h.find? n.id.mux)
  have hmodified : (d.modify n.id.mux f).untimed = (d'.modify n.id.mux f').untimed := by
    have h : d.untimed = d'.untimed := h
    rw [untimed_modify d _ hf, untimed_modify d' _ hf', h]
  unfold Dictionary.commit
  rw [hknown]
  split
  · refine ⟨?_, rfl⟩
    change { (d.modify n.id.mux f).untimed with feed := d.feed.publish n } =
      { (d'.modify n.id.mux f').untimed with feed := d'.feed.publish n }
    rw [hmodified, h.owner.2]
  · exact ⟨h, rfl⟩

theorem Alike.commitValue (h : d.Alike d') (id : ObjectId) (v : Option Value) (direction : Direction)
    (clock clock' : Time) :
    (d.commitValue id v direction clock).1.Alike (d'.commitValue id v direction clock').1 ∧
      (d.commitValue id v direction clock).2 = (d'.commitValue id v direction clock').2 :=
  h.commit (g := (Entry.succeed · v 0)) _ (fun _ => rfl) fun _ => rfl

theorem Alike.commitError (h : d.Alike d') (id : ObjectId) (code : AbortCode) (direction : Direction) :
    (d.commitError id code direction).1.Alike (d'.commitError id code direction).1 ∧
      (d.commitError id code direction).2 = (d'.commitError id code direction).2 :=
  h.commit (g := (Entry.fail · code)) _ (fun _ => rfl) fun _ => rfl

end Dictionary

namespace Engine

/-! ## Engines that differ in when their timers are due -/

/-- the engine in the same state with the same timers set, due at other times perhaps -/
inductive Alike (e : Engine) : Engine → Prop
  | retimed {timeoutAt pacingAt : Option Time} (timeout : e.timeoutAt.isSome = timeoutAt.isSome)
      (pacing : e.pacingAt.isSome = pacingAt.isSome) : Alike e { e with timeoutAt, pacingAt }

theorem Alike.refl (e : Engine) : e.Alike e := .retimed rfl rfl

end Engine

/-- the outcomes are the same, but for when the timers are due and when values were changed -/
structure Outcome.Alike (r r' : Outcome) : Prop where
  engine : r.engine.Alike r'.engine
  dictionary : r.dictionary.Alike r'.dictionary
  effects : r.effects = r'.effects

namespace Engine

variable {e e' : Engine} {d d' : Dictionary}

theorem Alike.timed (h : e.Alike e') (ht : e.Timed) : e'.Timed := by
  cases h with
  | retimed timeout pacing => exact ⟨ht.queue, timeout.symm.trans ht.timeout, pacing.symm.trans ht.pacing⟩

theorem Alike.owner (h : e.Alike e') : e.node = e'.node ∧ e.requestId = e'.requestId := by
  cases h with
  | retimed => exact ⟨rfl, rfl⟩

/-! ## What alike engines do -/

theorem Alike.startNext (h : e.Alike e') (clock clock' : Time) :
    (e.startNext clock).1.Alike (e'.startNext clock').1 ∧ (e.startNext clock).2 = (e'.startNext clock').2 := by
  cases h with
  | retimed timeout pacing =>
    unfold Engine.startNext
    dsimp only
    split
    · exact ⟨.retimed rfl pacing, rfl⟩
    · exact ⟨.retimed timeout pacing, rfl⟩

theorem Alike.enqueue (h : e.Alike e') (clock clock' : Time) (t : Transfer) :
    (e.enqueue clock t).1.Alike (e'.enqueue clock' t).1 ∧ (e.enqueue clock t).2 = (e'.enqueue clock' t).2 := by
  cases h with
  | retimed timeout pacing =>
    have hqueued : Alike { e with queue := e.queue ++ [t] } _ := .retimed timeout pacing
    exact hqueued.startNext clock clock'

/-- a call means the same entry of alike dictionaries -/
theorem Alike.resolve (h : e.Alike e') (hd : d.Alike d') (id : ObjectId) :
    (∃ cause, e.resolve d id = .error cause ∧ e'.resolve d' id = .error cause) ∨
      ∃ found x x', x.untimed = x'.untimed ∧ e.resolve d id = .ok (found, x) ∧ e'.resolve d' id = .ok (found, x') := by
  have hnode : e'.node = e.node := h.owner.1.symm
  have hentry := hd.find? id.mux
  unfold Engine.resolve
  rw [hnode, ← hd.owner.1]
  split
  · exact .inl ⟨_, rfl, rfl⟩
  · cases hx : d.find? id.mux with
    | none =>
      rw [hx] at hentry
      rw [Option.map_eq_none_iff.1 hentry.symm]
      exact .inl ⟨_, rfl, rfl⟩
    | some x =>
      rw [hx] at hentry
      obtain ⟨x', hx', hsame⟩ := Option.map_eq_some_iff.1 hentry.symm
      have htype : x'.type = x.type := by simpa using congrArg Entry.type hsame
      rw [hx']
      exact .inr ⟨_, x, x', hsame.symm, rfl, by simp only [htype]⟩

theorem Alike.upload (h : e.Alike e') (hd : d.Alike d') (clock clock' : Time) (id : ObjectId) :
    (e.called d (e.upload clock d id)).Alike (e'.called d' (e'.upload clock' d' id)) := by
  unfold Engine.upload
  rcases h.resolve hd id with ⟨cause, hr, hr'⟩ | ⟨found, x, x', -, hr, hr'⟩ <;> simp only [hr, hr']
  · exact ⟨h, hd, rfl⟩
  · have hwaits : e'.readWaits found = e.readWaits found := by
      cases h
      rfl
    rw [hwaits]
    split
    · exact ⟨h, hd, rfl⟩
    · obtain ⟨hengine, heffects⟩ := h.enqueue clock clock' ⟨found, .read⟩
      exact ⟨hengine, hd, heffects⟩

theorem Alike.download (h : e.Alike e') (hd : d.Alike d') (clock clock' : Time) (id : ObjectId) (v : Value) :
    (e.called d (e.download clock d id v)).Alike (e'.called d' (e'.download clock' d' id v)) := by
  unfold Engine.download
  rcases h.resolve hd id with ⟨cause, hr, hr'⟩ | ⟨found, x, x', hsame, hr, hr'⟩ <;> simp only [hr, hr']
  · exact ⟨h, hd, rfl⟩
  · have hlimits : x.withinLimits v = x'.withinLimits v := by simpa using congrArg (Entry.withinLimits · v) hsame
    rw [hlimits]
    split
    · split
      · exact ⟨h, hd, rfl⟩
      · rename_i payload _
        obtain ⟨hengine, heffects⟩ :=
          h.enqueue clock clock' ⟨found, .write ((Value.decode payload found.type).getD v) payload⟩
        exact ⟨hengine, hd, heffects⟩
    · exact ⟨h, hd, rfl⟩

theorem Alike.conclude (h : e.Alike e') (clock clock' : Time) {committed committed' : Dictionary × Option Notice}
    (hcommitted : committed.1.Alike committed'.1 ∧ committed.2 = committed'.2) (id : ObjectId) (failed : Bool)
    (before : List Effect) :
    (e.conclude clock committed id failed before).Alike (e'.conclude clock' committed' id failed before) := by
  have hreleased : e.released.Alike e'.released := by
    cases h
    exact .retimed rfl rfl
  obtain ⟨hengine, heffects⟩ := hreleased.startNext clock clock'
  exact ⟨hengine, hcommitted.1, by rw [Engine.conclude, Engine.conclude, heffects, hcommitted.2]⟩

/-- a reaction of the transfer in progress is carried out alike, whether its requests are sent or not -/
theorem Alike.settle (h : e.Alike e') (hd : d.Alike d') (clock clock' : Time) (a : Active) (r : Reaction) :
    (e.settle clock d a r).Alike (e'.settle clock' d' a r) := by
  cases r with
  | finish value closing => exact h.conclude clock clock' (hd.commitValue a.target value a.direction clock clock') _ _ _
  | abort code | abandon code => exact h.conclude clock clock' (hd.commitError a.target code a.direction) _ _ _
  | wait next =>
    cases h with
    | retimed timeout pacing => exact ⟨.retimed timeout pacing, hd, rfl⟩
  | ask next request =>
    cases h with
    | retimed timeout pacing => exact ⟨.retimed rfl pacing, hd, rfl⟩
  | pace next =>
    cases h with
    | retimed timeout pacing => exact ⟨.retimed timeout rfl, hd, rfl⟩

theorem Alike.receive (h : e.Alike e') (hd : d.Alike d') (clock clock' : Time) (frame : CanFrame) :
    (e.receive clock d frame).Alike (e'.receive clock' d' frame) := by
  have hsettle := fun a r => h.settle hd clock clock' a r
  cases h with
  | @retimed t p timeout pacing =>
    have hid : Engine.responseId { e with timeoutAt := t, pacingAt := p } = e.responseId := rfl
    unfold Engine.receive
    rw [hid]
    dsimp only
    split
    · exact ⟨.retimed timeout pacing, hd, rfl⟩
    · split
      · exact ⟨.retimed timeout pacing, hd, rfl⟩
      · rename_i a _
        obtain ⟨hengine, hdictionary, heffects⟩ := hsettle a _
        exact ⟨hengine, hdictionary, by rw [heffects]⟩

theorem Alike.expire (h : e.Alike e') (hd : d.Alike d') (clock clock' : Time) :
    (e.expire clock d).Alike (e'.expire clock' d') := by
  have hsettle := fun a r => h.settle hd clock clock' a r
  cases h with
  | retimed timeout pacing =>
    unfold Engine.expire
    dsimp only
    split
    · exact ⟨.retimed rfl pacing, hd, rfl⟩
    · rename_i a _
      obtain ⟨hengine, hdictionary, heffects⟩ := hsettle a (.abort .timeout)
      exact ⟨hengine, hdictionary, by rw [heffects]⟩

/-- a tick does alike if the bus is ready for both or for neither -/
theorem Alike.tick (h : e.Alike e') (clock clock' : Time) (ready : Bool) :
    (e.tick clock ready).1.Alike (e'.tick clock' ready).1 ∧ (e.tick clock ready).2 = (e'.tick clock' ready).2 := by
  cases h with
  | retimed timeout pacing =>
    unfold Engine.tick
    dsimp only
    split
    · split
      · exact ⟨.retimed timeout rfl, rfl⟩
      · split
        · refine ⟨?_, rfl⟩
          dsimp only
          split
          · exact .retimed rfl rfl
          · exact .retimed rfl rfl
        · exact ⟨.retimed timeout rfl, rfl⟩
    · exact ⟨.retimed timeout rfl, rfl⟩

/-- what a poll does, by what it means for the transfer in progress -/
theorem Timed.poll_cases (h : e.Timed) (clock now : Time) (ready : Bool) (d : Dictionary) :
    (e.stimulus? ⟨clock, ready, .poll now⟩ = some .lapse ∧ e.poll clock ready d now = e.expire clock d) ∨
      (e.stimulus? ⟨clock, ready, .poll now⟩ = some (.tick ready) ∧
        e.poll clock ready d now = ⟨(e.tick clock ready).1, d, (e.tick clock ready).2⟩) ∨
      (e.stimulus? ⟨clock, ready, .poll now⟩ = none ∧ e.poll clock ready d now = ⟨e, d, []⟩) := by
  simp only [stimulus?]
  cases ht : due e.timeoutAt now with
  | true =>
    obtain ⟨a, ha⟩ : ∃ a, e.active = some a := by
      rw [← Option.isSome_iff_exists, ← h.timeout]
      exact isSome_of_due ht
    exact .inl ⟨rfl, poll_lapsed ha ht ready⟩
  | false =>
    cases hp : due e.pacingAt now with
    | true => exact .inr (.inl ⟨rfl, poll_paced ht hp ready⟩)
    | false => exact .inr (.inr ⟨rfl, poll_before e ht hp⟩)

/-- polls that fire the same timers do alike, whenever these are due -/
theorem Alike.poll (h : e.Alike e') (hd : d.Alike d') (ht : e.Timed) {clock clock' now now' : Time}
    {ready ready' : Bool}
    (hsame : e.stimulus? ⟨clock, ready, .poll now⟩ = e'.stimulus? ⟨clock', ready', .poll now'⟩) :
    (e.poll clock ready d now).Alike (e'.poll clock' ready' d' now') := by
  rcases ht.poll_cases clock now ready d with ⟨hs, hpoll⟩ | ⟨hs, hpoll⟩ | ⟨hs, hpoll⟩ <;>
    rcases (h.timed ht).poll_cases clock' now' ready' d' with ⟨hs', hpoll'⟩ | ⟨hs', hpoll'⟩ | ⟨hs', hpoll'⟩ <;>
    rw [hs, hs'] at hsame <;> cases hsame
  · rw [hpoll, hpoll']
    exact h.expire hd clock clock'
  · obtain ⟨hengine, heffects⟩ := h.tick clock clock' ready
    rw [hpoll, hpoll']
    exact ⟨hengine, hd, heffects⟩
  · rw [hpoll, hpoll']
    exact ⟨h, hd, rfl⟩

/-- two occasions are of the same event, and it reaches the transfer in progress in the same way: a poll fires the same
timer, and at a tick the bus is ready on both or on neither -/
structure Concur (e e' : Engine) (o o' : Occasion) : Prop where
  event : o.event = o'.event ∨ ∃ now now', o.event = .poll now ∧ o'.event = .poll now'
  stimulus : e.stimulus? o = e'.stimulus? o'

/-- **Step lemma.** The same event makes alike engines do the same and leaves them and their dictionaries alike. -/
theorem step_alike {o o' : Occasion} (h : e.Alike e') (hd : d.Alike d') (ht : e.Timed) (hc : e.Concur e' o o') :
    (e.step d o).Alike (e'.step d' o') := by
  obtain ⟨clock, ready, event⟩ := o
  obtain ⟨clock', ready', event'⟩ := o'
  obtain ⟨hevent, hstimulus⟩ := hc
  rcases hevent with hevent | ⟨now, now', hnow, hnow'⟩
  · obtain rfl : event = event' := hevent
    cases event with
    | upload id => exact h.upload hd clock clock' id
    | download id v => exact h.download hd clock clock' id v
    | frame frame => exact h.receive hd clock clock' frame
    | timeout => exact h.expire hd clock clock'
    | tick =>
      cases hstimulus
      obtain ⟨hengine, heffects⟩ := h.tick clock clock' ready
      exact ⟨hengine, hd, heffects⟩
    | poll now => exact h.poll hd ht hstimulus
  · obtain rfl : event = .poll now := hnow
    obtain rfl : event' = .poll now' := hnow'
    exact h.poll hd ht hstimulus

/-- at the same time, an event that reaches the transfer in the same way does the same, whether the bus is ready or
not -/
theorem step_same (ht : e.Timed) {clock : Time} {ready ready' : Bool} {event : Event}
    (hsame : e.stimulus? ⟨clock, ready, event⟩ = e.stimulus? ⟨clock, ready', event⟩) (d : Dictionary) :
    e.step d ⟨clock, ready, event⟩ = e.step d ⟨clock, ready', event⟩ := by
  cases event with
  | upload | download | frame | timeout => rfl
  | tick =>
    cases hsame
    rfl
  | poll now =>
    change e.poll clock ready d now = e.poll clock ready' d now
    rcases ht.poll_cases clock now ready d with ⟨hs, hpoll⟩ | ⟨hs, hpoll⟩ | ⟨hs, hpoll⟩ <;>
      rcases ht.poll_cases clock now ready' d with ⟨hs', hpoll'⟩ | ⟨hs', hpoll'⟩ | ⟨hs', hpoll'⟩ <;>
      rw [hs, hs'] at hsame <;> cases hsame
    · rw [hpoll, hpoll']
    · rfl
    · rw [hpoll, hpoll']

end Engine

/-! ## What the log is told -/

/-- the report says what became of a request that was offered -/
inductive Report.TellsOf (node : UInt8) (frame : CanFrame) (request : Request) : Report → Prop
  | sent : TellsOf node frame request (.frameSent node frame)
  | closed : TellsOf node frame request (.notReady node request)
  | refused (cause : Error) : TellsOf node frame request (.sendFailed node cause)

/-- the reports are the same, or they say what became of the same request on two transports -/
def Report.Matches (r r' : Report) : Prop :=
  r = r' ∨ ∃ node frameId request,
    TellsOf node ⟨frameId, request.toBytes⟩ request r ∧ TellsOf node ⟨frameId, request.toBytes⟩ request r'

namespace Transport

variable {τ υ : Type} [Transport τ] [Transport υ]

theorem offer_tells (node : UInt8) (frameId : UInt32) (t : τ) (request : Request) :
    (offer node frameId t request).2.TellsOf node ⟨frameId, request.toBytes⟩ request := by
  unfold offer
  split
  · dsimp only
    split
    · exact .sent
    · exact .refused _
  · exact .closed

/-- **Two logs of the same effects.** They agree report by report, but for what became of each offered request. -/
theorem carry_matches (node : UInt8) (frameId : UInt32) (t : τ) (u : υ) (effects : List Effect) :
    List.Forall₂ Report.Matches (carry node frameId t effects).2 (carry node frameId u effects).2 := by
  induction effects generalizing t u with
  | nil => exact .nil
  | cons effect rest ih =>
    cases effect with
    | offer request =>
      exact .cons (.inr ⟨node, frameId, request, offer_tells _ _ t _, offer_tells _ _ u _⟩) (ih _ _)
    | publish notice => exact ih t u
    | log report => exact .cons (.inl rfl) (ih t u)

/-- the frames that a transport takes are among those that it is offered, in their order -/
theorem sent_sublist_offered (node : UInt8) (frameId : UInt32) (t : τ) {effects : List Effect}
    (hquiet : effects.all Effect.quiet = true) :
    (sentFrames (carry node frameId t effects).2).Sublist ((offers effects).map fun r => ⟨frameId, r.toBytes⟩) := by
  induction effects generalizing t with
  | nil => exact .slnil
  | cons effect rest ih =>
    rw [List.all_cons, Bool.and_eq_true] at hquiet
    obtain ⟨hfirst, hrest⟩ := hquiet
    cases effect with
    | offer request =>
      rw [carry, sentFrames_cons, offers_cons_offer, List.map_cons]
      have htells := offer_tells node frameId t request
      have hlater := ih (offer node frameId t request).1 hrest
      generalize (offer node frameId t request).2 = report at htells ⊢
      cases htells with
      | sent => exact hlater.cons_cons _
      | closed | refused => exact hlater.cons _
    | publish notice => exact ih t hrest
    | log report =>
      rw [carry, sentFrames_cons, Option.isNone_iff_eq_none.1 hfirst]
      exact ih t hrest

end Transport

/-! ## Nodes over two transports -/

/-- the nodes are the same, but for when their timers are due and when values were changed -/
structure Node.Alike (n m : Node) : Prop where
  engine : n.engine.Alike m.engine
  dictionary : n.dictionary.Alike m.dictionary

/-- the nodes are alike after what was done to them, and the log was told the same, but for what became of requests -/
structure Performance.Alike {τ υ : Type} (p : Performance τ) (q : Performance υ) : Prop where
  node : p.node.Alike q.node
  log : List.Forall₂ Report.Matches p.log q.log

namespace Node

open Transport

variable {τ υ : Type} [Transport τ] [Transport υ] {n m : Node} {clock clock' : Time} {t : τ} {u : υ}
  {event event' : Engine.Event}

theorem Alike.refl (n : Node) : n.Alike n := ⟨.refl _, .refl _⟩

/-- the notices that an event publishes -/
def published (n : Node) (clock : Time) (t : τ) (event : Engine.Event) : List Notice :=
  notices (n.engine.step n.dictionary ⟨clock, canSend t, event⟩).effects

/-- the same event on alike nodes, whatever their transports make of the requests -/
theorem perform_alike (h : n.Alike m) (ht : n.engine.Timed)
    (hc : n.engine.Concur m.engine ⟨clock, canSend t, event⟩ ⟨clock', canSend u, event'⟩) :
    (n.perform clock t event).Alike (m.perform clock' u event') := by
  obtain ⟨hengine, hdictionary, heffects⟩ := Engine.step_alike h.engine h.dictionary ht hc
  obtain ⟨hnode, hid⟩ := h.engine.owner
  refine ⟨⟨hengine, hdictionary⟩, ?_⟩
  rw [perform, perform, heffects, hnode, hid]
  exact carry_matches _ _ _ _ _

/-- the same event on one node at the same time, whatever its transport makes of the requests -/
theorem perform_same (ht : n.engine.Timed)
    (hsame : n.engine.stimulus? ⟨clock, canSend t, event⟩ = n.engine.stimulus? ⟨clock, canSend u, event⟩) :
    (n.perform clock t event).node = (n.perform clock u event).node := by
  have hstep := Engine.step_same ht hsame n.dictionary
  rw [perform, perform, hstep]

/-- events that happen to a node one after another, each at its time -/
def performAll (n : Node) (t : τ) : List (Time × Engine.Event) → Performance τ
  | [] => ⟨n, t, []⟩
  | (clock, event) :: rest =>
    let first := n.perform clock t event
    let later := first.node.performAll first.transport rest
    { later with log := first.log ++ later.log }

/-- two nodes meet the same events, at times of their own: each poll fires the same timer on both, and at each tick both
transports are ready or neither is -/
def Concurring (n m : Node) (t : τ) (u : υ) : List (Time × Engine.Event) → List (Time × Engine.Event) → Prop
  | [], [] => True
  | (clock, event) :: rest, (clock', event') :: rest' =>
    n.engine.Concur m.engine ⟨clock, canSend t, event⟩ ⟨clock', canSend u, event'⟩ ∧
      Concurring (n.perform clock t event).node (m.perform clock' u event').node (n.perform clock t event).transport
        (m.perform clock' u event').transport rest rest'
  | _, _ => False

/-- **Run lemma.** Alike nodes that meet the same events stay alike, whatever their transports make of the requests. -/
theorem performAll_alike (h : n.Alike m) (ht : n.engine.Timed) {events events' : List (Time × Engine.Event)}
    (hc : n.Concurring m t u events events') : (n.performAll t events).Alike (m.performAll u events') := by
  induction events generalizing n m t u events' with
  | nil =>
    cases events' with
    | nil => exact ⟨h, .nil⟩
    | cons => exact hc.elim
  | cons first rest ih =>
    cases events' with
    | nil => exact hc.elim
    | cons first' rest' =>
      obtain ⟨hfirst, hrest⟩ := hc
      have hnext := perform_alike h ht hfirst
      have hlater := ih hnext.node (Engine.step_timed _ _ _ ht) hrest
      exact ⟨hlater.node, List.rel_append hnext.log hlater.log⟩

/-- **Run lemma.** A node that meets the same events at the same times is the same afterwards, whatever its transport
makes of the requests. -/
theorem performAll_same (ht : n.engine.Timed) {events : List (Time × Engine.Event)}
    (hc : n.Concurring n t u events events) : (n.performAll t events).node = (n.performAll u events).node := by
  induction events generalizing n t u with
  | nil => rfl
  | cons first rest ih =>
    obtain ⟨clock, event⟩ := first
    obtain ⟨hfirst, hrest⟩ := hc
    have hnode := perform_same ht hfirst.stimulus
    rw [← hnode] at hrest
    have hlater := ih (Engine.step_timed _ _ _ ht) hrest
    rw [performAll, performAll, ← hnode]
    exact hlater

/-- the event does the same to the node over the one transport as over the other: the node is the same afterwards, but
for when the timers are due and when values were changed if the times differ, the same notices are published, and both
transports are given the same frames. Only which of these each of them takes, and what the log is told of it, may
differ. -/
structure SameOver (n : Node) (clock clock' : Time) (t : τ) (u : υ) (event : Engine.Event) : Prop where
  outcome : (n.perform clock t event).Alike (n.perform clock' u event)
  node : clock = clock' → (n.perform clock t event).node = (n.perform clock' u event).node
  published : n.published clock t event = n.published clock' u event
  given : (n.perform clock t event).transport = (n.frames clock t event).foldl hand t
  given' : (n.perform clock' u event).transport = (n.frames clock t event).foldl hand u
  sent : (sentFrames (n.perform clock t event).log).Sublist (n.frames clock t event)
  sent' : (sentFrames (n.perform clock' u event).log).Sublist (n.frames clock t event)

theorem sameOver_of_concur (ht : n.engine.Timed)
    (hc : n.engine.Concur n.engine ⟨clock, canSend t, event⟩ ⟨clock', canSend u, event⟩) :
    n.SameOver clock clock' t u event := by
  obtain ⟨-, -, heffects⟩ := Engine.step_alike (.refl n.engine) (.refl n.dictionary) ht hc
  have hframes : n.frames clock t event = n.frames clock' u event := by rw [frames, frames, offered, offered, heffects]
  refine ⟨perform_alike (.refl n) ht hc, ?_, congrArg notices heffects, n.transport_perform clock t event, ?_, ?_, ?_⟩
  · rintro rfl
    exact perform_same ht hc.stimulus
  · rw [hframes]
    exact n.transport_perform clock' u event
  · exact sent_sublist_offered _ _ t (n.engine.step_quiet n.dictionary _)
  · rw [hframes]
    exact sent_sublist_offered _ _ u (n.engine.step_quiet n.dictionary _)

end Node

/-- an event that reaches the transfer as something else than a tick reaches it so whether or not the bus is ready -/
theorem Engine.stimulus?_unready {e : Engine} {clock clock' : Time} {ready ready' : Bool} {event : Event}
    (h : ready = ready' ∨ ∀ r, e.stimulus? ⟨clock, ready, event⟩ ≠ some (.tick r)) :
    e.stimulus? ⟨clock, ready, event⟩ = e.stimulus? ⟨clock', ready', event⟩ := by
  rcases h with rfl | h
  · rfl
  · cases event with
    | upload | download | frame | timeout => rfl
    | tick => exact absurd rfl (h ready)
    | poll now =>
      simp only [stimulus?] at h ⊢
      split
      · rfl
      · rename_i hlate
        rw [if_neg hlate] at h
        split
        · rename_i hp
          exact absurd (if_pos hp) (h ready)
        · rfl

namespace Service

open Transport (canSend)

/-- **A refused frame never alters the protocol.** Take any state that an engine can reach, with any dictionary, and two
transports that answer as they like. A call, a frame, a timeout, and whatever else does not reach the transfer in
progress as a tick of the pacing timer, does the same to the node over both of them; so does a tick, and any other
event, if both are ready or neither is. The same holds of every sequence of events, as long as each tick in it finds
both transports ready or neither. At the same times the node is exactly the same afterwards; else only when its timers
are due, and when values were changed, may differ. -/
theorem refusals_change_nothing (node : UInt8) (config : Config) (d₀ : Dictionary) (ms : List Move) (d : Dictionary)
    {τ υ : Type} [Transport τ] [Transport υ] (t : τ) (u : υ) (clock clock' : Time) :
    let n : Node := ⟨d, ((start node config d₀).run ms).engine⟩
    (∀ event, (∀ ready, n.engine.stimulus? ⟨clock, canSend t, event⟩ ≠ some (.tick ready)) →
        n.SameOver clock clock' t u event) ∧
      (canSend t = canSend u → ∀ event, n.SameOver clock clock' t u event) ∧
      (∀ events events', n.Concurring n t u events events' →
        (n.performAll t events).Alike (n.performAll u events')) ∧
      ∀ events, n.Concurring n t u events events → (n.performAll t events).node = (n.performAll u events).node := by
  intro n
  have ht : n.engine.Timed := timed_run node config d₀ ms
  refine ⟨?_, ?_, ?_, fun events hc => Node.performAll_same ht hc⟩
  · intro event hevent
    exact Node.sameOver_of_concur ht ⟨.inl rfl, Engine.stimulus?_unready (.inr hevent)⟩
  · intro hready event
    exact Node.sameOver_of_concur ht ⟨.inl rfl, Engine.stimulus?_unready (.inl hready)⟩
  · intro events events' hc
    exact Node.performAll_alike (.refl n) ht hc

/-- a block download streams. Its timeout is the same over an open and a closed bus, and so are its next segment and the
timeout after it over a bus that takes frames and one that refuses them all; what is sent is not. -/
theorem refusals_change_nothing_jammed :
    let n : Node := ⟨twoEntries, ((start 5 {} twoEntries).run Node.openingMoves).engine⟩
    let opened : Recorder := {}
    let closed : Recorder := { ready := false }
    let jammed : Jammed := ⟨.busNotReady⟩
    (∀ ready, n.engine.stimulus? ⟨2, canSend opened, .timeout⟩ ≠ some (.tick ready)) ∧
      n.SameOver 2 9 opened closed .timeout ∧
      (sentFrames (n.perform 2 opened .timeout).log).length = 1 ∧ sentFrames (n.perform 9 closed .timeout).log = [] ∧
      canSend opened = canSend jammed ∧ n.SameOver 2 9 opened jammed .tick ∧
      n.Concurring n opened jammed [(2, .tick), (3, .timeout)] [(9, .tick), (9, .timeout)] ∧
      (n.performAll opened [(2, .tick), (3, .timeout)]).Alike (n.performAll jammed [(9, .tick), (9, .timeout)]) ∧
      (sentFrames (n.performAll opened [(2, .tick), (3, .timeout)]).log).length = 2 ∧
      sentFrames (n.performAll jammed [(9, .tick), (9, .timeout)]).log = [] := by
  intro n opened closed jammed
  obtain ⟨hlapse, -⟩ := refusals_change_nothing 5 {} twoEntries Node.openingMoves twoEntries opened closed 2 9
  obtain ⟨-, hready, hrun, -⟩ := refusals_change_nothing 5 {} twoEntries Node.openingMoves twoEntries opened jammed 2 9
  have hstimulus : ∀ ready, n.engine.stimulus? ⟨2, canSend opened, .timeout⟩ ≠ some (.tick ready) := by
    intro ready
    simp [Engine.stimulus?]
  have hconcur : n.Concurring n opened jammed [(2, .tick), (3, .timeout)] [(9, .tick), (9, .timeout)] :=
    ⟨⟨.inl rfl, by decide +kernel⟩, ⟨.inl rfl, by decide +kernel⟩, trivial⟩
  exact ⟨hstimulus, hlapse .timeout hstimulus, by decide +kernel, by decide +kernel, rfl, hready rfl .tick, hconcur,
    hrun _ _ hconcur, by decide +kernel, by decide +kernel⟩

end Service

end SdoClient
