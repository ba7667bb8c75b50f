/-
What one event makes of an engine. An event that concerns the transfer in progress reaches it as a `Stimulus`; the
transfer answers with requests and either goes on or ends. Everything else that an event can do is to put a transfer
into the queue or to start the first one that waits.

Main statements:
- `step_active`: an event that concerns the transfer in progress does what `Active.respond` says and nothing more;
- `step_unmoved`: every other event leaves the transfer in progress as it is;
- `step_idle`: without a transfer in progress, an event commits and publishes nothing.
-/
import Mathlib.Tactic
import SdoClient.Proofs.Reaction

namespace SdoClient

/-! ## Stimuli and turns -/

/-- an event as the transfer in progress meets it -/
inductive Stimulus where
  /-- a frame with the identifier of the responses -/
  | frame (data : List UInt8)
  /-- the server did not answer in time -/
  | lapse
  /-- the pacing timer, and whether the bus is ready then -/
  | tick (ready : Bool)
  deriving DecidableEq

/-- how a transfer ends -/
inductive Ending where
  /-- well, with a value to store -/
  | completed (value : Option Value)
  /-- because of something the client noticed -/
  | aborted (code : AbortCode)
  /-- because the server says so -/
  | abandoned (code : AbortCode)
  deriving DecidableEq

/-- what becomes of a transfer -/
inductive Fate where
  | goesOn (next : Active)
  | ends (ending : Ending)
  deriving DecidableEq

/-- the answer of a transfer to a stimulus: the requests that it offers, and what becomes of it -/
structure Turn where
  requests : List Request := []
  fate : Fate
  deriving DecidableEq

/-- the transfer failed -/
def Ending.failed : Ending → Bool
  | completed _ => false
  | aborted _ | abandoned _ => true

/-- commits the end of the transfer `a` -/
def Ending.commit (clock : Time) (d : Dictionary) (a : Active) : Ending → Dictionary × Option Notice
  | completed value => d.commitValue a.target value a.direction clock
  | aborted code | abandoned code => d.commitError a.target code a.direction

/-- a reaction of the transfer `a` as a turn -/
def Reaction.turn (a : Active) : Reaction → Turn
  | wait next => ⟨[], .goesOn next⟩
  | ask next request => ⟨[request], .goesOn next⟩
  | pace next => ⟨[], .goesOn next⟩
  | finish value closing => ⟨closing.toList, .ends (.completed value)⟩
  | abort code => ⟨[.abort a.target.mux code], .ends (.aborted code)⟩
  | abandon code => ⟨[], .ends (.abandoned code)⟩

/-- the turn at the pacing timer: the next segment of a block download, if the bus takes it -/
def Active.paced (a : Active) (ready : Bool) : Turn :=
  match a with
  | .reading _ => ⟨[], .goesOn a⟩
  | .writing w =>
    match w.sending? with
    | some block => if ready then ⟨[(w.tick block).2], .goesOn (.writing (w.tick block).1)⟩ else ⟨[], .goesOn a⟩
    | none => ⟨[], .goesOn a⟩

theorem Writing.sending?_eq_some (w : Writing) {o : Output} (h : w.sending? = some o) :
    w.phase = .block o ∧ o.awaitingAck = false := by
  unfold sending? at h
  split at h
  · rename_i o' hp
    split at h
    · cases h
    · rename_i ha
      cases h
      exact ⟨hp, by simpa using ha⟩
  · cases h

/-- the turn at any stimulus -/
def Active.respond (config : Config) (a : Active) : Stimulus → Turn
  | .frame data => (a.reactTo config data).turn a
  | .lapse => (Reaction.abort .timeout).turn a
  | .tick ready => a.paced ready

/-- a transfer that goes on is still the transfer that was asked for -/
theorem Active.transfer_respond {config : Config} {a next : Active} {s : Stimulus}
    (h : (a.respond config s).fate = .goesOn next) : next.transfer = a.transfer := by
  cases s with
  | frame data =>
    have hr := a.reactTo_lawful config data
    rw [respond] at h
    generalize a.reactTo config data = r at h hr
    cases hr with
    | wait kept | ask kept | pace kept =>
      cases h
      exact kept
    | finish | abort | abandon => cases h
  | lapse => cases h
  | tick ready =>
    simp only [respond, paced] at h
    split at h
    · cases h
      rfl
    · split at h
      · split at h <;> (cases h; rfl)
      · cases h
        rfl

/-! ## Effects by kind -/

/-- the request that an effect offers -/
def Effect.request? : Effect → Option Request
  | offer request => some request
  | _ => none

/-- the notice that an effect publishes -/
def Effect.notice? : Effect → Option Notice
  | publish notice => some notice
  | _ => none

/-- the requests offered, in order -/
def offers (effects : List Effect) : List Request := effects.filterMap Effect.request?

/-- the notices published, in order -/
def notices (effects : List Effect) : List Notice := effects.filterMap Effect.notice?

@[simp] theorem offers_nil : offers [] = [] := rfl

@[simp] theorem notices_nil : notices [] = [] := rfl

@[simp] theorem offers_cons_offer (request : Request) (rest : List Effect) :
    offers (.offer request :: rest) = request :: offers rest := rfl

@[simp] theorem offers_cons_log (report : Report) (rest : List Effect) :
    offers (.log report :: rest) = offers rest := rfl

@[simp] theorem offers_cons_publish (notice : Notice) (rest : List Effect) :
    offers (.publish notice :: rest) = offers rest := rfl

@[simp] theorem notices_cons_offer (request : Request) (rest : List Effect) :
    notices (.offer request :: rest) = notices rest := rfl

@[simp] theorem notices_cons_log (report : Report) (rest : List Effect) :
    notices (.log report :: rest) = notices rest := rfl

@[simp] theorem notices_cons_publish (notice : Notice) (rest : List Effect) :
    notices (.publish notice :: rest) = notice :: notices rest := rfl

@[simp] theorem offers_append (a b : List Effect) : offers (a ++ b) = offers a ++ offers b :=
  List.filterMap_append

@[simp] theorem notices_append (a b : List Effect) : notices (a ++ b) = notices a ++ notices b :=
  List.filterMap_append

@[simp] theorem offers_reports (reports : List Report) : offers (reports.map .log) = [] := by
  induction reports with
  | nil => rfl
  | cons _ _ ih => simpa using ih

@[simp] theorem notices_reports (reports : List Report) : notices (reports.map .log) = [] := by
  induction reports with
  | nil => rfl
  | cons _ _ ih => simpa using ih

/-- the write of a value: its octets, and what a read of them would return -/
def Transfer.ofWrite (id : ObjectId) (v : Value) : Transfer :=
  ⟨id, .write ((Value.decode (v.payload id.type) id.type).getD v) (v.payload id.type)⟩

namespace Engine

variable {e : Engine} {clock : Time} {d : Dictionary} {a : Active} {o : Occasion}

/-! ## The queue and the next transfer -/

/-- the transfers accepted and not finished, in the order of service -/
def pending (e : Engine) : List Transfer := e.active.toList.map Active.transfer ++ e.queue

/-- a call was accepted and put a transfer into the queue: a write always does, a read unless it joins one that waits -/
def accepted (e : Engine) (d : Dictionary) (o : Occasion) : Option Transfer :=
  match o.event with
  | .upload id =>
    match e.upload o.clock d id, e.resolve d id with
    | .ok _, .ok (id, _) => if e.readWaits id then none else some ⟨id, .read⟩
    | _, _ => none
  | .download id v =>
    match e.download o.clock d id v, e.resolve d id with
    | .ok _, .ok (id, _) => some (.ofWrite id v)
    | _, _ => none
  | _ => none

theorem transfer_begin (config : Config) (t : Transfer) : (t.begin config).1.transfer = t := by
  obtain ⟨id, job⟩ := t
  cases job with
  | read =>
    simp only [Transfer.begin]
    split <;> rfl
  | write value payload =>
    simp only [Transfer.begin]
    split
    · rfl
    · split <;> rfl

@[simp] theorem released_active : e.released.active = none := rfl

@[simp] theorem released_queue : e.released.queue = e.queue := rfl

/-- starting the next transfer moves it from the queue into progress and publishes nothing -/
theorem startNext_spec (e : Engine) (clock : Time) :
    (e.startNext clock).1.pending = e.pending ∧ notices (e.startNext clock).2 = [] ∧
      (e.startNext clock).1.config = e.config ∧ (e.startNext clock).1.node = e.node := by
  unfold startNext
  split
  · rename_i t rest ha hq
    refine ⟨?_, rfl, rfl, rfl⟩
    simp [pending, armTimeout, transfer_begin, ha, hq]
  · exact ⟨rfl, rfl, rfl, rfl⟩

/-- with a transfer in progress, none is started -/
theorem startNext_active (ha : e.active = some a) : e.startNext clock = (e, []) := by
  unfold startNext
  split
  · rename_i hn _
    rw [ha] at hn
    cases hn
  · rfl

/-- the first transfer that waits is put in progress, and its initiate request offered -/
theorem startNext_starts {t : Transfer} {rest : List Transfer} (clock : Time) (ha : e.active = none)
    (hq : e.queue = t :: rest) :
    (e.startNext clock).1.active = some (t.begin e.config).1 ∧
      offers (e.startNext clock).2 = [(t.begin e.config).2] := by
  unfold startNext
  rw [ha, hq]
  exact ⟨rfl, rfl⟩

/-- a transfer put into the queue is the last to be served -/
theorem enqueue_spec (e : Engine) (clock : Time) (t : Transfer) :
    (e.enqueue clock t).1.pending = e.pending ++ [t] ∧ notices (e.enqueue clock t).2 = [] ∧
      (e.enqueue clock t).1.config = e.config ∧ (e.enqueue clock t).1.node = e.node := by
  obtain ⟨hp, hn, hc, hd⟩ := startNext_spec { e with queue := e.queue ++ [t] } clock
  refine ⟨?_, hn, hc, hd⟩
  rw [enqueue, hp]
  simp [pending]

theorem enqueue_active (ha : e.active = some a) (t : Transfer) :
    e.enqueue clock t = ({ e with queue := e.queue ++ [t] }, []) :=
  startNext_active (e := { e with queue := e.queue ++ [t] }) ha

/-! ## Calls -/

/-- a read call that is taken joins a read of its entry that waits, or queues one -/
theorem upload_cases {asked : ObjectId} {r : Engine × List Effect} (h : e.upload clock d asked = .ok r) :
    ∃ id x, e.resolve d asked = .ok (id, x) ∧
      (e.readWaits id = true ∧ r = (e, [.log (.alreadyQueued id)]) ∨
        e.readWaits id = false ∧ r = e.enqueue clock ⟨id, .read⟩) := by
  unfold upload at h
  split at h
  · cases h
  · rename_i id x hresolve
    refine ⟨id, x, hresolve, ?_⟩
    split at h <;> rename_i hwaits <;> cases h
    · exact .inl ⟨hwaits, rfl⟩
    · exact .inr ⟨by simpa using hwaits, rfl⟩

/-- a write call that is taken queues the write of a value that the entry can hold -/
theorem download_cases {asked : ObjectId} {v : Value} {r : Engine × List Effect}
    (h : e.download clock d asked v = .ok r) :
    ∃ id x, e.resolve d asked = .ok (id, x) ∧ x.withinLimits v = true ∧ v.fits id.type = true ∧
      r = e.enqueue clock (.ofWrite id v) := by
  unfold download Value.encode at h
  split at h
  · cases h
  · rename_i id x hresolve
    split at h
    · rename_i hlimits
      cases hfits : v.fits id.type with
      | false =>
        rw [hfits] at h
        cases h
      | true =>
        rw [hfits] at h
        cases h
        exact ⟨id, x, hresolve, hlimits, hfits, rfl⟩
    · cases h

/-- what is accepted is the read or the write that was asked for: a read if none of its entry waits, and a write if its
value fits -/
theorem accepted_cases {t : Transfer} (h : e.accepted d o = some t) :
    ∃ asked id x, e.resolve d asked = .ok (id, x) ∧
      (o.event = .upload asked ∧ e.readWaits id = false ∧ t = ⟨id, .read⟩ ∨
        ∃ v, o.event = .download asked v ∧ v.fits id.type = true ∧ t = .ofWrite id v) := by
  unfold accepted at h
  split at h
  · rename_i asked hevent
    split at h
    · rename_i id x _ hresolve
      split at h <;> rename_i hwaits <;> cases h
      exact ⟨asked, id, x, hresolve, .inl ⟨hevent, by simpa using hwaits, rfl⟩⟩
    · cases h
  · rename_i asked v hevent
    split at h
    · rename_i id x hdownload hresolve
      cases h
      obtain ⟨id', x', hresolve', -, hfits, -⟩ := download_cases hdownload
      obtain ⟨rfl, rfl⟩ := Prod.mk.inj (Except.ok.inj (hresolve.symm.trans hresolve'))
      exact ⟨asked, id, x, hresolve, .inr ⟨v, hevent, hfits, rfl⟩⟩
    · cases h
  · cases h

/-- an accepted call queues what `accepted` says; nothing else about it depends on the event -/
theorem step_call (e : Engine) (d : Dictionary) (o : Occasion)
    (hcall : (∃ id, o.event = .upload id) ∨ ∃ id v, o.event = .download id v) :
    (∃ t, e.accepted d o = some t ∧ e.step d o = ⟨(e.enqueue o.clock t).1, d, (e.enqueue o.clock t).2⟩) ∨
      (e.accepted d o = none ∧ (e.step d o).engine = e ∧ (e.step d o).dictionary = d ∧
        offers (e.step d o).effects = [] ∧ notices (e.step d o).effects = []) := by
  obtain ⟨clock, ready, event⟩ := o
  rcases hcall with ⟨id, rfl⟩ | ⟨id, v, rfl⟩
  · simp only [accepted, step, upload]
    cases hr : e.resolve d id with
    | error cause => exact .inr ⟨rfl, rfl, rfl, rfl, rfl⟩
    | ok found =>
      obtain ⟨id', entry⟩ := found
      by_cases hw : e.readWaits id' = true
      · exact .inr (by simp [hw, called])
      · exact .inl ⟨⟨id', .read⟩, by simp [hw], by simp [hw, called]⟩
  · simp only [accepted, step, download]
    cases hr : e.resolve d id with
    | error cause => exact .inr ⟨rfl, rfl, rfl, rfl, rfl⟩
    | ok found =>
      obtain ⟨id', entry⟩ := found
      by_cases hl : entry.withinLimits v = true
      · by_cases hf : v.fits id'.type = true
        · refine .inl ⟨.ofWrite id' v, by simp [hl, hf, Value.encode], ?_⟩
          simp [hl, hf, Value.encode, called, Transfer.ofWrite]
        · exact .inr (by simp [hl, hf, Value.encode, called])
      · exact .inr (by simp [hl, called])

/-! ## Events -/

/-- what an event means for the transfer in progress, if anything -/
def stimulus? (e : Engine) (o : Occasion) : Option Stimulus :=
  match o.event with
  | .upload _ | .download _ _ => none
  | .frame frame => if frame.id = e.responseId then some (.frame frame.data) else none
  | .timeout => some .lapse
  | .tick => some (.tick o.ready)
  | .poll now =>
    if due e.timeoutAt now then some .lapse else if due e.pacingAt now then some (.tick o.ready) else none

/-- the outcome `r` of an event carries out a turn of the transfer `a`: it goes on and nothing is committed, or its end
is committed and the next transfer is started -/
def Carries (e : Engine) (clock : Time) (d : Dictionary) (a : Active) (turn : Turn) (r : Outcome) : Prop :=
  match turn.fate with
  | .goesOn next =>
    r.engine.active = some next ∧ r.engine.queue = e.queue ∧ r.engine.config = e.config ∧ r.engine.node = e.node ∧
      r.dictionary = d ∧ offers r.effects = turn.requests ∧ notices r.effects = []
  | .ends ending =>
    r.engine = (e.released.startNext clock).1 ∧ r.dictionary = (ending.commit clock d a).1 ∧
      offers r.effects = turn.requests ++ offers (e.released.startNext clock).2 ∧
      notices r.effects = (ending.commit clock d a).2.toList

/-- reports before the effects do not matter -/
theorem Carries.reported {turn : Turn} {r : Outcome} (h : e.Carries clock d a turn r) (reports : List Report) :
    e.Carries clock d a turn { r with effects := reports.map .log ++ r.effects } := by
  unfold Carries at h ⊢
  split at h <;> simpa using h

theorem offers_commitEffect (id : ObjectId) (failed : Bool) (n : Option Notice) (rest : List Effect) :
    offers (commitEffect id failed n :: rest) = offers rest := by
  cases n <;> rfl

theorem notices_commitEffect (id : ObjectId) (failed : Bool) (n : Option Notice) (rest : List Effect) :
    notices (commitEffect id failed n :: rest) = n.toList ++ notices rest := by
  cases n <;> rfl

theorem settle_carries (e : Engine) (clock : Time) (d : Dictionary) (a : Active) (reaction : Reaction) :
    e.Carries clock d a (reaction.turn a) (e.settle clock d a reaction) := by
  have hnext : notices (e.released.startNext clock).2 = [] := (startNext_spec _ _).2.1
  cases reaction with
  | wait next => exact ⟨rfl, rfl, rfl, rfl, rfl, rfl, rfl⟩
  | ask next request => exact ⟨rfl, rfl, rfl, rfl, rfl, rfl, rfl⟩
  | pace next => exact ⟨rfl, rfl, rfl, rfl, rfl, rfl, rfl⟩
  | finish value closing =>
    refine ⟨rfl, rfl, ?_, ?_⟩
    · cases closing <;> simp [settle, conclude, Reaction.turn, offers_commitEffect]
    · cases closing <;> simp [settle, conclude, notices_commitEffect, hnext, Ending.commit]
  | abort code =>
    refine ⟨rfl, rfl, ?_, ?_⟩
    · simp [settle, conclude, Reaction.turn, offers_commitEffect]
    · simp [settle, conclude, notices_commitEffect, hnext, Ending.commit]
  | abandon code =>
    refine ⟨rfl, rfl, ?_, ?_⟩
    · simp [settle, conclude, Reaction.turn, offers_commitEffect]
    · simp [settle, conclude, notices_commitEffect, hnext, Ending.commit]

theorem receive_carries (ha : e.active = some a) {frame : CanFrame} (hid : frame.id = e.responseId) :
    e.Carries clock d a (a.respond e.config (.frame frame.data)) (e.receive clock d frame) := by
  have hs := settle_carries e clock d a (a.reactTo e.config frame.data)
  by_cases hl : frame.data.length = Wire.size
  · have hr := (hs.reported (judge e.config a frame.data).reports).reported [.frameReceived e.node frame]
    simpa [receive, hid, ha, hl, Active.reactTo, Active.respond] using hr
  · have hr := hs.reported [.frameReceived e.node frame, .wrongLength e.node frame.data.length a.target]
    simpa [receive, hid, ha, hl, Active.reactTo, Active.respond, Judgement.fault] using hr

theorem expire_carries (ha : e.active = some a) :
    e.Carries clock d a (a.respond e.config .lapse) (e.expire clock d) := by
  have hr := (settle_carries e clock d a (.abort .timeout)).reported [.timedOut a.target a.direction]
  simpa [expire, ha, Active.respond] using hr

theorem tick_carries (ha : e.active = some a) (ready : Bool) :
    e.Carries clock d a (a.respond e.config (.tick ready))
      ⟨(e.tick clock ready).1, d, (e.tick clock ready).2⟩ := by
  cases a with
  | reading r => simp [tick, ha, Active.respond, Active.paced, Carries]
  | writing w =>
    simp only [tick, ha, Active.respond, Active.paced]
    cases hs : w.sending? with
    | none => simp [Carries]
    | some block =>
      cases ready with
      | false => simp [Carries, armPacing]
      | true =>
        simp only [if_true]
        split <;> exact ⟨rfl, rfl, rfl, rfl, rfl, rfl, rfl⟩

/-- after a timeout no pacing timer is set, so a poll that fires the timeout does nothing else -/
theorem pacingAt_expire (ha : e.active = some a) : (e.expire clock d).engine.pacingAt = none := by
  simp only [expire, ha, settle, conclude]
  unfold startNext
  split <;> rfl

/-- a poll that finds the timeout due aborts the transfer in progress, and that is all -/
theorem poll_lapsed (ha : e.active = some a) {now : Time} (ht : due e.timeoutAt now = true) (ready : Bool) :
    e.poll clock ready d now = e.expire clock d := by
  have hp : due (e.expire clock d).engine.pacingAt now = false := by
    rw [pacingAt_expire ha]
    rfl
  simp only [poll, ht, if_true, hp, Bool.false_eq_true, if_false]

/-- a poll that finds only the pacing timer due is a tick -/
theorem poll_paced {now : Time} (ht : due e.timeoutAt now = false) (hp : due e.pacingAt now = true) (ready : Bool) :
    e.poll clock ready d now = ⟨(e.tick clock ready).1, d, (e.tick clock ready).2⟩ := by
  simp [poll, ht, hp]

/-- **Events that concern the transfer in progress.** Such an event does what the turn of the transfer says. -/
theorem step_active {s : Stimulus} (ha : e.active = some a) (hs : e.stimulus? o = some s) :
    e.Carries o.clock d a (a.respond e.config s) (e.step d o) := by
  obtain ⟨clock, ready, event⟩ := o
  cases event with
  | upload id => cases hs
  | download id v => cases hs
  | frame frame =>
    simp only [stimulus?] at hs
    split at hs
    · rename_i hid
      cases hs
      exact receive_carries ha hid
    · cases hs
  | timeout =>
    cases hs
    exact expire_carries ha
  | tick =>
    cases hs
    exact tick_carries ha ready
  | poll now =>
    simp only [stimulus?] at hs
    split at hs
    · rename_i ht
      cases hs
      simpa only [step, poll_lapsed ha ht] using expire_carries ha
    · rename_i ht
      split at hs
      · rename_i hp
        cases hs
        simpa only [step, poll_paced (by simpa using ht) hp] using tick_carries ha ready
      · cases hs

/-- **Events that do not concern the transfer in progress.** Such an event at most puts a transfer into the queue. -/
theorem step_unmoved (ha : e.active = some a) (hs : e.stimulus? o = none) :
    (e.step d o).engine = { e with queue := e.queue ++ (e.accepted d o).toList } ∧ (e.step d o).dictionary = d ∧
      offers (e.step d o).effects = [] ∧ notices (e.step d o).effects = [] := by
  have hcall : (∃ id, o.event = .upload id) ∨ (∃ id v, o.event = .download id v) →
      (e.step d o).engine = { e with queue := e.queue ++ (e.accepted d o).toList } ∧ (e.step d o).dictionary = d ∧
        offers (e.step d o).effects = [] ∧ notices (e.step d o).effects = [] := by
    intro hc
    rcases step_call e d o hc with ⟨t, ht, hr⟩ | ⟨ht, he, hd, ho, hn⟩
    · rw [hr, ht, enqueue_active ha]
      exact ⟨rfl, rfl, rfl, rfl⟩
    · refine ⟨?_, hd, ho, hn⟩
      simp [he, ht]
  obtain ⟨clock, ready, event⟩ := o
  cases event with
  | upload id => exact hcall (.inl ⟨id, rfl⟩)
  | download id v => exact hcall (.inr ⟨id, v, rfl⟩)
  | frame frame =>
    simp only [stimulus?] at hs
    split at hs
    · cases hs
    · rename_i hid
      simp [step, receive_foreign e hid, accepted]
  | timeout => cases hs
  | tick => cases hs
  | poll now =>
    simp only [stimulus?] at hs
    split at hs
    · cases hs
    · rename_i ht
      split at hs
      · cases hs
      · rename_i hp
        have hpoll : e.poll clock ready d now = ⟨e, d, []⟩ := poll_before e (by simpa using ht) (by simpa using hp)
        simp [step, hpoll, accepted]

theorem tick_idle (ha : e.active = none) (clock : Time) (ready : Bool) :
    (e.tick clock ready).1.pending = e.pending ∧ notices (e.tick clock ready).2 = [] := by
  simp [tick, ha, pending]

theorem poll_idle (ha : e.active = none) (clock : Time) (ready : Bool) (d : Dictionary) (now : Time) :
    (e.poll clock ready d now).engine.pending = e.pending ∧ (e.poll clock ready d now).dictionary = d ∧
      notices (e.poll clock ready d now).effects = [] := by
  have hexpire : e.expire clock d = ⟨{ e with timeoutAt := none }, d, []⟩ := by
    simp [expire, ha]
  cases ht : due e.timeoutAt now <;> simp only [poll, ht, hexpire, Bool.false_eq_true, if_true, if_false]
  · split
    · obtain ⟨hp, hn⟩ := tick_idle ha clock ready
      exact ⟨hp, rfl, by simpa using hn⟩
    · exact ⟨rfl, rfl, rfl⟩
  · split
    · obtain ⟨hp, hn⟩ := tick_idle (e := { e with timeoutAt := none }) ha clock ready
      exact ⟨hp, rfl, by simpa using hn⟩
    · exact ⟨rfl, rfl, rfl⟩

/-- **Events without a transfer in progress.** Such an event at most puts a transfer into the queue and starts the first
one that waits. -/
theorem step_idle (ha : e.active = none) :
    (e.step d o).engine.pending = e.pending ++ (e.accepted d o).toList ∧ (e.step d o).dictionary = d ∧
      notices (e.step d o).effects = [] := by
  have hcall : (∃ id, o.event = .upload id) ∨ (∃ id v, o.event = .download id v) →
      (e.step d o).engine.pending = e.pending ++ (e.accepted d o).toList ∧ (e.step d o).dictionary = d ∧
        notices (e.step d o).effects = [] := by
    intro hc
    rcases step_call e d o hc with ⟨t, ht, hr⟩ | ⟨ht, he, hd, -, hn⟩
    · obtain ⟨hp, hn, -, -⟩ := enqueue_spec e o.clock t
      rw [hr, ht]
      exact ⟨hp, rfl, hn⟩
    · refine ⟨?_, hd, hn⟩
      simp [he, ht]
  obtain ⟨clock, ready, event⟩ := o
  cases event with
  | upload id => exact hcall (.inl ⟨id, rfl⟩)
  | download id v => exact hcall (.inr ⟨id, v, rfl⟩)
  | frame frame =>
    simp only [step, receive, ha]
    split <;> simp [accepted]
  | timeout => simp [step, expire, ha, accepted, pending]
  | tick =>
    obtain ⟨hp, hn⟩ := tick_idle ha clock ready
    exact ⟨by simpa [step, accepted] using hp, rfl, hn⟩
  | poll now =>
    obtain ⟨hp, hd, hn⟩ := poll_idle ha clock ready d now
    exact ⟨by simpa [step, accepted] using hp, hd, hn⟩

end Engine

end SdoClient
