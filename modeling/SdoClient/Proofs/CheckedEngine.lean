/-
The engine once more, with the operations of a machine in place of exact arithmetic: an event gives nothing if a sum, a
product or a difference on its way leaves its range, if a number loses digits, or if a slice or a copy leaves its
bounds. The identifiers of the frames and the deadlines are taken to be in range; everything else is checked.

Main statements:
- `step_keeps`: if the counters of an engine have room, an event gives what it gives without checks, and they have room
  again;
- `step_in_range`: so nothing that a new engine meets ever makes it leave a range.
-/
import Mathlib.Tactic
import SdoClient.Proofs.CheckedTransfers
import SdoClient.Proofs.Service

namespace SdoClient

/-! ## Ranges -/

section platform

variable [Platform]

/-- an engine whose counters have room -/
structure Engine.InRange (e : Engine) : Prop where
  active : ∀ a ∈ e.active, a.InRange
  queue : ∀ t ∈ e.queue, t.InRange

/-- the octets of a string fit into memory -/
def Value.InMemory (v : Value) : Prop := ∀ data ∈ v.octets?, Platform.Holds data

/-- the value that a call is given, if it is given one, fits into memory -/
def Engine.Occasion.InMemory (o : Engine.Occasion) : Prop :=
  match o.event with
  | .download _ v => v.InMemory
  | _ => True

def Move.InMemory : Move → Prop
  | .event o => o.InMemory
  | .exchange _ => True

end platform

namespace Checked

open Machine

/-! ## The engine -/

section engine

/-- puts a transfer in progress and gives its initiate request; a short payload is copied into the request -/
def beginTransfer (config : Config) (t : Transfer) : Option (Active × Request) :=
  match t.job with
  | .read => some (t.begin config)
  | .write value payload size =>
    if t.target.usesBlocks = false ∧ 1 ≤ size ∧ size ≤ Wire.expeditedMax then do
      let field ← fill 4 size payload
      let len ← octet size
      let writing : Writing :=
        { target := t.target, value, payload, size, offset := size, phase := .opening true }
      some (.writing writing, .initiateDownloadExpedited t.target.mux field len)
    else some (t.begin config)

/-- starts the first waiting transfer if none is in progress -/
def startNext (e : Engine) (clock : Time) : Option (Engine × List Effect) :=
  match e.active, e.queue with
  | none, t :: rest => do
    let opened ← beginTransfer e.config t
    some (({ e with queue := rest, active := some opened.1 } : Engine).armTimeout clock,
      [.log (.starting t.target t.direction rest.length), .offer opened.2])
  | _, _ => some (e, [])

/-- puts a transfer at the end of the queue -/
def enqueue (e : Engine) (clock : Time) (t : Transfer) : Option (Engine × List Effect) :=
  startNext { e with queue := e.queue ++ [t] } clock

/-- asks for a read -/
def upload (e : Engine) (clock : Time) (d : Dictionary) (id : ObjectId) :
    Option (Except Error (Engine × List Effect)) :=
  match e.resolve d id with
  | .error cause => some (.error cause)
  | .ok (id, _) =>
    if e.readWaits id then some (.ok (e, [.log (.alreadyQueued id)]))
    else (enqueue e clock ⟨id, .read⟩).map .ok

/-- asks for a write -/
def download (e : Engine) (clock : Time) (d : Dictionary) (id : ObjectId) (v : Value) :
    Option (Except Error (Engine × List Effect)) :=
  match e.resolve d id with
  | .error cause => some (.error cause)
  | .ok (id, entry) =>
    if entry.withinLimits v then do
      match ← encode v id.type with
      | .error cause => some (.error cause)
      | .ok payload =>
        let stored ← decode payload id.type
        (enqueue e clock ⟨id, .write (stored.getD v) payload⟩).map .ok
    else some (.error (.outOfLimits id.mux))

/-- ends the transfer in progress with a committed dictionary and starts the next one -/
def conclude (e : Engine) (clock : Time) (committed : Dictionary × Option Notice) (id : ObjectId) (failed : Bool)
    (before : List Effect) : Option Outcome :=
  (startNext e.released clock).map fun next =>
    ⟨next.1, committed.1, before ++ Engine.commitEffect id failed committed.2 :: next.2⟩

/-- carries out what an event makes of the transfer in progress -/
def settle (e : Engine) (clock : Time) (d : Dictionary) (a : Active) : Reaction → Option Outcome
  | .finish value closing =>
    conclude e clock (d.commitValue a.target value a.direction clock) a.target false
      ((closing.map Effect.offer).toList ++ [.log (.complete a.target a.direction)])
  | .abort code =>
    conclude e clock (d.commitError a.target code a.direction) a.target true
      [.log (.aborted a.target a.direction code), .offer (.abort a.target.mux code)]
  | .abandon code =>
    conclude e clock (d.commitError a.target code a.direction) a.target true
      [.log (.abortedByServer a.target a.direction code)]
  | reaction => some (e.settle clock d a reaction)

/-- aborts the transfer in progress because the server did not answer in time -/
def expire (e : Engine) (clock : Time) (d : Dictionary) : Option Outcome :=
  match e.active with
  | none => some ⟨{ e with timeoutAt := none }, d, []⟩
  | some a =>
    (settle e clock d a (.abort .timeout)).map fun o =>
      { o with effects := .log (.timedOut a.target a.direction) :: o.effects }

variable [Platform]

/-- what eight octets make of the transfer in progress -/
def judge (config : Config) (a : Active) (data : List UInt8) : Option Judgement :=
  let answered : Option Judgement := do
    match ← parse data with
    | .error fault => some (.fault (.malformed a.target fault) .commandNotValid)
    | .ok (.abort _ code) => some (.plain (.abandon code))
    | .ok response =>
      match a with
      | .reading r => answerRead r config response
      | .writing w => answerWrite w config response
  match a with
  | .reading r =>
    match r.phase with
    | .block intake =>
      if isAbortFrame data then answered
      else
        match Segment.parse data with
        | .ok s => segment r config intake s
        | .error _ => some (.plain (.abort .generalError))
    | _ => answered
  | .writing _ => answered

/-- takes in a frame from the bus -/
def receive (e : Engine) (clock : Time) (d : Dictionary) (frame : CanFrame) : Option Outcome :=
  if frame.id ≠ e.responseId then some ⟨e, d, [.log (.foreignFrame e.node frame.id)]⟩
  else
    match e.active with
    | none => some ⟨e, d, [.log (.idleFrame e.node frame.data)]⟩
    | some a => do
      let judgement ←
        (if frame.data.length ≠ Wire.size then
          some (.fault (.wrongLength e.node frame.data.length a.target) .generalError)
        else judge e.config a frame.data)
      let o ← settle e clock d a judgement.reaction
      some { o with effects := .log (.frameReceived e.node frame) :: judgement.reports.map .log ++ o.effects }

/-- sends the next segment of a block download -/
def tickEngine (e : Engine) (clock : Time) (ready : Bool) : Option (Engine × List Effect) :=
  let e := { e with pacingAt := none }
  match e.active with
  | some (.writing w) =>
    match w.sending? with
    | none => some (e, [])
    | some block =>
      if ready then do
        let sent ← tick w block
        let e := ({ e with active := some (.writing sent.1) } : Engine).armTimeout clock
        some (if sent.1.sending?.isSome then e.armPacing clock else e, [.offer sent.2])
      else some (e.armPacing clock, [.log (.holdingSegment e.node)])
  | _ => some (e, [])

/-- fires the timers that are due, the timeout first -/
def poll (e : Engine) (clock : Time) (ready : Bool) (d : Dictionary) (now : Time) : Option Outcome := do
  let first ← (if Engine.due e.timeoutAt now then expire e clock d else some ⟨e, d, []⟩)
  if Engine.due first.engine.pacingAt now then
    let second ← tickEngine first.engine clock ready
    some ⟨second.1, first.dictionary, first.effects ++ second.2⟩
  else some first

/-- one event -/
def step (e : Engine) (d : Dictionary) (o : Engine.Occasion) : Option Outcome :=
  match o.event with
  | .upload id => (upload e o.clock d id).map (e.called d)
  | .download id v => (download e o.clock d id v).map (e.called d)
  | .frame frame => receive e o.clock d frame
  | .timeout => expire e o.clock d
  | .tick => (tickEngine e o.clock o.ready).map fun t => ⟨t.1, d, t.2⟩
  | .poll now => poll e o.clock o.ready d now

end engine

/-! ## Starting a transfer -/

section start

variable {e : Engine} {t : Transfer}

/-- a request that carries its payload has room for it, and the whole payload is copied -/
theorem beginTransfer_eq (config : Config) (h : t.Sized) : beginTransfer config t = some (t.begin config) := by
  unfold beginTransfer Transfer.begin
  cases hjob : t.job with
  | read => rfl
  | write value payload size =>
    have hsize : size = payload.length := by simpa [Transfer.Sized, hjob] using h
    dsimp only
    split
    · rename_i hshort
      obtain ⟨hblocks, hpos, hmost⟩ := hshort
      have hfield : fill 4 size payload = some (Wire.padded 4 payload) := fill_eq hmost hsize.symm
      have hlen : octet size = some (UInt8.ofNat size) := octet_eq (lt_of_le_of_lt hmost (by decide))
      simp only [hfield, hlen, Option.bind_eq_bind, Option.bind_some, hblocks, Bool.false_eq_true, if_false,
        if_pos (And.intro hpos hmost)]
    · rfl

theorem startNext_eq (h : ∀ t ∈ e.queue, t.Sized) (clock : Time) : startNext e clock = some (e.startNext clock) := by
  unfold startNext Engine.startNext
  cases e.active with
  | some a => rfl
  | none =>
    cases hq : e.queue with
    | nil => rfl
    | cons t rest =>
      have ht : t.Sized := h t (hq ▸ List.mem_cons_self)
      simp only [beginTransfer_eq e.config ht, Option.bind_eq_bind, Option.bind_some]

theorem enqueue_eq (h : ∀ t ∈ e.queue, t.Sized) (ht : t.Sized) (clock : Time) :
    enqueue e clock t = some (e.enqueue clock t) := by
  refine startNext_eq (fun waiting hw => ?_) clock
  rcases List.mem_append.1 hw with hw | hw
  · exact h waiting hw
  · rw [List.mem_singleton.1 hw]
    exact ht

theorem upload_eq (h : ∀ t ∈ e.queue, t.Sized) (clock : Time) (d : Dictionary) (id : ObjectId) :
    upload e clock d id = some (e.upload clock d id) := by
  unfold upload Engine.upload
  cases e.resolve d id with
  | error cause => rfl
  | ok found =>
    dsimp only
    split
    · rfl
    · rw [enqueue_eq h (Transfer.sized_read found.1)]
      rfl

theorem download_eq (h : ∀ t ∈ e.queue, t.Sized) (clock : Time) (d : Dictionary) (id : ObjectId) (v : Value) :
    download e clock d id v = some (e.download clock d id v) := by
  unfold download Engine.download
  cases e.resolve d id with
  | error cause => rfl
  | ok found =>
    dsimp only
    split
    · simp only [encode_eq, Option.bind_eq_bind, Option.bind_some]
      cases v.encode found.1.type with
      | error cause => rfl
      | ok payload => simp only [decode_eq, Option.bind_some, enqueue_eq h (Transfer.sized_write _ _ _), Option.map_some]
    · rfl

variable [Platform] {clock : Time}

/-- a waiting transfer keeps the size of its payload -/
theorem inRange_sized (h : e.InRange) : ∀ t ∈ e.queue, t.Sized := fun t ht => (h.queue t ht).sized

/-- a transfer begins in range -/
theorem inRange_begin (config : Config) (h : t.InRange) : (t.begin config).1.InRange := by
  obtain ⟨id, job⟩ := t
  cases job with
  | read =>
    simp only [Transfer.begin]
    split <;> exact ⟨Nat.two_pow_pos 32, fun i hi => by cases hi⟩
  | write value payload size =>
    obtain ⟨hmemory, hsized⟩ : Platform.Holds payload ∧ size = payload.length := h
    simp only [Transfer.begin]
    split
    · exact ⟨hmemory, hsized, Nat.zero_le _, fun o ho => by cases ho⟩
    · split
      · exact ⟨hmemory, hsized, hsized.le, fun o ho => by cases ho⟩
      · exact ⟨hmemory, hsized, Nat.zero_le _, fun o ho => by cases ho⟩

theorem inRange_startNext (clock : Time) (h : e.InRange) : (e.startNext clock).1.InRange := by
  unfold Engine.startNext
  split
  · rename_i t rest ha hq
    have ht : t.InRange := h.queue t (hq ▸ List.mem_cons_self)
    refine ⟨fun a ha => ?_, fun t ht => h.queue t (hq ▸ List.mem_cons_of_mem _ ht)⟩
    cases ha
    exact inRange_begin e.config ht
  · exact h

theorem inRange_enqueue (clock : Time) (h : e.InRange) (ht : t.InRange) : (e.enqueue clock t).1.InRange := by
  refine inRange_startNext clock ⟨h.active, fun waiting hw => ?_⟩
  rcases List.mem_append.1 hw with hw | hw
  · exact h.queue waiting hw
  · rw [List.mem_singleton.1 hw]
    exact ht

end start

/-! ## Events -/

section events

variable [Platform] {e : Engine} {clock : Time} {d : Dictionary}

/-- a checked event gives this outcome, and leaves an engine in range -/
structure Keeps (checked : Option Outcome) (r : Outcome) : Prop where
  result : checked = some r
  kept : r.engine.InRange

/-- the octets of a value that memory can hold are octets that memory can hold -/
theorem holds_payload {v : Value} (h : v.InMemory) (t : DataType) : Platform.Holds (v.payload t) := by
  have hword : 2 ^ 32 ≤ Platform.word := Platform.large
  have hshort (data : List UInt8) (hdata : data.length ≤ 16) : Platform.Holds data := by
    simp only [Platform.Holds]
    omega
  cases hoctets : v.octets? with
  | some data =>
    rw [Value.payload_of_octets hoctets]
    exact h data hoctets
  | none =>
    refine hshort _ ?_
    cases v with
    | text s | octets data => cases hoctets
    | bool b => exact Nat.le_add_left 1 15
    | f32 bits | f64 bits => simp [Value.payload]
    | _ => simpa [Value.payload] using byteLength_le t

/-- what a call queues fits into memory -/
theorem inRange_accepted {o : Engine.Occasion} {t : Transfer} (ho : o.InMemory) (h : e.accepted d o = some t) :
    t.InRange := by
  obtain ⟨clock, ready, event⟩ := o
  cases event with
  | upload id =>
    simp only [Engine.accepted] at h
    split at h
    · split at h <;> cases h
      trivial
    · cases h
  | download id v =>
    simp only [Engine.accepted] at h
    split at h
    · cases h
      exact ⟨holds_payload ho _, rfl⟩
    · cases h
  | _ => cases h

/-- a call leaves an engine in range, whether it is refused or not -/
theorem inRange_call (h : e.InRange) {o : Engine.Occasion} (ho : o.InMemory)
    (hcall : (∃ id, o.event = .upload id) ∨ ∃ id v, o.event = .download id v) : (e.step d o).engine.InRange := by
  rcases Engine.step_call e d o hcall with ⟨t, ht, hstep⟩ | ⟨-, hsame, -⟩
  · rw [hstep]
    exact inRange_enqueue o.clock h (inRange_accepted ho ht)
  · rw [hsame]
    exact h

theorem conclude_keeps (h : e.InRange) (clock : Time) (committed : Dictionary × Option Notice) (id : ObjectId)
    (failed : Bool) (before : List Effect) :
    Keeps (conclude e clock committed id failed before) (e.conclude clock committed id failed before) := by
  have hreleased : e.released.InRange := ⟨fun a ha => absurd ha (by simp), h.queue⟩
  refine ⟨?_, inRange_startNext clock hreleased⟩
  rw [conclude, startNext_eq (inRange_sized hreleased)]
  rfl

theorem settle_keeps (h : e.InRange) (clock : Time) (d : Dictionary) (a : Active) {reaction : Reaction}
    (hr : reaction.InRange) : Keeps (settle e clock d a reaction) (e.settle clock d a reaction) := by
  cases reaction with
  | wait next | ask next request | pace next =>
    refine ⟨rfl, fun a ha => ?_, h.queue⟩
    cases ha
    exact hr
  | finish value closing => exact conclude_keeps h _ _ _ _ _
  | abort code | abandon code => exact conclude_keeps h _ _ _ _ _

theorem expire_keeps (h : e.InRange) (clock : Time) (d : Dictionary) :
    Keeps (expire e clock d) (e.expire clock d) := by
  cases ha : e.active with
  | none =>
    simp only [expire, Engine.expire, ha]
    exact ⟨rfl, fun a ha => (by cases ha), h.queue⟩
  | some a =>
    have hsettled : Keeps (settle e clock d a (.abort .timeout)) (e.settle clock d a (.abort .timeout)) :=
      settle_keeps h clock d a trivial
    simp only [expire, Engine.expire, ha, hsettled.result, Option.map_some]
    exact ⟨rfl, hsettled.kept⟩

/-- whatever octets come in, the rules of the transfer in progress leave it in range -/
theorem judge_gives (config : Config) {a : Active} (ha : a.InRange) (data : List UInt8) :
    Gives (judge config a data) (Engine.judge config a data) := by
  unfold judge Engine.judge
  extract_lets checked plain
  have hanswered : Gives checked plain := by
    unfold checked plain
    simp only [parse_eq, Option.bind_eq_bind, Option.bind_some]
    cases hparsed : Response.parse data with
    | error fault => exact gives_fault _ _
    | ok response =>
      have hresponse := Response.inRange_of_parse hparsed
      cases response with
      | abort mux code => exact ⟨rfl, trivial⟩
      | _ =>
        cases a with
        | reading r => exact answerRead_gives ha config hresponse
        | writing w => exact answerWrite_gives ha config _
  cases a with
  | writing w => exact hanswered
  | reading r =>
    have hseqno := ha.seqno
    dsimp only
    cases hphase : r.phase with
    | block i =>
      dsimp only
      split
      · exact hanswered
      · cases hparsed : Segment.parse data with
        | ok s => exact segment_gives ha config (hseqno i hphase) (Nat.le_of_lt_succ (Segment.seqno_of_parse hparsed))
        | error fault => exact ⟨rfl, trivial⟩
    | _ => exact hanswered

/-- whatever comes in, the engine takes it in -/
theorem receive_keeps (h : e.InRange) (clock : Time) (d : Dictionary) (frame : CanFrame) :
    Keeps (receive e clock d frame) (e.receive clock d frame) := by
  unfold receive Engine.receive
  split
  · exact ⟨rfl, h⟩
  · cases ha : e.active with
    | none => exact ⟨rfl, h⟩
    | some a =>
      have hgives : Gives
          (if frame.data.length ≠ Wire.size then
            some (.fault (.wrongLength e.node frame.data.length a.target) .generalError)
          else judge e.config a frame.data)
          (if frame.data.length ≠ Wire.size then .fault (.wrongLength e.node frame.data.length a.target) .generalError
          else Engine.judge e.config a frame.data) := by
        split
        · exact gives_fault _ _
        · exact judge_gives e.config (h.active a ha) frame.data
      have hsettled := settle_keeps h clock d a hgives.kept
      simp only [hgives.result, hsettled.result, Option.bind_eq_bind, Option.bind_some]
      exact ⟨rfl, hsettled.kept⟩

/-- a tick leaves the engine in range, whether the bus is ready or not -/
theorem tickEngine_eq (h : e.InRange) (clock : Time) (ready : Bool) :
    tickEngine e clock ready = some (e.tick clock ready) ∧ (e.tick clock ready).1.InRange := by
  unfold tickEngine Engine.tick
  dsimp only
  cases ha : e.active with
  | none => exact ⟨rfl, fun a ha => (by cases ha), h.queue⟩
  | some a =>
    have hidle : ({ e with pacingAt := none } : Engine).InRange := ⟨h.active, h.queue⟩
    rw [ha] at hidle
    cases a with
    | reading r => exact ⟨rfl, hidle⟩
    | writing w =>
      dsimp only
      cases hs : w.sending? with
      | none => exact ⟨rfl, hidle⟩
      | some o =>
        cases ready with
        | false => exact ⟨rfl, hidle.active, hidle.queue⟩
        | true =>
          obtain ⟨hsent, hkept⟩ := tick_eq (h.active _ ha) hs
          have hnext : ({ e with active := some (.writing (w.tick o).1) } : Engine).InRange := by
            refine ⟨fun a ha => ?_, h.queue⟩
            cases ha
            exact hkept
          refine ⟨by simp only [if_true, hsent, Option.bind_eq_bind, Option.bind_some], ?_⟩
          simp only [if_true]
          split <;> exact ⟨hnext.active, hnext.queue⟩

theorem poll_keeps (h : e.InRange) (clock : Time) (ready : Bool) (d : Dictionary) (now : Time) :
    Keeps (poll e clock ready d now) (e.poll clock ready d now) := by
  unfold poll Engine.poll
  extract_lets first
  have hfirst : Keeps (if Engine.due e.timeoutAt now then expire e clock d else some ⟨e, d, []⟩) first := by
    unfold first
    split
    · exact expire_keeps h clock d
    · exact ⟨rfl, h⟩
  obtain ⟨hsent, hkept⟩ := tickEngine_eq hfirst.kept clock ready
  simp only [hfirst.result, Option.bind_eq_bind, Option.bind_some]
  split
  · simp only [hsent, Option.bind_some]
    exact ⟨rfl, hkept⟩
  · exact ⟨rfl, hfirst.kept⟩

/-- **No event makes an engine leave a range.** If its counters have room, an event gives what it gives without checks,
and leaves them room. -/
theorem step_keeps (h : e.InRange) (d : Dictionary) {o : Engine.Occasion} (ho : o.InMemory) :
    Keeps (step e d o) (e.step d o) := by
  obtain ⟨clock, ready, event⟩ := o
  cases event with
  | upload id =>
    refine ⟨?_, inRange_call h ho (.inl ⟨id, rfl⟩)⟩
    simp only [step, upload_eq (inRange_sized h), Option.map_some, Engine.step]
  | download id v =>
    refine ⟨?_, inRange_call h ho (.inr ⟨id, v, rfl⟩)⟩
    simp only [step, download_eq (inRange_sized h), Option.map_some, Engine.step]
  | frame frame => exact receive_keeps h clock d frame
  | timeout => exact expire_keeps h clock d
  | tick =>
    obtain ⟨hsent, hkept⟩ := tickEngine_eq h clock ready
    refine ⟨?_, hkept⟩
    simp only [step, hsent, Option.map_some, Engine.step]
  | poll now => exact poll_keeps h clock ready d now

end events

/-! ## Runs -/

section runs

variable [Platform]

theorem inRange_start (node : UInt8) (config : Config) (d : Dictionary) :
    (Service.start node config d).engine.InRange :=
  ⟨fun a ha => (by cases ha), fun t ht => (by cases ht)⟩

theorem inRange_run {s : Service} (h : s.engine.InRange) (ms : List Move) (hms : ∀ m ∈ ms, m.InMemory) :
    (s.run ms).engine.InRange := by
  induction ms using List.reverseRecOn with
  | nil => exact h
  | append_singleton ms m ih =>
    have hrun := ih fun m hm => hms m (List.mem_append_left _ hm)
    have hlast := hms m (by simp)
    rw [Service.run_snoc]
    cases m with
    | event o => exact (step_keeps hrun _ hlast).kept
    | exchange d => exact hrun

/-- **No input makes an engine leave a range.** Whatever the configuration and the dictionaries are, and whatever calls,
frames, timeouts, ticks and polls a new engine has met: the next event, redone with checks at every sum, product,
difference, narrowing, slice and copy, fails none of them and gives the same outcome. The values that calls are given
fit into memory. -/
theorem step_in_range (node : UInt8) (config : Config) (d : Dictionary) (ms : List Move) (o : Engine.Occasion)
    (hms : ∀ m ∈ ms, m.InMemory) (ho : o.InMemory) :
    let s := (Service.start node config d).run ms
    step s.engine s.dictionary o = some (s.engine.step s.dictionary o) :=
  (step_keeps (inRange_run (inRange_start node config d) ms hms) _ ho).result

end runs

/-- addresses of 64 bits -/
@[reducible]
def wide : Platform where
  word := 2 ^ 64
  large := by decide

/-- a write in blocks of two segments -/
def blockMoves : List Move :=
  [.event ⟨0, true, .download Service.fileId (.octets [1, 2, 3, 4, 5, 6, 7, 8, 9, 10, 11, 12, 13, 14, 15, 16])⟩,
    .event ⟨1, true, .frame ⟨0x585, [0xa4, 0x01, 0x20, 0, 2, 0, 0, 0]⟩⟩, .event ⟨2, true, .tick⟩,
    .event ⟨3, true, .tick⟩]

/-- the acknowledgement of the first segment of two, which grants a block of 127 -/
def partialAck : Engine.Occasion := ⟨4, true, .frame ⟨0x585, [0xa2, 1, 127, 0, 0, 0, 0, 0]⟩⟩

theorem step_in_range_resending :
    letI := wide
    let s := (Service.start 5 { blockSize := 255 } Service.twoEntries).run blockMoves
    (∀ m ∈ blockMoves, m.InMemory) ∧ partialAck.InMemory ∧
      step s.engine s.dictionary partialAck = some (s.engine.step s.dictionary partialAck) ∧
      ((s.engine.step s.dictionary partialAck).engine.active.map Active.remaining) = some 9 := by
  let platform := wide
  have hroom : 32 < wide.word := by decide
  have hms : ∀ m ∈ blockMoves, m.InMemory := by
    simpa [blockMoves, Move.InMemory, Engine.Occasion.InMemory, Value.InMemory, Value.octets?, Platform.Holds]
      using hroom
  exact ⟨hms, trivial, step_in_range 5 { blockSize := 255 } Service.twoEntries blockMoves partialAck hms trivial,
    by decide +kernel⟩

end Checked

end SdoClient
