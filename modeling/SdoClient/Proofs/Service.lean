/-
The service of one engine over its whole life: which transfers it accepted, which of them it finished, and what it
published. Between any two events the dictionary may be exchanged for another one, as long as it keeps the entries of
the transfers that are waiting or in progress.

Main statements:
- `served_in_order`: at every moment the transfers accepted are the finished ones, then the one in progress, then the
  queue from front to back, and each finished transfer was published once, with its own outcome;
- `run_feed`: what was published is what the subscribers of the dictionary were sent;
- `step_passes`: the four things that an event can be to an engine.
-/
import Mathlib.Tactic
import SdoClient.Proofs.Turn

namespace SdoClient

/-- a transfer that has ended -/
structure Finished where
  transfer : Transfer
  failed : Bool
  deriving DecidableEq

/-- the notice that is due for a finished transfer: its own id, its direction, and whether it failed -/
def Finished.notice (f : Finished) : Notice := ⟨f.transfer.target, f.transfer.direction, f.failed⟩

/-- the transfer that an event ends, and whether it failed -/
def Engine.finished? (e : Engine) (o : Engine.Occasion) : Option Finished :=
  match e.active, e.stimulus? o with
  | some a, some s =>
    match (a.respond e.config s).fate with
    | .goesOn _ => none
    | .ends ending => some ⟨a.transfer, ending.failed⟩
  | _, _ => none

/-- an engine with its dictionary, and the history of its transfers, oldest first -/
structure Service where
  engine : Engine
  dictionary : Dictionary
  accepted : List Transfer := []
  finished : List Finished := []
  published : List Notice := []
  deriving DecidableEq

/-- what can happen to a service -/
inductive Move where
  /-- an event of the engine -/
  | event (o : Engine.Occasion)
  /-- someone else changes the dictionary -/
  | exchange (d : Dictionary)

namespace Service

/-- a new engine -/
def start (node : UInt8) (config : Config) (d : Dictionary) : Service :=
  { engine := { node, config }, dictionary := d }

def move (s : Service) : Move → Service
  | .event o =>
    let r := s.engine.step s.dictionary o
    { engine := r.engine
      dictionary := r.dictionary
      accepted := s.accepted ++ (s.engine.accepted s.dictionary o).toList
      finished := s.finished ++ (s.engine.finished? o).toList
      published := s.published ++ notices r.effects }
  | .exchange d => { s with dictionary := d }

def run (s : Service) (ms : List Move) : Service := ms.foldl move s

theorem run_snoc (s : Service) (ms : List Move) (m : Move) : s.run (ms ++ [m]) = (s.run ms).move m := by
  simp [run, List.foldl_append]

/-- what every event of the engine keeps holds in every state that a run reaches -/
theorem run_engine {P : Engine → Prop} (hstep : ∀ e d o, P e → P (e.step d o).engine) {s : Service}
    (h : P s.engine) (ms : List Move) : P (s.run ms).engine := by
  induction ms using List.reverseRecOn with
  | nil => exact h
  | append_singleton ms m ih =>
    rw [run_snoc]
    cases m with
    | event o => exact hstep _ _ o ih
    | exchange d => exact ih

/-- the dictionary has the entries of all transfers that are waiting or in progress -/
def Held (s : Service) : Prop := ∀ t ∈ s.engine.pending, (s.dictionary.find? t.target.mux).isSome

instance (s : Service) : Decidable s.Held := by
  unfold Held
  infer_instance

end Service

/-! ## What one event adds to the history -/

namespace Engine

variable {e : Engine} {d : Dictionary} {o : Occasion}

/-- only calls are accepted, so an event that concerns the transfer in progress queues nothing -/
theorem accepted_of_stimulus {s : Stimulus} (hs : e.stimulus? o = some s) : e.accepted d o = none := by
  obtain ⟨clock, ready, event⟩ := o
  cases event with
  | upload id => cases hs
  | download id v => cases hs
  | _ => rfl

/-- committing the end of a transfer publishes its notice, if the dictionary has its entry -/
theorem commit_notice (clock : Time) (d : Dictionary) (a : Active) (ending : Ending) (h : (d.find? a.target.mux).isSome) :
    (ending.commit clock d a).2 = some (Finished.notice ⟨a.transfer, ending.failed⟩) := by
  cases ending <;>
    simp [Ending.commit, Dictionary.commitValue, Dictionary.commitError, Dictionary.commit, h, Finished.notice,
      Ending.failed, Active.target_transfer, Active.direction_transfer]

/-- what an event can be to an engine, and what comes of it -/
inductive Passes (e : Engine) (d : Dictionary) (o : Occasion) : Prop where
  /-- nothing is in progress -/
  | idle (active : e.active = none) (finished : e.finished? o = none)
  /-- the event does not concern the transfer in progress -/
  | unmoved {a : Active} (active : e.active = some a) (stimulus : e.stimulus? o = none)
      (finished : e.finished? o = none)
  /-- the transfer in progress takes a turn and goes on -/
  | goesOn {a next : Active} {s : Stimulus} (active : e.active = some a) (stimulus : e.stimulus? o = some s)
      (fate : (a.respond e.config s).fate = .goesOn next) (finished : e.finished? o = none)
      (outcome : e.Carries o.clock d a ⟨(a.respond e.config s).requests, .goesOn next⟩ (e.step d o))
  /-- the transfer in progress takes its last turn -/
  | ends {a : Active} {s : Stimulus} {ending : Ending} (active : e.active = some a)
      (stimulus : e.stimulus? o = some s) (fate : (a.respond e.config s).fate = .ends ending)
      (finished : e.finished? o = some ⟨a.transfer, ending.failed⟩)
      (outcome : e.Carries o.clock d a ⟨(a.respond e.config s).requests, .ends ending⟩ (e.step d o))

theorem step_passes (e : Engine) (d : Dictionary) (o : Occasion) : e.Passes d o := by
  cases ha : e.active with
  | none => exact .idle ha (by simp [finished?, ha])
  | some a =>
    cases hs : e.stimulus? o with
    | none => exact .unmoved ha hs (by simp [finished?, ha, hs])
    | some s =>
      have hc := step_active (d := d) ha hs
      unfold Carries at hc
      split at hc
      · rename_i next hf
        exact .goesOn ha hs hf (by simp [finished?, ha, hs, hf]) hc
      · rename_i ending hf
        exact .ends ha hs hf (by simp [finished?, ha, hs, hf]) hc

/-- what is pending before an event and what the event accepts is what the event finishes and what is pending after -/
theorem step_pending (e : Engine) (d : Dictionary) (o : Occasion) :
    e.pending ++ (e.accepted d o).toList =
      (e.finished? o).toList.map Finished.transfer ++ (e.step d o).engine.pending := by
  cases e.step_passes d o with
  | idle ha hfin =>
    rw [hfin, (step_idle ha).1]
    rfl
  | unmoved ha hs hfin =>
    rw [hfin, (step_unmoved ha hs).1]
    simp [pending, ha]
  | goesOn ha hs hf hfin hc =>
    obtain ⟨hnext, hqueue, -⟩ := hc
    rw [hfin, accepted_of_stimulus hs]
    simp [pending, ha, hnext, hqueue, Active.transfer_respond hf]
  | ends ha hs _ hfin hc =>
    obtain ⟨hengine, -⟩ := hc
    rw [hfin, accepted_of_stimulus hs, hengine, (startNext_spec _ _).1]
    simp [pending, ha]

/-- a call puts a write into the queue with the size of its payload -/
theorem accepted_sized {t : Transfer} (h : e.accepted d o = some t) : t.Sized := by
  unfold accepted at h
  split at h
  · split at h
    · split at h <;> cases h
      exact Transfer.sized_read _
    · cases h
  · split at h
    · cases h
      exact Transfer.sized_write _ _ _
    · cases h
  · cases h

/-- the pending transfers keep the sizes of their payloads, whatever happens -/
theorem step_sized (h : ∀ t ∈ e.pending, t.Sized) : ∀ t ∈ (e.step d o).engine.pending, t.Sized := by
  intro t ht
  have hbefore : t ∈ e.pending ++ (e.accepted d o).toList := by
    rw [step_pending]
    exact List.mem_append_right _ ht
  rcases List.mem_append.1 hbefore with hpending | haccepted
  · exact h t hpending
  · exact accepted_sized (Option.mem_toList.1 haccepted)

/-- an event publishes the notice of the transfer that it ends, and nothing else -/
theorem step_notices (h : ∀ t ∈ e.pending, (d.find? t.target.mux).isSome) :
    notices (e.step d o).effects = (e.finished? o).toList.map Finished.notice := by
  cases e.step_passes d o with
  | idle ha hfin =>
    rw [hfin, (step_idle ha).2.2]
    rfl
  | unmoved ha hs hfin =>
    rw [hfin, (step_unmoved ha hs).2.2.2]
    rfl
  | goesOn _ _ _ hfin hc =>
    obtain ⟨-, -, -, -, -, -, hn⟩ := hc
    rw [hfin, hn]
    rfl
  | @ends a _ ending ha _ _ hfin hc =>
    obtain ⟨-, -, -, hn⟩ := hc
    have hheld : (d.find? a.target.mux).isSome := by
      have hmem : a.transfer ∈ e.pending := by simp [pending, ha]
      simpa [Active.target_transfer] using h _ hmem
    rw [hfin, hn, commit_notice o.clock d a ending hheld]
    rfl

theorem commit_feed (clock : Time) (d : Dictionary) (a : Active) (ending : Ending) :
    (ending.commit clock d a).1.feed = (ending.commit clock d a).2.toList.foldl Feed.publish d.feed := by
  cases ending <;> exact Dictionary.feed_commit d _ _

/-- the notices of an event are those that the subscribers are sent, in the same order -/
theorem step_feed : (e.step d o).dictionary.feed = (notices (e.step d o).effects).foldl Feed.publish d.feed := by
  cases e.step_passes d o with
  | idle ha =>
    obtain ⟨-, hd, hn⟩ := step_idle (d := d) (o := o) ha
    rw [hd, hn]
    rfl
  | unmoved ha hs =>
    obtain ⟨-, hd, -, hn⟩ := step_unmoved (d := d) ha hs
    rw [hd, hn]
    rfl
  | goesOn _ _ _ _ hc =>
    obtain ⟨-, -, -, -, hd, -, hn⟩ := hc
    rw [hd, hn]
    rfl
  | @ends a _ ending _ _ _ _ hc =>
    obtain ⟨-, hd, -, hn⟩ := hc
    rw [hd, hn]
    exact commit_feed o.clock d a ending

end Engine

/-! ## The history of a run -/

namespace Service

/-- the accepted transfers are the finished ones and then the pending ones; the finished ones are published -/
structure InOrder (s : Service) : Prop where
  served : s.accepted = s.finished.map Finished.transfer ++ s.engine.pending
  noticed : s.published = s.finished.map Finished.notice

theorem inOrder_start (node : UInt8) (config : Config) (d : Dictionary) : (start node config d).InOrder :=
  ⟨rfl, rfl⟩

/-- one move keeps the order of service, whatever becomes of the dictionary -/
theorem move_served {s : Service} (m : Move) (h : s.accepted = s.finished.map Finished.transfer ++ s.engine.pending) :
    (s.move m).accepted = (s.move m).finished.map Finished.transfer ++ (s.move m).engine.pending := by
  cases m with
  | exchange d => exact h
  | event o =>
    calc s.accepted ++ (s.engine.accepted s.dictionary o).toList
        = s.finished.map Finished.transfer ++ (s.engine.pending ++ (s.engine.accepted s.dictionary o).toList) := by
          rw [h, List.append_assoc]
      _ = s.finished.map Finished.transfer ++ ((s.engine.finished? o).toList.map Finished.transfer ++
            (s.engine.step s.dictionary o).engine.pending) := by
          rw [Engine.step_pending]
      _ = (s.finished ++ (s.engine.finished? o).toList).map Finished.transfer ++
            (s.engine.step s.dictionary o).engine.pending := by
          rw [List.map_append, List.append_assoc]

theorem run_served {s : Service} (h : s.accepted = s.finished.map Finished.transfer ++ s.engine.pending)
    (ms : List Move) :
    (s.run ms).accepted = (s.run ms).finished.map Finished.transfer ++ (s.run ms).engine.pending := by
  induction ms generalizing s with
  | nil => exact h
  | cons m rest ih => exact ih (move_served m h)

/-- a run keeps the sizes of the payloads beside them -/
theorem run_sized (node : UInt8) (config : Config) (d : Dictionary) (ms : List Move) :
    ∀ t ∈ ((start node config d).run ms).engine.pending, t.Sized :=
  run_engine (P := fun e => ∀ t ∈ e.pending, t.Sized) (fun _ _ _ h => Engine.step_sized h)
    (fun _ ht => absurd ht List.not_mem_nil) ms

/-- a write in progress has the size of its payload -/
theorem writing_sized {node : UInt8} {config : Config} {d : Dictionary} {ms : List Move} {w : Writing}
    (ha : ((start node config d).run ms).engine.active = some (.writing w)) : w.Sized :=
  run_sized node config d ms (Active.writing w).transfer (by simp [Engine.pending, ha])

theorem move_inOrder {s : Service} (m : Move) (h : s.InOrder) (held : s.Held) : (s.move m).InOrder := by
  refine ⟨move_served m h.served, ?_⟩
  cases m with
  | exchange d => exact h.noticed
  | event o =>
    change s.published ++ notices (s.engine.step s.dictionary o).effects = _
    rw [h.noticed, Engine.step_notices held]
    exact List.map_append.symm

theorem run_inOrder {s : Service} (ms : List Move) (h : s.InOrder) (held : ∀ pre, pre <+: ms → (s.run pre).Held) :
    (s.run ms).InOrder := by
  induction ms using List.reverseRecOn with
  | nil => exact h
  | append_singleton ms m ih =>
    rw [run_snoc]
    have hms : ∀ pre, pre <+: ms → (s.run pre).Held := fun pre hp => held pre (hp.trans (List.prefix_append _ _))
    exact move_inOrder m (ih hms) (hms ms List.prefix_rfl)

/-- **The published notices reach the feed.** Each of them is one publication to the subscribers, in the same order, as
long as nobody else changes the feed. -/
theorem run_feed {s : Service} {feed : Feed} (h : s.dictionary.feed = s.published.foldl Feed.publish feed)
    (ms : List Move) (alone : ∀ pre d, pre ++ [.exchange d] <+: ms → d.feed = (s.run pre).dictionary.feed) :
    (s.run ms).dictionary.feed = (s.run ms).published.foldl Feed.publish feed := by
  induction ms using List.reverseRecOn with
  | nil => exact h
  | append_singleton ms m ih =>
    have hms := ih fun pre d hp => alone pre d (hp.trans (List.prefix_append _ _))
    rw [run_snoc]
    cases m with
    | exchange d => exact (alone ms d List.prefix_rfl).trans hms
    | event o =>
      change ((s.run ms).engine.step (s.run ms).dictionary o).dictionary.feed =
        ((s.run ms).published ++ notices ((s.run ms).engine.step (s.run ms).dictionary o).effects).foldl _ feed
      rw [Engine.step_feed, hms, List.foldl_append]

/-- **First come, first served, exactly once.** Whatever calls, frames, timeouts, ticks and polls a new engine meets,
and whatever the bus takes: as long as the dictionary keeps the entries of the pending transfers, the transfers accepted
and not merged are, in the order of acceptance, those finished, the one in progress and those in the queue. The notices
published are those of the finished transfers, one each and in the same order: the own id, the direction, and failed
exactly if the transfer was aborted. -/
theorem served_in_order (node : UInt8) (config : Config) (d : Dictionary) (ms : List Move)
    (held : ∀ pre, pre <+: ms → ((start node config d).run pre).Held) :
    let s := (start node config d).run ms
    s.accepted = s.finished.map Finished.transfer ++ s.engine.active.toList.map Active.transfer ++ s.engine.queue ∧
      s.published = s.finished.map Finished.notice := by
  intro s
  have h : s.InOrder := run_inOrder ms (inOrder_start node config d) held
  refine ⟨?_, h.noticed⟩
  rw [h.served, Engine.pending, List.append_assoc]

/-- a dictionary of node 5 with the entry 1 of the object 0x2000, a byte, and the entry 0 of 0x2001, a domain -/
def twoEntries : Dictionary :=
  let byte : Entry := { subIndex := 1, name := "byte", type := .unsigned .w8, access := {} }
  let file : Entry := { subIndex := 0, name := "file", type := .domain, access := {} }
  ((({ bus := 0, node := 5 } : Dictionary).insert { index := 0x2000, name := "bytes" }).insert
    { index := 0x2001, name := "files" }).addEntry 0x2000 byte |>.addEntry 0x2001 file

/-- the ids of the two entries -/
def byteId : ObjectId := ⟨0, 5, ⟨0x2000, 1⟩, .unsigned .w8⟩

def fileId : ObjectId := ⟨0, 5, ⟨0x2001, 0⟩, .domain⟩

/-- a read that is answered, a write that times out, and a read that a second call joins during the write -/
def mixedMoves : List Move :=
  [.event ⟨0, true, .upload byteId⟩, .event ⟨1, true, .download fileId (.octets [1, 2, 3])⟩,
    .event ⟨2, true, .upload byteId⟩, .event ⟨3, false, .upload byteId⟩,
    .event ⟨4, true, .frame ⟨0x585, [0x4f, 0x00, 0x20, 0x01, 7, 0, 0, 0]⟩⟩, .event ⟨5, true, .timeout⟩]

theorem served_in_order_mixed :
    let s := (start 5 {} twoEntries).run mixedMoves
    (∀ pre, pre <+: mixedMoves → ((start 5 {} twoEntries).run pre).Held) ∧
      s.accepted = s.finished.map Finished.transfer ++ s.engine.active.toList.map Active.transfer ++ s.engine.queue ∧
      s.published = s.finished.map Finished.notice ∧
      s.published = [⟨byteId, .upload, false⟩, ⟨fileId, .download, true⟩] ∧
      s.engine.active.toList.map Active.transfer = [⟨byteId, .read⟩] := by
  have held : ∀ pre, pre <+: mixedMoves → ((start 5 {} twoEntries).run pre).Held := by
    intro pre hp
    have hall : ∀ pre ∈ mixedMoves.inits, ((start 5 {} twoEntries).run pre).Held := by decide +kernel
    exact hall pre ((List.mem_inits pre mixedMoves).2 hp)
  obtain ⟨hserved, hnoticed⟩ := served_in_order 5 {} twoEntries mixedMoves held
  exact ⟨held, hserved, hnoticed, by decide +kernel, by decide +kernel⟩

end Service

end SdoClient
