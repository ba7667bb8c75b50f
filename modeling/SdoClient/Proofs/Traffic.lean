/-
What passes between an engine and its server, in both directions, from event to event and over a whole run.

Main statements:
- `said_traffic`: the requests in the traffic are all that the engine offers;
- `traffic_invariant`: what the request that opens a transfer, a frame between two transfers and every turn of a transfer
  keep of the traffic holds after every run;
- `current_of_run`: the traffic ends with the messages of the transfer in progress.
-/
import Mathlib.Tactic
import SdoClient.Proofs.Grammar

namespace SdoClient

/-! ## Events -/

/-- what passes between an engine and its server at an event: the frame of the server, if it is for the engine, and then
the requests of the engine -/
def Engine.passing (e : Engine) (d : Dictionary) (o : Engine.Occasion) : List Message :=
  ((e.stimulus? o).map Stimulus.heard).getD [] ++ (offers (e.step d o).effects).map .offered

namespace Engine

variable {e : Engine} {d : Dictionary} {o : Occasion} {a : Active} {s : Stimulus}

/-- an event that does not concern the transfer in progress passes nothing -/
theorem passing_unmoved (ha : e.active = some a) (hs : e.stimulus? o = none) : e.passing d o = [] := by
  obtain ⟨-, -, hoffers, -⟩ := step_unmoved (d := d) ha hs
  rw [passing, hs, hoffers]
  rfl

/-- as long as the transfer in progress goes on, its messages pass -/
theorem passing_goesOn {next : Active} (ha : e.active = some a) (hs : e.stimulus? o = some s)
    (hf : (a.respond e.config s).fate = .goesOn next) : e.passing d o = (a.respond e.config s).messages s := by
  have hc := step_active (d := d) ha hs
  rw [Carries, hf] at hc
  obtain ⟨-, -, -, -, -, hoffers, -⟩ := hc
  rw [passing, hs, hoffers]
  rfl

/-- at the end of a transfer its last messages pass, and then the request that opens the next one -/
theorem passing_ends {ending : Ending} (ha : e.active = some a) (hs : e.stimulus? o = some s)
    (hf : (a.respond e.config s).fate = .ends ending) :
    e.passing d o = (a.respond e.config s).messages s ++ (offers (e.released.startNext o.clock).2).map .offered := by
  have hc := step_active (d := d) ha hs
  rw [Carries, hf] at hc
  obtain ⟨-, -, hoffers, -⟩ := hc
  rw [passing, hs, hoffers, List.map_append, ← List.append_assoc]
  rfl

end Engine

/-! ## Runs -/

/-- the transfer that is in progress after a turn -/
def Fate.next? : Fate → Option Active
  | goesOn next => some next
  | ends _ => none

theorem Fate.next?_eq_some {fate : Fate} {next : Active} : fate.next? = some next ↔ fate = .goesOn next := by
  cases fate <;> simp [next?]

namespace Service

/-- what passes between the engine and its server during a run -/
def traffic (s : Service) : List Move → List Message
  | [] => []
  | .event o :: rest => s.engine.passing s.dictionary o ++ (s.move (.event o)).traffic rest
  | .exchange d :: rest => (s.move (.exchange d)).traffic rest

/-- the requests in the traffic are all that the engine offers -/
theorem said_traffic (s : Service) (ms : List Move) : said (s.traffic ms) = s.offered ms := by
  induction ms generalizing s with
  | nil => rfl
  | cons m rest ih =>
    cases m with
    | exchange d => exact ih _
    | event o =>
      have hheard : said (((s.engine.stimulus? o).map Stimulus.heard).getD []) = [] := by
        cases s.engine.stimulus? o with
        | none => rfl
        | some stimulus => cases stimulus <;> rfl
      rw [traffic, Engine.passing, said_append, said_append, hheard, said_offered, List.nil_append, ih, offered]

/-- a run leaves an engine its settings -/
theorem config_run (s : Service) (ms : List Move) : (s.run ms).engine.config = s.engine.config := by
  induction ms generalizing s with
  | nil => rfl
  | cons m rest ih =>
    cases m with
    | exchange d => exact ih _
    | event o => exact (ih _).trans (s.engine.step_fixed s.dictionary o).2

section invariant

variable {config : Config} {Q : List Message → Option Active → Prop} {messages : List Message} {s : Service}
  (begins : ∀ messages (t : Transfer), Q messages none →
    Q (messages ++ [.offered (t.begin config).2]) (some (t.begin config).1))
  (hears : ∀ messages data, Q messages none → Q (messages ++ [.received data]) none)
  (keep : ∀ messages a s, Q messages (some a) →
    Q (messages ++ (a.respond config s).messages s) (a.respond config s).fate.next?)

include begins in
/-- a transfer is started, or none -/
theorem traffic_starts {e next : Engine} {requests : List Request} (hconfig : e.config = config)
    (hnext : e.Starts next requests) (h : Q messages none) : Q (messages ++ requests.map .offered) next.active := by
  subst hconfig
  rcases hnext.begun with ⟨hnone, rfl⟩ | ⟨t, hsome, rfl⟩
  · rwa [hnone, List.map_nil, List.append_nil]
  · rw [hsome]
    exact begins messages t h

include begins hears keep in
/-- **Step lemma.** Every event keeps of the traffic what openings, frames and turns keep. -/
theorem traffic_event (hconfig : s.engine.config = config) (h : Q messages s.engine.active) (o : Engine.Occasion) :
    Q (messages ++ s.engine.passing s.dictionary o) (s.move (.event o)).engine.active := by
  cases s.engine.step_passes s.dictionary o with
  | idle ha _ =>
    rw [ha] at h
    have hheard : Q (messages ++ ((s.engine.stimulus? o).map Stimulus.heard).getD []) none := by
      match s.engine.stimulus? o with
      | some (.frame data) => exact hears messages data h
      | some .lapse | some (.tick _) | none => rwa [← List.append_nil messages] at h
    rw [Engine.passing, ← List.append_assoc]
    exact traffic_starts begins hconfig (Engine.step_idle_starts ha) hheard
  | unmoved ha hs _ =>
    have hengine : (s.move (.event o)).engine = _ := (Engine.step_unmoved (d := s.dictionary) ha hs).1
    rwa [hengine, Engine.passing_unmoved ha hs, List.append_nil]
  | @goesOn a next stimulus ha hs hf _ hc =>
    subst hconfig
    have hnext : (s.move (.event o)).engine.active = some next := hc.1
    rw [ha] at h
    have hturn := keep messages a stimulus h
    rw [hf] at hturn
    rwa [hnext, Engine.passing_goesOn ha hs hf]
  | @ends a stimulus ending ha hs hf _ hc =>
    subst hconfig
    have hengine : (s.move (.event o)).engine = _ := hc.1
    rw [ha] at h
    have hturn := keep messages a stimulus h
    rw [hf] at hturn
    rw [hengine, Engine.passing_ends ha hs hf, ← List.append_assoc]
    exact traffic_starts begins (e := s.engine.released) rfl (Engine.startNext_idle rfl o.clock) hturn

include begins hears keep in
/-- **Run lemma.** What openings, frames and turns keep of the traffic holds after every run. -/
theorem traffic_invariant (hconfig : s.engine.config = config) (h : Q messages s.engine.active) (ms : List Move) :
    Q (messages ++ s.traffic ms) (s.run ms).engine.active := by
  induction ms generalizing s messages with
  | nil => rwa [traffic, List.append_nil]
  | cons m rest ih =>
    cases m with
    | exchange d => exact ih hconfig h
    | event o =>
      have hsame : (s.move (.event o)).engine.config = config := (s.engine.step_fixed s.dictionary o).2.trans hconfig
      rw [traffic, ← List.append_assoc]
      exact ih hsame (traffic_event begins hears keep hconfig h o)

end invariant

/-- The traffic of a new engine ends with the request that opened the transfer in progress and with the messages since,
and what every turn keeps of the messages of a transfer holds of these. -/
theorem current_of_run {config : Config} {P : List Message → Fate → Prop}
    (begins : ∀ t : Transfer, P [] (.goesOn (t.begin config).1))
    (keep : ∀ messages a s, P messages (.goesOn a) →
      P (messages ++ (a.respond config s).messages s) (a.respond config s).fate)
    (node : UInt8) (d : Dictionary) (ms : List Move) {a : Active}
    (ha : ((start node config d).run ms).engine.active = some a) :
    ∃ earlier messages,
      (start node config d).traffic ms = earlier ++ .offered (a.transfer.begin config).2 :: messages ∧
        P messages (.goesOn a) := by
  let Q : List Message → Option Active → Prop := fun traffic current => ∀ a ∈ current, ∃ earlier messages,
    traffic = earlier ++ .offered (a.transfer.begin config).2 :: messages ∧ P messages (.goesOn a)
  have opens : ∀ traffic (t : Transfer), Q traffic none →
      Q (traffic ++ [.offered (t.begin config).2]) (some (t.begin config).1) := by
    intro traffic t _ a ha
    cases ha
    exact ⟨traffic, [], by rw [Engine.transfer_begin], begins t⟩
  have turns : ∀ traffic a s, Q traffic (some a) →
      Q (traffic ++ (a.respond config s).messages s) (a.respond config s).fate.next? := by
    intro traffic a s h next hnext
    have hf : (a.respond config s).fate = .goesOn next := Fate.next?_eq_some.1 hnext
    obtain ⟨earlier, messages, rfl, hmessages⟩ := h a rfl
    have hturn := keep messages a s hmessages
    rw [hf] at hturn
    refine ⟨earlier, _, ?_, hturn⟩
    rw [Active.transfer_respond hf, List.append_assoc, List.cons_append]
  have hnone : Q [] (start node config d).engine.active := fun a ha => by cases ha
  exact traffic_invariant (Q := Q) opens (fun _ _ _ a ha => by cases ha) turns rfl hnone ms a ha

end Service

end SdoClient
