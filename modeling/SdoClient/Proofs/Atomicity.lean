/-
What an event may do to the dictionary. As long as a transfer goes on, nothing; at its end one entry changes, and how
depends on the way it ends: a transfer that completes stores its result, one that fails leaves its abort code and
nothing else. The next transfer is started in the same event, but its effects come after those of the end.

Main statement: `step_atomic`.
-/
import Mathlib.Tactic
import SdoClient.Proofs.Course
import SdoClient.Proofs.Service

namespace SdoClient

/-! ## What stays and what changes -/

/-- `r` leaves the dictionary `d` as it is and publishes nothing -/
structure Outcome.Untouched (d : Dictionary) (r : Outcome) : Prop where
  dictionary : r.dictionary = d
  silent : notices r.effects = []

/-- `r` changes the entry that the notice `n` names by `f`, and nothing else of `d`; it publishes the notice -/
structure Outcome.Touches (d : Dictionary) (n : Notice) (f : Entry → Entry) (r : Outcome) : Prop where
  addressed : r.dictionary.find? n.id.mux = (d.find? n.id.mux).map f
  others : ∀ mux, mux ≠ n.id.mux → r.dictionary.find? mux = d.find? mux
  whole : r.dictionary = { d.modify n.id.mux f with feed := d.feed.publish n }
  published : notices r.effects = [n]

theorem Outcome.touches_commit {d : Dictionary} {n : Notice} {f : Entry → Entry} {r : Outcome}
    (hn : (d.find? n.id.mux).isSome) (hd : r.dictionary = (d.commit n f).1)
    (hp : notices r.effects = (d.commit n f).2.toList) : r.Touches d n f := by
  refine ⟨?_, ?_, ?_, ?_⟩
  · rw [hd, Dictionary.find?_commit, if_pos rfl]
  · intro mux hmux
    rw [hd, Dictionary.find?_commit, if_neg hmux]
  · rw [hd, Dictionary.commit, if_pos hn]
  · rw [hp, Dictionary.commit, if_pos hn]
    rfl

namespace Engine

variable {e : Engine} {d : Dictionary} {o : Occasion}

/-- how an event ends the transfer in progress, if it does -/
def ending? (e : Engine) (o : Occasion) : Option Ending :=
  match e.active, e.stimulus? o with
  | some a, some s =>
    match (a.respond e.config s).fate with
    | .goesOn _ => none
    | .ends ending => some ending
  | _, _ => none

/-- the first waiting transfer as it is started, with its initiate request -/
def opened? (e : Engine) : Option (Active × Request) := e.queue.head?.map (Transfer.begin e.config)

theorem abort_ne_begin (config : Config) (t : Transfer) (mux : Mux) (code : AbortCode) :
    (t.begin config).2 ≠ .abort mux code := by
  unfold Transfer.begin
  split
  · split <;> exact Request.noConfusion
  · split
    · exact Request.noConfusion
    · split <;> exact Request.noConfusion

theorem startNext_released (e : Engine) (clock : Time) :
    (e.released.startNext clock).1.active = e.opened?.map (·.1) ∧
      (e.released.startNext clock).1.queue = e.queue.tail ∧
      offers (e.released.startNext clock).2 = (e.opened?.map (·.2)).toList := by
  unfold startNext
  split
  · rename_i t rest _ hq
    have hq : e.queue = t :: rest := hq
    simp [opened?, hq, armTimeout, released]
  · rename_i hno
    have hq : e.queue = [] := List.eq_nil_iff_forall_not_mem.2 fun t ht => by
      obtain ⟨t', rest, hcons⟩ := List.exists_cons_of_ne_nil (List.ne_nil_of_mem ht)
      exact hno t' rest rfl hcons
    simp [opened?, hq, released]

theorem event_of_stimulus {data : List UInt8} (h : e.stimulus? o = some (.frame data)) :
    o.event = .frame ⟨e.responseId, data⟩ := by
  unfold stimulus? at h
  split at h
  · cases h
  · cases h
  · rename_i frame hevent
    split at h
    · rename_i hid
      cases h
      rw [hevent, ← hid]
    · cases h
  · cases h
  · cases h
  · split at h
    · cases h
    · split at h <;> cases h

/-- the event `o` ends the transfer `a`, and the first waiting one takes its place. A completed transfer stores its
result with the time and clears the error; a failed one leaves its abort code in the entry and nothing else. The client
says an abort of its own, once and before it starts the next transfer, and none after an abort of the server. -/
structure Closes (e : Engine) (d : Dictionary) (o : Occasion) (a : Active) (ending : Ending) : Prop where
  active : (e.step d o).engine.active = e.opened?.map (·.1)
  queue : (e.step d o).engine.queue = e.queue.tail
  effect :
    match ending with
    | .completed v =>
      (e.step d o).Touches d ⟨a.target, a.direction, false⟩
          (fun x => { x with value := v, changedAt := some o.clock, error := .none }) ∧
        ∃ data response, o.event = .frame ⟨e.responseId, data⟩ ∧ Response.parse data = .ok response ∧
          v = a.result response
    | .aborted code =>
      (e.step d o).Touches d ⟨a.target, a.direction, true⟩ (fun x => { x with error := code }) ∧
        offers (e.step d o).effects = .abort a.target.mux code :: (e.opened?.map (·.2)).toList
    | .abandoned code =>
      (e.step d o).Touches d ⟨a.target, a.direction, true⟩ (fun x => { x with error := code }) ∧
        offers (e.step d o).effects = (e.opened?.map (·.2)).toList ∧
        ∃ data mux, o.event = .frame ⟨e.responseId, data⟩ ∧ Response.parse data = .ok (.abort mux code)
  initiate : ∀ opened ∈ e.opened?, ∀ mux code, opened.2 ≠ .abort mux code

theorem step_goesOn {a : Active} (ha : e.active = some a) (h : e.ending? o = none) :
    ∃ next, next.transfer = a.transfer ∧ e.Continues d next (e.step d o) := by
  cases hs : e.stimulus? o with
  | none => exact ⟨a, rfl, (unmoved_continues ha hs).1⟩
  | some s =>
    cases hf : (a.respond e.config s).fate with
    | goesOn next => exact ⟨next, Active.transfer_respond hf, (goesOn_continues ha hs hf).1⟩
    | ends ending => simp [ending?, ha, hs, hf] at h

theorem step_closes {ending : Ending} (held : ∀ a ∈ e.active, (d.find? a.target.mux).isSome)
    (h : e.ending? o = some ending) : ∃ a ∈ e.active, e.Closes d o a ending := by
  unfold ending? at h
  split at h
  · rename_i a s ha hs
    split at h
    · cases h
    · rename_i ending' hf
      cases h
      have hc := step_active (d := d) ha hs
      simp only [Carries, hf] at hc
      obtain ⟨hengine, hd, ho, hn⟩ := hc
      obtain ⟨hactive, hqueue, hoffers⟩ := startNext_released e o.clock
      have hwhy := a.respond_justified hf
      have hheld := held a ha
      refine ⟨a, ha, by rw [hengine, hactive], by rw [hengine, hqueue], ?_, ?_⟩
      · rw [hoffers] at ho
        cases ending with
        | completed v =>
          obtain ⟨data, response, rfl, hread, hv⟩ := hwhy
          exact ⟨Outcome.touches_commit hheld hd hn, data, response, event_of_stimulus hs, hread, hv⟩
        | aborted code =>
          have hwhy : _ = _ := hwhy
          exact ⟨Outcome.touches_commit hheld hd hn, by rw [ho, hwhy]; rfl⟩
        | abandoned code =>
          obtain ⟨hnone, data, mux, rfl, hread⟩ := hwhy
          exact ⟨Outcome.touches_commit hheld hd hn, by rw [ho, hnone]; rfl, data, mux, event_of_stimulus hs, hread⟩
      · intro opened hopened mux code
        obtain ⟨t, -, rfl⟩ := Option.map_eq_some_iff.1 hopened
        exact abort_ne_begin e.config t mux code
  · cases h

/-- a frame for someone else, or while nothing is in progress -/
theorem step_ignored {frame : CanFrame} (hevent : o.event = .frame frame)
    (h : frame.id ≠ e.responseId ∨ e.active = none) :
    (e.step d o).Untouched d ∧ (e.step d o).engine = e ∧ offers (e.step d o).effects = [] := by
  obtain ⟨clock, ready, event⟩ := o
  obtain rfl : event = .frame frame := hevent
  by_cases hid : frame.id = e.responseId
  · have hr : e.step d ⟨clock, ready, .frame frame⟩ = _ := receive_idle e hid (h.resolve_left (not_not_intro hid))
    rw [hr]
    exact ⟨⟨rfl, rfl⟩, rfl, rfl⟩
  · have hr : e.step d ⟨clock, ready, .frame frame⟩ = _ := receive_foreign e hid
    rw [hr]
    exact ⟨⟨rfl, rfl⟩, rfl, rfl⟩

/-- **Transfers touch the dictionary atomically.** Whatever an engine is doing, with the entry of its transfer in the
dictionary: an event that does not end the transfer changes no entry and publishes nothing. The event that ends it
changes the entry of the transfer as its end says, and no other. A frame with another identifier, and any frame while
nothing is in progress, does nothing at all. -/
theorem step_atomic (e : Engine) (d : Dictionary) (o : Occasion)
    (held : ∀ a ∈ e.active, (d.find? a.target.mux).isSome) :
    (e.ending? o = none → (e.step d o).Untouched d ∧
      ∀ a ∈ e.active, ∃ next ∈ (e.step d o).engine.active, next.transfer = a.transfer) ∧
      (∀ ending, e.ending? o = some ending → ∃ a ∈ e.active, e.Closes d o a ending) ∧
      ∀ frame, o.event = .frame frame → frame.id ≠ e.responseId ∨ e.active = none →
        (e.step d o).Untouched d ∧ (e.step d o).engine = e ∧ offers (e.step d o).effects = [] := by
  refine ⟨fun h => ?_, fun ending => step_closes held, fun frame => step_ignored⟩
  cases ha : e.active with
  | none =>
    obtain ⟨-, hd, hn⟩ := step_idle (d := d) (o := o) ha
    exact ⟨⟨hd, hn⟩, fun a hnone => absurd hnone (Option.not_mem_none a)⟩
  | some a =>
    obtain ⟨next, hkeep, hnext⟩ := step_goesOn (d := d) ha h
    refine ⟨⟨hnext.dictionary, hnext.silent⟩, fun b hb => ?_⟩
    obtain rfl := Option.mem_some.1 hb
    exact ⟨next, hnext.active, hkeep⟩

/-- a read is answered for another sub-index while a write waits: the client aborts the read and starts the write -/
theorem step_atomic_misaddressed :
    let s := (Service.start 5 {} Service.twoEntries).run (Service.mixedMoves.take 2)
    let o : Occasion := ⟨2, true, .frame ⟨0x585, [0x4f, 0x00, 0x20, 0x02, 7, 0, 0, 0]⟩⟩
    (∀ a ∈ s.engine.active, (s.dictionary.find? a.target.mux).isSome) ∧
      (∃ a ∈ s.engine.active, s.engine.Closes s.dictionary o a (.aborted .commandNotValid)) ∧
      offers (s.engine.step s.dictionary o).effects =
        [.abort ⟨0x2000, 1⟩ .commandNotValid, .blockDownloadInitiate ⟨0x2001, 0⟩ 3 false] := by
  intro s o
  have held : ∀ a ∈ s.engine.active, (s.dictionary.find? a.target.mux).isSome := by decide +kernel
  have hending : s.engine.ending? o = some (.aborted .commandNotValid) := by decide +kernel
  obtain ⟨-, hends, -⟩ := step_atomic s.engine s.dictionary o held
  exact ⟨held, hends _ hending, by decide +kernel⟩

end Engine

end SdoClient
