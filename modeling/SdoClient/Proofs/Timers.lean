/-
The timers of an engine. The timeout is set as long as a transfer is in progress, and the pacing timer as long as that
transfer is a block download with segments to send. A transfer waits in the queue only behind one in progress. So there
is always a timer that takes a busy engine on, and no timer is left over when it is free.

Main statements:
- `step_timed`: every event keeps the timers in step with the transfer in progress;
- `idle_iff_no_deadline`: an engine, and a bus, is idle exactly when it has no deadline.
-/
import Mathlib.Tactic
import SdoClient.Proofs.BusRun
import SdoClient.Proofs.Service

namespace SdoClient

/-! ## Transfers that need the pacing timer -/

theorem Active.paces_iff (a : Active) :
    a.paces = true ↔ ∃ w o, a = .writing w ∧ w.phase = .block o ∧ o.awaitingAck = false := by
  constructor
  · intro h
    cases a with
    | reading r => cases h
    | writing w =>
      obtain ⟨o, ho⟩ := Option.isSome_iff_exists.1 h
      exact ⟨w, o, rfl, w.sending?_eq_some ho⟩
  · rintro ⟨w, o, rfl, hp, ha⟩
    simp [paces, Writing.sending?, hp, ha]

/-- a new transfer waits for the answer of the server first -/
theorem Transfer.paces_begin (config : Config) (t : Transfer) : (t.begin config).1.paces = false := by
  obtain ⟨id, job⟩ := t
  cases job with
  | read =>
    simp only [begin]
    split <;> rfl
  | write value payload =>
    simp only [begin]
    split
    · rfl
    · split <;> rfl

/-! ## The timers of an engine -/

namespace Engine

/-- the timers are in step with the transfer in progress -/
structure Timed (e : Engine) : Prop where
  queue : e.active = none → e.queue = []
  timeout : e.timeoutAt.isSome = e.active.isSome
  pacing : e.pacingAt.isSome = e.active.any Active.paces

variable {e : Engine} {a : Active} {clock : Time} {d : Dictionary}

theorem timed_start (node : UInt8) (config : Config) : Timed { node, config } := ⟨fun _ => rfl, rfl, rfl⟩

theorem timed_busy (ha : e.active = some a) (htimeout : e.timeoutAt.isSome = true)
    (hpacing : e.pacingAt.isSome = a.paces) : e.Timed :=
  ⟨fun hn => absurd (hn.symm.trans ha) (Option.some_ne_none a).symm, by rw [ha, htimeout, Option.isSome_some],
    by rw [ha, hpacing, Option.any_some]⟩

/-- an engine without a transfer and without timers takes up the first one that waits -/
theorem timed_startNext (ha : e.active = none) (ht : e.timeoutAt = none) (hp : e.pacingAt = none) :
    (e.startNext clock).1.Timed := by
  unfold startNext
  split
  · rename_i t rest _ _
    exact timed_busy rfl rfl (by simp [armTimeout, hp, t.paces_begin e.config])
  · rename_i hnext
    refine ⟨fun _ => ?_, by rw [ha, ht]; rfl, by rw [ha, hp]; rfl⟩
    cases hq : e.queue with
    | nil => rfl
    | cons t rest => exact absurd hq (hnext t rest ha)

theorem timed_enqueue (h : e.Timed) (t : Transfer) : (e.enqueue clock t).1.Timed := by
  cases ha : e.active with
  | none =>
    have ht : e.timeoutAt = none := by simpa [ha] using h.timeout
    have hp : e.pacingAt = none := by simpa [ha] using h.pacing
    exact timed_startNext (e := { e with queue := e.queue ++ [t] }) ha ht hp
  | some a =>
    rw [enqueue_active ha]
    exact timed_busy ha (by rw [h.timeout, ha, Option.isSome_some]) (by rw [h.pacing, ha, Option.any_some])

theorem timed_settle (h : e.Timed) (ha : e.active = some a) {r : Reaction} {data : List UInt8} (hr : r.Lawful a data) :
    (e.settle clock d a r).engine.Timed := by
  have htimeout : e.timeoutAt.isSome = true := by rw [h.timeout, ha]; rfl
  have hpacing : e.pacingAt.isSome = a.paces := by rw [h.pacing, ha]; rfl
  cases hr with
  | wait _ paces => exact timed_busy rfl htimeout (hpacing.trans paces.symm)
  | ask _ paces => exact timed_busy rfl rfl (hpacing.trans paces.symm)
  | pace _ paces => exact timed_busy rfl htimeout paces.symm
  | finish | abort | abandon => exact timed_startNext (e := e.released) rfl rfl rfl

theorem timed_receive (h : e.Timed) (frame : CanFrame) : (e.receive clock d frame).engine.Timed := by
  by_cases hid : frame.id = e.responseId
  · cases ha : e.active with
    | none => rwa [receive_idle e hid ha]
    | some a =>
      have hsettled : (e.settle clock d a (a.reactTo e.config frame.data)).engine.Timed :=
        timed_settle h ha (a.reactTo_lawful e.config frame.data)
      by_cases hl : frame.data.length = Wire.size
      · simpa [receive, hid, ha, hl, Active.reactTo] using hsettled
      · simpa [receive, hid, ha, hl, Active.reactTo, Judgement.fault] using hsettled
  · rwa [receive_foreign e hid]

theorem timed_expire (h : e.Timed) : (e.expire clock d).engine.Timed := by
  unfold expire
  split
  · rename_i ha
    exact ⟨h.queue, by rw [ha]; rfl, h.pacing⟩
  · rename_i a ha
    have hr : (Reaction.abort .timeout).Lawful a [] := .abort rfl
    exact timed_settle h ha hr

theorem timed_tick (h : e.Timed) (ready : Bool) : (e.tick clock ready).1.Timed := by
  have hquiet : e.active.any Active.paces = false → Timed { e with pacingAt := none } :=
    fun hn => ⟨h.queue, h.timeout, hn.symm⟩
  cases ha : e.active with
  | none => simpa only [tick, ha] using hquiet (by rw [ha]; rfl)
  | some a =>
    have htimeout : e.timeoutAt.isSome = true := by rw [h.timeout, ha]; rfl
    cases a with
    | reading r => simpa only [tick, ha] using hquiet (by rw [ha]; rfl)
    | writing w =>
      simp only [tick, ha]
      cases hs : w.sending? with
      | none => simpa only [ha] using hquiet (by simp [ha, Active.paces, hs])
      | some block =>
        cases ready with
        | false => exact timed_busy rfl htimeout (by simp [armPacing, Active.paces, hs])
        | true =>
          simp only [if_true]
          split
          · rename_i hmore
            exact timed_busy rfl rfl hmore.symm
          · rename_i hdone
            exact timed_busy rfl rfl (by simpa [armTimeout, Active.paces] using hdone)

theorem timed_poll (h : e.Timed) (ready : Bool) (now : Time) : (e.poll clock ready d now).engine.Timed := by
  have hfirst : (if due e.timeoutAt now then e.expire clock d else ⟨e, d, []⟩ : Outcome).engine.Timed := by
    split
    · exact timed_expire h
    · exact h
  unfold poll
  generalize (if due e.timeoutAt now then e.expire clock d else ⟨e, d, []⟩ : Outcome) = first at hfirst ⊢
  simp only
  split
  · exact timed_tick hfirst ready
  · exact hfirst

/-- **Step lemma.** Every event keeps the timers in step with the transfer in progress. -/
theorem step_timed (e : Engine) (d : Dictionary) (o : Occasion) (h : e.Timed) : (e.step d o).engine.Timed := by
  have hcall : (∃ id, o.event = .upload id) ∨ (∃ id v, o.event = .download id v) → (e.step d o).engine.Timed := by
    intro hc
    rcases step_call e d o hc with ⟨t, -, hr⟩ | ⟨-, he, -⟩
    · rw [hr]
      exact timed_enqueue h t
    · rwa [he]
  obtain ⟨clock, ready, event⟩ := o
  cases event with
  | upload id => exact hcall (.inl ⟨id, rfl⟩)
  | download id v => exact hcall (.inr ⟨id, v, rfl⟩)
  | frame frame => exact timed_receive h frame
  | timeout => exact timed_expire h
  | tick => exact timed_tick h ready
  | poll now => exact timed_poll h ready now

theorem isSome_of_due {deadline : Option Time} {now : Time} (h : due deadline now = true) : deadline.isSome = true := by
  cases deadline with
  | none => cases h
  | some t => rfl

theorem earlier_eq_none {x y : Option Time} : earlier x y = none ↔ x = none ∧ y = none := by
  cases x <;> cases y <;> simp [earlier]

/-- an engine whose timers are in step is idle exactly if it has no deadline -/
theorem Timed.isIdle_iff (h : e.Timed) : e.isIdle = true ↔ e.nextDeadline = none := by
  rw [nextDeadline, earlier_eq_none, isIdle, Bool.and_eq_true, Option.isNone_iff_eq_none, List.isEmpty_iff]
  constructor
  · rintro ⟨ha, -⟩
    exact ⟨by simpa [ha] using h.timeout, by simpa [ha] using h.pacing⟩
  · rintro ⟨ht, -⟩
    have ha : e.active = none := by simpa [ht] using h.timeout.symm
    exact ⟨ha, h.queue ha⟩

end Engine

/-! ## Deadlines of a bus -/

namespace Bus

variable {τ : Type} [Transport τ]

omit [Transport τ] in
theorem nextDeadline_eq_none (b : Bus τ) :
    b.nextDeadline = none ↔ ∀ n ∈ b.nodes.values, n.engine.nextDeadline = none := by
  have hfold : ∀ (nodes : List Node) (first : Option Time),
      nodes.foldl (fun first n => Engine.earlier first n.engine.nextDeadline) first = none ↔
        first = none ∧ ∀ n ∈ nodes, n.engine.nextDeadline = none := by
    intro nodes
    induction nodes with
    | nil => simp
    | cons n rest ih =>
      intro first
      rw [List.foldl_cons, ih, Engine.earlier_eq_none, List.forall_mem_cons, and_assoc]
  rw [nextDeadline, hfold]
  simp

end Bus

/-- **No engine waits without a timer.** In every state that a new engine can reach, whatever calls, frames and timers
it meets and whatever the bus takes: nothing waits in the queue of a free engine; the state is free exactly without a
transfer in progress, and exactly with one the timeout is set; the pacing timer is set exactly while a block download
that the server accepted streams, with no acknowledgement of a block awaited and the end not yet announced. So an
engine is idle exactly if it has no deadline, and the same holds of every bus. -/
theorem idle_iff_no_deadline :
    (∀ (node : UInt8) (config : Config) (d : Dictionary) (ms : List Move),
      let e := ((Service.start node config d).run ms).engine
      (e.active = none → e.queue = []) ∧ (e.state = .free ↔ e.active = none) ∧
        (e.timeoutAt.isSome ↔ e.active.isSome) ∧
        (e.pacingAt.isSome ↔ ∃ w o, e.active = some (.writing w) ∧ w.phase = .block o ∧ o.awaitingAck = false) ∧
        (e.isIdle ↔ e.nextDeadline = none)) ∧
      ∀ (τ : Type) [Transport τ] (id : UInt8) (t : τ) (config : Config) (acts : List (Bus.Act τ)),
        let b := (Bus.start id t config).run acts
        b.isIdle ↔ b.nextDeadline = none := by
  refine ⟨fun node config d ms => ?_, fun τ _ id t config acts => ?_⟩
  · have h : ((Service.start node config d).run ms).engine.Timed :=
      Service.run_engine Engine.step_timed (Engine.timed_start node config) ms
    intro e
    have h : e.Timed := h
    refine ⟨h.queue, ?_, ?_, ?_, h.isIdle_iff⟩
    · rw [Engine.state]
      cases ha : e.active with
      | none => simp
      | some a => simpa using a.state_ne_free
    · rw [h.timeout]
    · rw [h.pacing]
      cases ha : e.active with
      | none => simp
      | some a => simpa using a.paces_iff
  · intro b
    have h : b.Every Engine.Timed :=
      Bus.run_engine Engine.step_timed Engine.timed_start (fun n hn => absurd hn List.not_mem_nil) acts
    rw [Bus.nextDeadline_eq_none, Bus.isIdle, List.all_eq_true]
    exact forall₂_congr fun n hn => (h n hn).isIdle_iff

end SdoClient
