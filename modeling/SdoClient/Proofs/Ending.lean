/-
How a transfer ends. It completes with a response of the server and stores what the response says; it announces the
abort that it decides on itself, with a code of its own; an abort of the server it takes without a word.

Main statements: `Active.respond_justified`, `Active.own_of_aborted`.
-/
import Mathlib.Tactic
import SdoClient.Proofs.Turn

namespace SdoClient

/-- no transfer ends at the pacing timer -/
theorem Active.paced_goesOn (a : Active) (ready : Bool) : ∃ next, (a.paced ready).fate = .goesOn next := by
  unfold paced
  split
  · exact ⟨_, rfl⟩
  · split
    · split
      · exact ⟨_, rfl⟩
      · exact ⟨_, rfl⟩
    · exact ⟨_, rfl⟩

/-- why the transfer `a` ends so at the stimulus `s`, and what it says at its end. It completes with a response of the
server; it announces the abort that it decides on itself; an abort of the server it takes without a word. -/
def Ending.Justified (a : Active) (s : Stimulus) (requests : List Request) : Ending → Prop
  | completed v => ∃ data response, s = .frame data ∧ Response.parse data = .ok response ∧ v = a.result response
  | aborted code => requests = [.abort a.target.mux code]
  | abandoned code => requests = [] ∧ ∃ data mux, s = .frame data ∧ Response.parse data = .ok (.abort mux code)

theorem Active.respond_justified {config : Config} {a : Active} {s : Stimulus} {ending : Ending}
    (h : (a.respond config s).fate = .ends ending) : ending.Justified a s (a.respond config s).requests := by
  cases s with
  | lapse =>
    cases h
    rfl
  | tick ready =>
    obtain ⟨next, hnext⟩ := a.paced_goesOn ready
    rw [respond, hnext] at h
    cases h
  | frame data =>
    have hr := a.reactTo_lawful config data
    rw [respond] at h ⊢
    generalize a.reactTo config data = r at h hr ⊢
    cases hr with
    | wait | ask | pace => cases h
    | finish read result =>
      cases h
      exact ⟨data, _, rfl, read, result⟩
    | abort =>
      cases h
      rfl
    | abandon read =>
      cases h
      exact ⟨rfl, data, _, rfl, read⟩

/-- the code of an abort that the client decides on is one of its own, and so never 0 -/
theorem Active.own_of_aborted {config : Config} {a : Active} {s : Stimulus} {code : AbortCode}
    (h : (a.respond config s).fate = .ends (.aborted code)) : code.isProtocolError = true := by
  cases s with
  | lapse =>
    cases h
    rfl
  | tick ready =>
    obtain ⟨next, hnext⟩ := a.paced_goesOn ready
    rw [respond, hnext] at h
    cases h
  | frame data =>
    have hr := a.reactTo_lawful config data
    rw [respond] at h
    generalize a.reactTo config data = r at h hr
    cases hr with
    | wait | ask | pace | finish | abandon => cases h
    | abort own =>
      cases h
      exact own

end SdoClient
