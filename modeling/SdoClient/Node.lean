/-
A remote node: its dictionary and its engine, driven over a transport. An operation on a node is one event of its
engine whose effects are carried out at once.

Main statement: `perform_of_refusal` (a refused call leaves node and transport as they are).
-/
import SdoClient.Transport

namespace SdoClient

/-- a remote node -/
structure Node where
  dictionary : Dictionary
  engine : Engine
  deriving DecidableEq

/-- a node, its transport and the log after an operation -/
structure Performance (τ : Type) where
  node : Node
  transport : τ
  log : List Report := []

namespace Node

variable {τ : Type} [Transport τ]

/-- the node that a dictionary describes, with an idle engine -/
def create (d : Dictionary) (config : Config) : Node := ⟨d, { node := d.node, config }⟩

/-- why an event is refused, if it is a call that the engine refuses -/
def refusal? (n : Node) (clock : Time) : Engine.Event → Option Error
  | .upload id =>
    match n.engine.upload clock n.dictionary id with
    | .ok _ => none
    | .error cause => some cause
  | .download id v =>
    match n.engine.download clock n.dictionary id v with
    | .ok _ => none
    | .error cause => some cause
  | _ => none

/-- lets an event happen and carries out its effects -/
def perform (n : Node) (clock : Time) (t : τ) (event : Engine.Event) : Performance τ :=
  let o := n.engine.step n.dictionary ⟨clock, Transport.canSend t, event⟩
  let carried := Transport.carry n.engine.node n.engine.requestId t o.effects
  ⟨⟨o.dictionary, o.engine⟩, carried.1, carried.2⟩

theorem perform_of_refusal {n : Node} {clock : Time} {t : τ} {event : Engine.Event} {cause : Error}
    (h : n.refusal? clock event = some cause) : n.perform clock t event = ⟨n, t, []⟩ := by
  cases event with
  | upload id =>
    simp only [refusal?] at h
    split at h
    · cases h
    · rename_i hu
      simp [perform, Engine.step, hu, Engine.called, Transport.carry]
  | download id v =>
    simp only [refusal?] at h
    split at h
    · cases h
    · rename_i hu
      simp [perform, Engine.step, hu, Engine.called, Transport.carry]
  | _ => cases h

end Node

end SdoClient
