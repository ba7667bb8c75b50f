/-
The life of a bus: nodes come and go, calls are made, frames arrive and timers fire, in any order and over any
transport. Besides the operations of the bus itself, someone may work on the dictionary of a node or drive a single
node over another transport.

Main statement: `run_engine`. What holds of every new engine and is kept by its events holds of every engine on a bus.
-/
import Mathlib.Tactic
import SdoClient.Bus

namespace SdoClient

namespace SortedMap

variable {κ ν : Type} [LT κ]

theorem mem_values_erase [DecidableEq κ] {m : SortedMap κ ν} {k : κ} {v : ν} (h : v ∈ (m.erase k).values) :
    v ∈ m.values := by
  obtain ⟨entry, hentry, rfl⟩ := List.mem_map.1 h
  exact List.mem_map_of_mem (List.mem_of_mem_filter hentry)

theorem mem_values_modify [DecidableEq κ] {m : SortedMap κ ν} {k : κ} {f : ν → ν} {v : ν}
    (h : v ∈ (m.modify k f).values) : v ∈ m.values ∨ ∃ w ∈ m.values, v = f w := by
  obtain ⟨entry, hentry, rfl⟩ := List.mem_map.1 h
  obtain ⟨old, hold, rfl⟩ := List.mem_map.1 hentry
  have hmem : old.2 ∈ m.values := List.mem_map_of_mem hold
  by_cases hk : old.1 = k
  · exact .inr ⟨old.2, hmem, if_pos hk⟩
  · exact .inl (by simpa only [if_neg hk] using hmem)

theorem mem_values_insert [DecidableLT κ] [LE κ] [Std.IsLinearOrder κ] [Std.LawfulOrderLT κ] {m : SortedMap κ ν}
    {k : κ} {v w : ν} (h : v ∈ (m.insert k w).values) : v = w ∨ v ∈ m.values := by
  obtain ⟨entry, hentry, rfl⟩ := List.mem_map.1 h
  rcases mem_place hentry with rfl | hold
  · exact .inl rfl
  · exact .inr (List.mem_map_of_mem hold)

theorem mem_entries_of_find? [DecidableEq κ] {m : SortedMap κ ν} {k : κ} {v : ν} (h : m.find? k = some v) :
    (k, v) ∈ m.entries := by
  unfold find? at h
  generalize m.entries = l at h
  induction l with
  | nil => cases h
  | cons entry rest ih =>
    rw [lookup] at h
    split at h
    · rename_i hk
      cases h
      exact hk ▸ List.mem_cons_self
    · exact List.mem_cons_of_mem _ (ih h)

theorem mem_values_of_find? [DecidableEq κ] {m : SortedMap κ ν} {k : κ} {v : ν} (h : m.find? k = some v) :
    v ∈ m.values :=
  List.mem_map_of_mem (mem_entries_of_find? h)

end SortedMap

namespace Bus

variable {τ : Type} [Transport τ]

/-- what can happen to a bus -/
inductive Act (τ : Type) where
  | add (d : Dictionary)
  | remove (node : UInt8)
  /-- someone works on the dictionary of a node -/
  | edit (node : UInt8) (f : Dictionary → Dictionary)
  /-- the transport changes by itself -/
  | exchange (t : τ)
  | upload (clock : Time) (id : ObjectId)
  | download (clock : Time) (id : ObjectId) (value : Value)
  | frame (clock : Time) (frame : CanFrame)
  | poll (clock now : Time)
  /-- someone drives one node over another transport -/
  | drive (node : UInt8) (o : Engine.Occasion)

/-- the bus after a call: unchanged if it was refused -/
def called (b : Bus τ) (result : Except Error (Bus τ × List Report)) : Bus τ :=
  match result with
  | .ok p => p.1
  | .error _ => b

/-- a node after an event of its engine -/
def driven (o : Engine.Occasion) (n : Node) : Node :=
  let r := n.engine.step n.dictionary o
  ⟨r.dictionary, r.engine⟩

def act (b : Bus τ) : Act τ → Bus τ
  | .add d => b.add d
  | .remove node => b.remove node
  | .edit node f => b.modifyDictionary node f
  | .exchange t => { b with transport := t }
  | .upload clock id => b.called (b.upload clock id)
  | .download clock id v => b.called (b.download clock id v)
  | .frame clock frame => (b.receive clock frame).1
  | .poll clock now => (b.poll clock now).1
  | .drive node o => { b with nodes := b.nodes.modify node (driven o) }

def run (b : Bus τ) (acts : List (Act τ)) : Bus τ := acts.foldl act b

/-- a bus without nodes -/
def start (id : UInt8) (t : τ) (config : Config) : Bus τ := { id, transport := t, config }

/-- every engine on the bus has a property -/
def Every (P : Engine → Prop) (b : Bus τ) : Prop := ∀ n ∈ b.nodes.values, P n.engine

section invariant

variable {P : Engine → Prop} {b : Bus τ} (hstep : ∀ e d o, P e → P (e.step d o).engine)
include hstep

theorem every_perform (h : b.Every P) (clock : Time) (node : UInt8)
    (event : Engine.Event) : (b.perform clock node event).1.Every P := by
  unfold perform
  split
  · exact h
  · rename_i n hn
    intro n' hn'
    rcases SortedMap.mem_values_modify hn' with hold | ⟨-, -, rfl⟩
    · exact h n' hold
    · exact hstep _ _ _ (h n (SortedMap.mem_values_of_find? hn))

theorem every_call (h : b.Every P) (clock : Time) (id : ObjectId)
    (event : Engine.Event) : (b.called (b.call clock id event)).Every P := by
  unfold call
  split
  · exact h
  · split
    · exact h
    · exact every_perform hstep h clock id.node event

theorem every_receive (h : b.Every P) (clock : Time) (frame : CanFrame) :
    (b.receive clock frame).1.Every P := by
  unfold receive
  split
  · exact h
  · exact every_perform hstep h clock _ _

theorem every_poll (h : b.Every P) (clock now : Time) : (b.poll clock now).1.Every P := by
  unfold poll
  -- the nodes are polled one after another, and each poll keeps the property of all
  generalize b.nodes.keys = keys
  generalize ([] : List Report) = log
  induction keys generalizing b log with
  | nil => exact h
  | cons node rest ih => exact ih (every_perform hstep h clock node (.poll now)) _

theorem every_act (hnew : ∀ node config, P { node, config }) (h : b.Every P) (a : Act τ) : (b.act a).Every P := by
  cases a with
  | add d =>
    intro n hn
    rcases SortedMap.mem_values_insert hn with rfl | hold
    · exact hnew d.node b.config
    · exact h n hold
  | remove node => exact fun n hn => h n (SortedMap.mem_values_erase hn)
  | edit node f =>
    intro n hn
    rcases SortedMap.mem_values_modify hn with hold | ⟨n', hold, rfl⟩
    · exact h n hold
    · exact h n' hold
  | exchange t => exact h
  | upload clock id => exact every_call hstep h clock id _
  | download clock id v => exact every_call hstep h clock id _
  | frame clock frame => exact every_receive hstep h clock frame
  | poll clock now => exact every_poll hstep h clock now
  | drive node o =>
    intro n hn
    rcases SortedMap.mem_values_modify hn with hold | ⟨n', hold, rfl⟩
    · exact h n hold
    · exact hstep _ n'.dictionary o (h n' hold)

/-- **Run lemma.** What holds of every new engine and is kept by every event holds of every engine on a bus. -/
theorem run_engine (hnew : ∀ node config, P { node, config }) (h : b.Every P) (acts : List (Act τ)) :
    (b.run acts).Every P := by
  induction acts generalizing b with
  | nil => exact h
  | cons a rest ih => exact ih (every_act hstep hnew h a)

end invariant

end Bus

end SdoClient
