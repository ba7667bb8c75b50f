/-
Which calls a node takes, and what a call does at once. A call is checked in a fixed order: the node, the entry and, for
a write, the limits and then the type that the entry declares. The type in the id of the caller never counts. A call
that fails a check leaves no trace. One that passes all of them puts one transfer behind those that are pending, and
only a free engine says something at once.

Main statements:
- `upload_error_iff`, `download_error_iff`: the refusals of a call, each under exactly its own condition;
- `admission_exact`: in every state that an engine can reach, a call is refused exactly under these conditions and then
  changes nothing, and otherwise it appends exactly one transfer.
-/
import Mathlib.Tactic
import SdoClient.Proofs.Grammar
import SdoClient.Proofs.Timers

namespace SdoClient

namespace Engine

variable {e : Engine} {clock : Time} {d : Dictionary} {id : ObjectId} {v : Value} {x : Entry} {cause : Error}

/-! ## Checks -/

/-- the id is for another node than the engine, or the dictionary is -/
def Foreign (e : Engine) (d : Dictionary) (id : ObjectId) : Prop := id.node ≠ e.node ∨ d.node ≠ e.node

instance (e : Engine) (d : Dictionary) (id : ObjectId) : Decidable (e.Foreign d id) := by
  unfold Foreign
  infer_instance

/-- the id names an entry that the dictionary of the engine's own node has -/
structure Addresses (e : Engine) (d : Dictionary) (id : ObjectId) (x : Entry) : Prop where
  own : ¬e.Foreign d id
  found : d.find? id.mux = some x

/-- why no call for an id is taken -/
inductive Unaddressed (e : Engine) (d : Dictionary) (id : ObjectId) : Error → Prop
  | unknownNode (foreign : e.Foreign d id) : Unaddressed e d id (.unknownNode id.node)
  | objectNotFound (own : ¬e.Foreign d id) (absent : d.find? id.mux = none) :
      Unaddressed e d id (.objectNotFound id.mux)

/-- why the write of a value is not taken -/
inductive Unwritable (e : Engine) (d : Dictionary) (id : ObjectId) (v : Value) : Error → Prop
  | unaddressed {cause : Error} (h : e.Unaddressed d id cause) : Unwritable e d id v cause
  | outOfLimits {x : Entry} (h : e.Addresses d id x) (outside : x.withinLimits v = false) :
      Unwritable e d id v (.outOfLimits id.mux)
  | invalidValue {x : Entry} (h : e.Addresses d id x) (inside : x.withinLimits v = true)
      (unfit : v.fits x.type = false) : Unwritable e d id v (.invalidValue (.notRepresentable v x.type))

theorem unaddressed_or_addresses (e : Engine) (d : Dictionary) (id : ObjectId) :
    (∃ cause, e.Unaddressed d id cause) ∨ ∃ x, e.Addresses d id x := by
  by_cases hforeign : e.Foreign d id
  · exact .inl ⟨_, .unknownNode hforeign⟩
  · cases hx : d.find? id.mux with
    | none => exact .inl ⟨_, .objectNotFound hforeign hx⟩
    | some x => exact .inr ⟨x, hforeign, hx⟩

theorem Unaddressed.resolve (h : e.Unaddressed d id cause) : e.resolve d id = .error cause := by
  cases h with
  | unknownNode foreign => exact if_pos foreign
  | objectNotFound own absent => exact (if_neg own).trans (by rw [absent])

/-- the entry is the one of the dictionary, and its type takes the place of the one that the caller names -/
theorem Addresses.resolve (h : e.Addresses d id x) : e.resolve d id = .ok ({ id with type := x.type }, x) :=
  (if_neg h.own).trans (by rw [h.found])

/-- an id names at most one entry -/
theorem Addresses.unique {y : Entry} (h : e.Addresses d id x) (h' : e.Addresses d id y) : x = y :=
  Option.some.inj (h.found.symm.trans h'.found)

/-! ## Calls -/

theorem Addresses.upload (h : e.Addresses d id x) (clock : Time) :
    e.upload clock d id =
      if e.readWaits id then .ok (e, [.log (.alreadyQueued { id with type := x.type })])
      else .ok (e.enqueue clock ⟨{ id with type := x.type }, .read⟩) := by
  rw [Engine.upload, h.resolve]
  rfl

/-- the write of a value that passes both checks -/
theorem Addresses.download (h : e.Addresses d id x) (hlimits : x.withinLimits v = true) {payload : List UInt8}
    (hencode : v.encode x.type = .ok payload) (clock : Time) :
    e.download clock d id v =
      .ok (e.enqueue clock ⟨{ id with type := x.type }, .write ((Value.decode payload x.type).getD v) payload⟩) := by
  simp only [Engine.download, h.resolve, hlimits, if_true, hencode]

theorem upload_error_iff : e.upload clock d id = .error cause ↔ e.Unaddressed d id cause := by
  refine ⟨fun h => ?_, fun h => by rw [Engine.upload, h.resolve]⟩
  rcases e.unaddressed_or_addresses d id with ⟨cause', hcause⟩ | ⟨x, hx⟩
  · rw [Engine.upload, hcause.resolve] at h
    cases h
    exact hcause
  · rw [hx.upload] at h
    split at h <;> cases h

theorem download_error_iff : e.download clock d id v = .error cause ↔ e.Unwritable d id v cause := by
  constructor
  · intro h
    rcases e.unaddressed_or_addresses d id with ⟨cause', hcause⟩ | ⟨x, hx⟩
    · rw [Engine.download, hcause.resolve] at h
      cases h
      exact .unaddressed hcause
    · cases hlimits : x.withinLimits v with
      | false =>
        simp only [Engine.download, hx.resolve, hlimits, Bool.false_eq_true, if_false] at h
        cases h
        exact .outOfLimits hx hlimits
      | true =>
        cases hfits : v.fits x.type with
        | false =>
          simp only [Engine.download, hx.resolve, hlimits, if_true, Value.encode, hfits, Bool.false_eq_true,
            if_false] at h
          cases h
          exact .invalidValue hx hlimits hfits
        | true =>
          rw [hx.download hlimits (if_pos hfits)] at h
          cases h
  · intro h
    cases h with
    | unaddressed hcause => rw [Engine.download, hcause.resolve]
    | outOfLimits hx outside => simp [Engine.download, hx.resolve, outside]
    | invalidValue hx inside unfit => simp [Engine.download, hx.resolve, inside, Value.encode, unfit]

/-- a free engine, which has no queue, starts at once what it is given -/
theorem enqueue_free (ha : e.active = none) (hq : e.queue = []) (clock : Time) (t : Transfer) :
    e.enqueue clock t =
      ({ e with active := some (t.begin e.config).1, timeoutAt := some (clock + e.config.timeout) },
        [.log (.starting t.target t.direction 0), .offer (t.begin e.config).2]) := by
  simp only [enqueue, startNext, ha, hq, List.nil_append, armTimeout, List.length_nil]

end Engine

/-! ## Calls at a node -/

namespace Node

variable {τ : Type} [Transport τ] {n : Node} {clock : Time} {t : τ} {call : Engine.Event} {x : Transfer}

/-- the requests that an event offers to the bus -/
def offered (n : Node) (clock : Time) (t : τ) (event : Engine.Event) : List Request :=
  offers (n.engine.step n.dictionary ⟨clock, Transport.canSend t, event⟩).effects

/-- the frames that an event gives to the bus, whether it takes them or not -/
def frames (n : Node) (clock : Time) (t : τ) (event : Engine.Event) : List CanFrame :=
  (n.offered clock t event).map fun r => ⟨n.engine.requestId, r.toBytes⟩

theorem transport_perform (n : Node) (clock : Time) (t : τ) (event : Engine.Event) :
    (n.perform clock t event).transport = (n.frames clock t event).foldl Transport.hand t :=
  Transport.carry_offers _ _ _ _

/-- a call is taken and does nothing but put a transfer behind those that are pending. A busy engine queues it in
silence; a free one starts it, offers its initiate request and sets the timeout. -/
structure Appends (n : Node) (clock : Time) (t : τ) (call : Engine.Event) (x : Transfer) : Prop where
  taken : n.refusal? clock call = none
  pending : (n.perform clock t call).node.engine.pending = n.engine.pending ++ [x]
  dictionary : (n.perform clock t call).node.dictionary = n.dictionary
  busy : n.engine.active.isSome →
    (n.perform clock t call).node.engine = { n.engine with queue := n.engine.queue ++ [x] } ∧
      n.offered clock t call = [] ∧ (n.perform clock t call).transport = t
  free : n.engine.active = none →
    (n.perform clock t call).node.engine =
        { n.engine with
          active := some (x.begin n.engine.config).1
          timeoutAt := some (clock + n.engine.config.timeout) } ∧
      n.offered clock t call = [(x.begin n.engine.config).2] ∧
      (n.perform clock t call).transport =
        Transport.hand t ⟨n.engine.requestId, (x.begin n.engine.config).2.toBytes⟩

/-- a call whose only result is that a transfer is put into the queue -/
theorem appends_of_enqueue (hq : n.engine.active = none → n.engine.queue = []) (htaken : n.refusal? clock call = none)
    (hstep : n.engine.step n.dictionary ⟨clock, Transport.canSend t, call⟩ =
      ⟨(n.engine.enqueue clock x).1, n.dictionary, (n.engine.enqueue clock x).2⟩) : n.Appends clock t call x := by
  have hengine : (n.perform clock t call).node.engine = (n.engine.enqueue clock x).1 := by rw [perform, hstep]
  have hoffered : n.offered clock t call = offers (n.engine.enqueue clock x).2 := by rw [offered, hstep]
  have htransport : (n.perform clock t call).transport =
      ((offers (n.engine.enqueue clock x).2).map fun r => ⟨n.engine.requestId, r.toBytes⟩).foldl Transport.hand t := by
    rw [perform, Transport.carry_offers, hstep]
  refine ⟨htaken, ?_, by rw [perform, hstep], fun hbusy => ?_, fun hfree => ?_⟩
  · rw [hengine]
    exact (Engine.enqueue_spec n.engine clock x).1
  · obtain ⟨a, ha⟩ := Option.isSome_iff_exists.1 hbusy
    rw [hengine, hoffered, htransport, Engine.enqueue_active ha]
    exact ⟨rfl, rfl, rfl⟩
  · rw [hengine, hoffered, htransport, Engine.enqueue_free hfree (hq hfree)]
    exact ⟨rfl, rfl, rfl⟩

theorem refusal?_upload {id : ObjectId} {cause : Error} :
    n.refusal? clock (.upload id) = some cause ↔ n.engine.Unaddressed n.dictionary id cause := by
  have hiff : n.engine.upload clock n.dictionary id = .error cause ↔ _ := Engine.upload_error_iff
  rw [← hiff, refusal?]
  cases n.engine.upload clock n.dictionary id <;> simp

theorem refusal?_download {id : ObjectId} {v : Value} {cause : Error} :
    n.refusal? clock (.download id v) = some cause ↔ n.engine.Unwritable n.dictionary id v cause := by
  have hiff : n.engine.download clock n.dictionary id v = .error cause ↔ _ := Engine.download_error_iff
  rw [← hiff, refusal?]
  cases n.engine.download clock n.dictionary id v <;> simp

end Node

namespace Service

theorem timed_run (node : UInt8) (config : Config) (d : Dictionary) (ms : List Move) :
    ((start node config d).run ms).engine.Timed :=
  run_engine (P := Engine.Timed) Engine.step_timed (s := start node config d) (Engine.timed_start node config) ms

/-- **Admission is exact and atomic.** In every state that an engine can reach, with any dictionary and over any
transport: a read call is refused for exactly the reasons of `Unaddressed`, a write call for exactly those of
`Unwritable`, and a refused call leaves node and transport as they were. Any other call is taken. A read of an entry for
which one waits already changes nothing either. All other calls append one transfer, with the type that the entry
declares and, for a write, the octets of the value in this type. -/
theorem admission_exact (node : UInt8) (config : Config) (d₀ : Dictionary) (ms : List Move) (d : Dictionary)
    {τ : Type} [Transport τ] (t : τ) (clock : Time) (id : ObjectId) (v : Value) :
    let n : Node := ⟨d, ((start node config d₀).run ms).engine⟩
    (∀ cause, n.refusal? clock (.upload id) = some cause ↔ n.engine.Unaddressed d id cause) ∧
      (∀ cause, n.refusal? clock (.download id v) = some cause ↔ n.engine.Unwritable d id v cause) ∧
      (∀ call cause, n.refusal? clock call = some cause → n.perform clock t call = ⟨n, t, []⟩) ∧
      ∀ x, n.engine.Addresses d id x →
        (n.engine.readWaits id = true → n.refusal? clock (.upload id) = none ∧
          n.perform clock t (.upload id) = ⟨n, t, [.alreadyQueued { id with type := x.type }]⟩) ∧
        (n.engine.readWaits id = false →
          n.Appends clock t (.upload id) ⟨{ id with type := x.type }, .read⟩) ∧
        ∀ payload, x.withinLimits v = true → v.encode x.type = .ok payload →
          n.Appends clock t (.download id v)
            ⟨{ id with type := x.type }, .write ((Value.decode payload x.type).getD v) payload⟩ := by
  intro n
  have htimed : n.engine.Timed := timed_run node config d₀ ms
  refine ⟨fun _ => Node.refusal?_upload, fun _ => Node.refusal?_download, fun _ _ => Node.perform_of_refusal,
    fun x hx => ⟨fun hwaits => ?_, fun hnone => ?_, fun payload hlimits hencode => ?_⟩⟩
  · have hcall : n.engine.upload clock d id = .ok _ := (hx.upload clock).trans (if_pos hwaits)
    refine ⟨by simp only [Node.refusal?, n, hcall], ?_⟩
    simp only [Node.perform, Engine.step, n, hcall, Engine.called, Transport.carry]
  · have hcall : n.engine.upload clock d id = .ok _ := (hx.upload clock).trans (if_neg (by simp [hnone]))
    refine Node.appends_of_enqueue htimed.queue ?_ ?_
    · simp only [Node.refusal?, n, hcall]
    · simp only [Engine.step, n, hcall, Engine.called]
  · have hcall : n.engine.download clock d id v = .ok _ := hx.download hlimits hencode clock
    refine Node.appends_of_enqueue htimed.queue ?_ ?_
    · simp only [Node.refusal?, n, hcall]
    · simp only [Engine.step, n, hcall, Engine.called]

/-- the byte is being read, and a read of the file waits -/
def twoReads : List Move := [.event ⟨0, true, .upload byteId⟩, .event ⟨1, true, .upload fileId⟩]

/-- a caller who takes the byte for a domain: two values are refused or taken as a byte, and a read is queued -/
theorem admission_exact_byte :
    let n : Node := ⟨twoEntries, ((start 5 {} twoEntries).run twoReads).engine⟩
    let asked : ObjectId := { byteId with type := .domain }
    n.refusal? 2 (.download asked (.u16 256)) = some (.invalidValue (.notRepresentable (.u16 256) (.unsigned .w8))) ∧
      n.perform 2 ({} : Recorder) (.download asked (.u16 256)) = ⟨n, {}, []⟩ ∧
      Value.encode (.u16 255) (.unsigned .w8) = .ok [255] ∧
      n.Appends 2 ({} : Recorder) (.download asked (.u16 255)) ⟨byteId, .write (.u8 255) [255]⟩ ∧
      n.engine.readWaits asked = false ∧ n.Appends 2 ({} : Recorder) (.upload asked) ⟨byteId, .read⟩ ∧
      n.engine.readWaits fileId = true ∧
      n.perform 2 ({} : Recorder) (.upload fileId) = ⟨n, {}, [.alreadyQueued fileId]⟩ := by
  intro n asked
  obtain ⟨-, -, hrefused, -⟩ := admission_exact 5 {} twoEntries twoReads twoEntries ({} : Recorder) 2 asked (.u16 256)
  obtain ⟨-, -, -, hbyte⟩ := admission_exact 5 {} twoEntries twoReads twoEntries ({} : Recorder) 2 asked (.u16 255)
  obtain ⟨-, -, -, hfile⟩ := admission_exact 5 {} twoEntries twoReads twoEntries ({} : Recorder) 2 fileId (.u16 255)
  have hrefusal : n.refusal? 2 (.download asked (.u16 256)) =
      some (.invalidValue (.notRepresentable (.u16 256) (.unsigned .w8))) := by decide +kernel
  have hencode : Value.encode (.u16 255) (.unsigned .w8) = .ok [255] := by decide +kernel
  have hnone : n.engine.readWaits asked = false := by decide +kernel
  have hwaits : n.engine.readWaits fileId = true := by decide +kernel
  obtain ⟨-, hread, hwrite⟩ := hbyte _ ⟨by decide +kernel, rfl⟩
  obtain ⟨hjoined, -, -⟩ := hfile _ ⟨by decide +kernel, rfl⟩
  exact ⟨hrefusal, hrefused _ _ hrefusal, hencode, hwrite [255] (by decide +kernel) hencode, hnone, hread hnone,
    hwaits, (hjoined hwaits).2⟩

end Service

end SdoClient
