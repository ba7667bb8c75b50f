/-
Which entry a request is for, as its id tells. A caller may name any bus, node, address and type. The node must be the
engine's own, the entry is looked up by the address alone, and the declared type takes the place of the one that the
caller names. The bus is not looked at: it stays as the caller wrote it, and since reads are merged by their ids, it
keeps two reads of one entry apart.

Main statements:
- `Engine.identified_accepted`: the id of an accepted call is that of the entry, but for the bus, which is the caller's;
- `identified_run`: so is every id that a service carries, in whatever it queues and publishes;
- `identity_but_for_bus`: the ids are those that the dictionary builds exactly if the callers name its bus, and then at
  most one read of an entry waits;
- `foreign_bus_kept`: a caller who names another bus gets an id that is of no entry, and a second read of the same one.
-/
import Mathlib.Tactic
import SdoClient.Proofs.Admission
import SdoClient.Proofs.LastOutcome
import SdoClient.Proofs.ReadMerging

namespace SdoClient

/-! ## Ids of entries -/

namespace Dictionary

/-- a commit changes no id -/
theorem objectId?_commit (d : Dictionary) (n : Notice) (m : Mux) (f : Entry → Entry) (hf : ∀ x, (f x).type = x.type) :
    (d.commit n f).1.objectId? m = d.objectId? m := by
  have howner : (d.commit n f).1.bus = d.bus ∧ (d.commit n f).1.node = d.node := by
    unfold commit
    split <;> exact ⟨rfl, rfl⟩
  rw [objectId?, objectId?, find?_commit, howner.1, howner.2]
  split
  · simp [Option.map_map, Function.comp_def, hf]
  · rfl

end Dictionary

/-- the end of a transfer changes no id -/
theorem Ending.objectId?_commit (clock : Time) (d : Dictionary) (a : Active) (ending : Ending) (m : Mux) :
    (ending.commit clock d a).1.objectId? m = d.objectId? m := by
  cases ending with
  | completed v => exact d.objectId?_commit _ m (Entry.succeed · v clock) fun _ => rfl
  | aborted code | abandoned code => exact d.objectId?_commit _ m (Entry.fail · code) fun _ => rfl

/-- the notice of an end has the id of its transfer -/
theorem Ending.id_of_commit {clock : Time} {d : Dictionary} {a : Active} {ending : Ending} {n : Notice}
    (h : (ending.commit clock d a).2 = some n) : n.id = a.target := by
  have hcommit : ∀ (notice : Notice) (f : Entry → Entry), (d.commit notice f).2 = some n → n = notice := by
    intro notice f hsome
    unfold Dictionary.commit at hsome
    split at hsome
    · exact (Option.some.inj hsome).symm
    · cases hsome
  cases ending with
  | completed v => rw [hcommit _ _ h]
  | aborted code | abandoned code => rw [hcommit _ _ h]

/-! ## Ids of requests -/

/-- the id that a call names -/
def Engine.Event.asked? : Engine.Event → Option ObjectId
  | .upload id | .download id _ => some id
  | _ => none

/-- the id is that of an entry of the dictionary but for the bus, which is that of one of the ids asked for -/
structure ObjectId.Identified (d : Dictionary) (asked : List ObjectId) (id : ObjectId) : Prop where
  entry : d.objectId? id.mux = some { id with bus := d.bus }
  caller : ∃ a ∈ asked, id = { a with type := id.type }

namespace ObjectId.Identified

variable {d : Dictionary} {asked more : List ObjectId} {id : ObjectId}

theorem mono (h : id.Identified d asked) (hmore : asked ⊆ more) : id.Identified d more := by
  obtain ⟨a, ha, hid⟩ := h.caller
  exact ⟨h.entry, a, hmore ha, hid⟩

/-- dictionaries with the same ids identify the same -/
theorem congr {d' : Dictionary} (h : id.Identified d' asked) (hsame : ∀ m, d'.objectId? m = d.objectId? m) :
    id.Identified d asked := by
  have hentry : d.objectId? id.mux = some { id with bus := d'.bus } := (hsame id.mux).symm.trans h.entry
  obtain ⟨x, -, hx⟩ := Option.map_eq_some_iff.1 hentry
  have hbus : d.bus = d'.bus := congrArg ObjectId.bus hx
  exact ⟨hbus ▸ hentry, h.caller⟩

/-- such an id is the one of the entry exactly if it names the bus of the dictionary -/
theorem own_iff (h : id.Identified d asked) : d.objectId? id.mux = some id ↔ id.bus = d.bus := by
  rw [h.entry, Option.some.injEq]
  constructor
  · intro hsame
    rw [← hsame]
  · intro hbus
    rw [← hbus]

/-- it names the node of the dictionary -/
theorem node (h : id.Identified d asked) : id.node = d.node := by
  obtain ⟨x, -, hx⟩ := Option.map_eq_some_iff.1 h.entry
  exact (congrArg ObjectId.node hx).symm

end ObjectId.Identified

namespace Engine

variable {e : Engine} {d : Dictionary} {o : Occasion} {t : Transfer}

/-- **What a call is accepted for.** The id of an accepted call is that of the entry but for the bus, which is the
caller's. -/
theorem identified_accepted (h : e.accepted d o = some t) : t.target.Identified d o.event.asked?.toList := by
  obtain ⟨asked, id, x, hresolve, hjob⟩ := accepted_cases h
  have htarget : t.target = id := by
    rcases hjob with ⟨-, -, rfl⟩ | ⟨v, -, -, rfl⟩ <;> rfl
  have hasked : o.event.asked? = some asked := by
    rcases hjob with ⟨hevent, -⟩ | ⟨v, hevent, -⟩ <;> rw [hevent] <;> rfl
  rcases e.unaddressed_or_addresses d asked with ⟨cause, hcause⟩ | ⟨y, hy⟩
  · cases hcause.resolve.symm.trans hresolve
  · cases hy.resolve.symm.trans hresolve
    obtain ⟨hnode, hown⟩ := not_or.1 hy.own
    rw [htarget, hasked]
    refine ⟨?_, asked, List.mem_singleton_self asked, rfl⟩
    rw [Dictionary.objectId?, hy.found, Option.map_some, not_not.1 hnode, not_not.1 hown]

/-- no event changes an id of the dictionary -/
theorem objectId?_step (e : Engine) (d : Dictionary) (o : Occasion) (m : Mux) :
    (e.step d o).dictionary.objectId? m = d.objectId? m := by
  rcases e.step_dictionary d o with hsame | ⟨a, -, _, ending, -, hcommit⟩
  · rw [hsame]
  · rw [hcommit]
    exact ending.objectId?_commit o.clock d a m

/-- what an event publishes is about a transfer that was pending -/
theorem pending_of_notice {n : Notice} (h : n ∈ notices (e.step d o).effects) :
    n.id ∈ e.pending.map Transfer.target := by
  rcases e.step_closing d o with ⟨-, -, hnone⟩ | ⟨a, -, ending, ha, -, -, -, -, hn⟩
  · rw [hnone] at h
    cases h
  · rw [hn] at h
    rw [Ending.id_of_commit (Option.mem_toList.1 h), pending, ha]
    simp [Active.target_transfer]

end Engine

/-! ## Runs -/

namespace Service

/-- the ids that a service carries: of its transfers in progress and waiting, and of what it published -/
def carried (s : Service) : List ObjectId := s.engine.pending.map Transfer.target ++ s.published.map Notice.id

/-- the ids that the calls of a run name -/
def asked (ms : List Move) : List ObjectId :=
  ms.filterMap fun
    | .event o => o.event.asked?
    | .exchange _ => none

/-- **Step lemma.** An event brings no id but the one of the call that it accepts. -/
theorem carried_event (s : Service) (o : Engine.Occasion) {id : ObjectId} (h : id ∈ (s.move (.event o)).carried) :
    id ∈ s.carried ∨ ∃ t, s.engine.accepted s.dictionary o = some t ∧ t.target = id := by
  rcases List.mem_append.1 h with hpending | hpublished
  · obtain ⟨t, ht, rfl⟩ := List.mem_map.1 hpending
    have hmem : t ∈ s.engine.pending ++ (s.engine.accepted s.dictionary o).toList := by
      rw [Engine.step_pending]
      exact List.mem_append_right _ ht
    rcases List.mem_append.1 hmem with hold | hnew
    · exact .inl (List.mem_append_left _ (List.mem_map_of_mem hold))
    · exact .inr ⟨t, Option.mem_toList.1 hnew, rfl⟩
  · obtain ⟨n, hn, rfl⟩ := List.mem_map.1 hpublished
    rcases List.mem_append.1 hn with hold | hnew
    · exact .inl (List.mem_append_right _ (List.mem_map_of_mem hold))
    · exact .inl (List.mem_append_left _ (Engine.pending_of_notice hnew))

/-- **Run lemma.** As long as whoever changes the dictionary keeps its entries and their types, every id that a service
carries is that of an entry but for the bus. -/
theorem identified_run (node : UInt8) (config : Config) (d : Dictionary) {ms : List Move}
    (hkeeps : ∀ d', .exchange d' ∈ ms → ∀ m, d'.objectId? m = d.objectId? m) :
    let s := (start node config d).run ms
    (∀ m, s.dictionary.objectId? m = d.objectId? m) ∧ ∀ id ∈ s.carried, id.Identified d (asked ms) := by
  induction ms using List.reverseRecOn with
  | nil => exact ⟨fun _ => rfl, fun _ hid => absurd hid List.not_mem_nil⟩
  | append_singleton ms m ih =>
    have hms : ∀ d', .exchange d' ∈ ms → ∀ m, d'.objectId? m = d.objectId? m :=
      fun d' hd' => hkeeps d' (List.mem_append_left _ hd')
    obtain ⟨hsame, hids⟩ := ih hms
    have hmore : asked ms ⊆ asked (ms ++ [m]) := by
      rw [asked, asked, List.filterMap_append]
      exact List.subset_append_left _ _
    rw [run_snoc]
    cases m with
    | exchange d' =>
      exact ⟨hkeeps d' (List.mem_append_right _ List.mem_cons_self), fun id hid => (hids id hid).mono hmore⟩
    | event o =>
      refine ⟨fun m => (Engine.objectId?_step _ _ o m).trans (hsame m), ?_⟩
      intro id hid
      rcases carried_event _ o hid with hold | ⟨t, ht, rfl⟩
      · exact (hids id hold).mono hmore
      · have hnew : o.event.asked?.toList ⊆ asked (ms ++ [.event o]) := by
          rw [asked, List.filterMap_append]
          intro a ha
          exact List.mem_append_right _ (by simpa using Option.mem_toList.1 ha)
        exact ((Engine.identified_accepted ht).congr hsame).mono hnew

/-- the transfer is a read of the entry at this address, whatever bus its id names -/
def readsAt (m : Mux) (t : Transfer) : Bool := t.direction = .upload && t.target.mux = m

/-- at most one read of an entry waits with an id of each bus -/
theorem waiting_once (node : UInt8) (config : Config) (d : Dictionary) {ms : List Move}
    (hkeeps : ∀ d', .exchange d' ∈ ms → ∀ m, d'.objectId? m = d.objectId? m) (m : Mux) (bus : UInt8) :
    ((start node config d).run ms).engine.queue.countP (fun t => readsAt m t && t.target.bus = bus) ≤ 1 := by
  obtain ⟨-, hids⟩ := identified_run node config d hkeeps
  have honce : ∀ id, ((start node config d).run ms).engine.queue.countP (Transfer.reads id) ≤ 1 :=
    run_engine (P := fun e => ∀ id, e.queue.countP (Transfer.reads id) ≤ 1) Engine.step_queuedOnce
      (s := start node config d) (fun _ => Nat.zero_le _) ms
  refine (List.countP_mono_left fun t ht hreads => ?_).trans (honce ⟨bus, d.node, m, .domain⟩)
  have hid : t.target ∈ ((start node config d).run ms).carried :=
    List.mem_append_left _ (List.mem_map_of_mem (List.mem_append_right _ ht))
  have hnode := (hids _ hid).node
  simp only [readsAt, Bool.and_eq_true, decide_eq_true_eq] at hreads
  obtain ⟨⟨hread, hmux⟩, hbus⟩ := hreads
  simp [Transfer.reads, ObjectId.sameObject, hread, hmux, hbus, hnode]

/-- **Requests carry the identity of their entry, but for the bus.** Whatever calls, with whatever ids, and whatever
frames and timers a new engine meets, as long as whoever changes the dictionary keeps its entries and their types: the
id of each transfer in progress or waiting, and of each notice published, has the node, the address and the type that
the dictionary gives this entry, and the bus that a caller named. So it is the id that the dictionary builds exactly if
that is the bus of the dictionary. The reads of one entry that wait name different buses. If all callers name the bus of
the dictionary, all ids are those that it builds, and at most one read of each entry waits. -/
theorem identity_but_for_bus (node : UInt8) (config : Config) (d : Dictionary) (ms : List Move)
    (hkeeps : ∀ d', .exchange d' ∈ ms → ∀ m, d'.objectId? m = d.objectId? m) :
    let s := (start node config d).run ms
    (∀ id ∈ s.carried,
        d.objectId? id.mux = some { id with bus := d.bus } ∧ (∃ a ∈ asked ms, id = { a with type := id.type }) ∧
        (d.objectId? id.mux = some id ↔ id.bus = d.bus)) ∧
      (∀ m, ((s.engine.queue.filter (readsAt m)).map fun t => t.target.bus).Nodup) ∧
      ((∀ a ∈ asked ms, a.bus = d.bus) →
        (∀ id ∈ s.carried, d.objectId? id.mux = some id) ∧ ∀ m, s.engine.queue.countP (readsAt m) ≤ 1) := by
  intro s
  obtain ⟨-, hids⟩ := identified_run node config d hkeeps
  have honce := waiting_once node config d hkeeps
  refine ⟨?_, ?_, ?_⟩
  · intro id hid
    have h := hids id hid
    exact ⟨h.entry, h.caller, h.own_iff⟩
  · intro m
    rw [List.nodup_iff_count_le_one]
    intro bus
    have hcount := honce m bus
    rw [List.count_eq_countP, List.countP_map, List.countP_filter]
    refine le_of_eq_of_le (List.countP_congr fun t _ => ?_) hcount
    simp [and_comm]
  · intro hown
    have hbus : ∀ id ∈ s.carried, id.bus = d.bus := by
      intro id hid
      obtain ⟨a, ha, hida⟩ := (hids id hid).caller
      rw [hida]
      exact hown a ha
    refine ⟨fun id hid => (hids id hid).own_iff.2 (hbus id hid), fun m => ?_⟩
    refine le_of_eq_of_le (List.countP_congr fun t ht => ?_) (honce m d.bus)
    have hid : t.target ∈ s.carried :=
      List.mem_append_left _ (List.mem_map_of_mem (List.mem_append_right _ ht))
    simp [hbus _ hid]

/-- the id of the byte with another bus -/
def foreignId : ObjectId := { byteId with bus := 7 }

/-- the byte is being read, someone subscribes, a second read of the byte waits, and a third call names another bus -/
def foreignMoves : List Move :=
  [.event ⟨0, true, .upload byteId⟩, .exchange { twoEntries with feed := twoEntries.feed.subscribe },
    .event ⟨1, true, .upload byteId⟩, .event ⟨2, true, .upload foreignId⟩]

theorem keeps_foreignMoves (d' : Dictionary) (h : .exchange d' ∈ foreignMoves) (m : Mux) :
    d'.objectId? m = twoEntries.objectId? m := by
  simp only [foreignMoves, List.mem_cons, List.not_mem_nil, or_false, reduceCtorEq, false_or, Move.exchange.injEq] at h
  rw [h]
  rfl

/-- before the third call all ids are those of the dictionary and one read waits; then two do, with different buses -/
theorem identity_but_for_bus_foreign :
    let own := (start 5 {} twoEntries).run (foreignMoves.take 3)
    let s := (start 5 {} twoEntries).run foreignMoves
    (∀ d', .exchange d' ∈ foreignMoves → ∀ m, d'.objectId? m = twoEntries.objectId? m) ∧
      (∀ a ∈ asked (foreignMoves.take 3), a.bus = twoEntries.bus) ∧
      (∀ id ∈ own.carried, twoEntries.objectId? id.mux = some id) ∧
      own.engine.queue.countP (readsAt byteId.mux) = 1 ∧ foreignId ∈ s.carried ∧
      twoEntries.objectId? byteId.mux = some { foreignId with bus := twoEntries.bus } ∧
      twoEntries.objectId? byteId.mux ≠ some foreignId ∧
      (s.engine.queue.filter (readsAt byteId.mux)).map (fun t => t.target.bus) = [0, 7] ∧
      ((s.engine.queue.filter (readsAt byteId.mux)).map fun t => t.target.bus).Nodup := by
  intro own s
  have hkeeps := keeps_foreignMoves
  have hfirst : ∀ d', .exchange d' ∈ foreignMoves.take 3 → ∀ m, d'.objectId? m = twoEntries.objectId? m :=
    fun d' hd' => hkeeps d' (List.mem_of_mem_take hd')
  have hbus : ∀ a ∈ asked (foreignMoves.take 3), a.bus = twoEntries.bus := by decide +kernel
  have hcarried : foreignId ∈ s.carried := by decide +kernel
  obtain ⟨-, -, hown⟩ := identity_but_for_bus 5 {} twoEntries (foreignMoves.take 3) hfirst
  obtain ⟨hids, hnodup, -⟩ := identity_but_for_bus 5 {} twoEntries foreignMoves hkeeps
  obtain ⟨hentry, -, hiff⟩ := hids foreignId hcarried
  refine ⟨hkeeps, hbus, (hown hbus).1, by decide +kernel, hcarried, hentry, ?_, by decide +kernel, hnodup _⟩
  intro hsame
  exact absurd (hiff.1 hsame) (by decide)

/-- a caller who names another bus than that of the dictionary has an id carried that is of no entry, and a second read
of an entry for which one waits already -/
theorem foreign_bus_kept :
    (¬∀ (node : UInt8) (config : Config) (d : Dictionary) (ms : List Move),
      (∀ d', .exchange d' ∈ ms → ∀ m, d'.objectId? m = d.objectId? m) →
        ∀ id ∈ ((start node config d).run ms).carried, d.objectId? id.mux = some id) ∧
    ¬∀ (node : UInt8) (config : Config) (d : Dictionary) (ms : List Move),
      (∀ d', .exchange d' ∈ ms → ∀ m, d'.objectId? m = d.objectId? m) →
        ∀ m, ((start node config d).run ms).engine.queue.countP (readsAt m) ≤ 1 := by
  refine ⟨fun hclaimed => ?_, fun hclaimed => ?_⟩
  · have hid := hclaimed 5 {} twoEntries foreignMoves keeps_foreignMoves foreignId (by decide +kernel)
    exact absurd hid (by decide +kernel)
  · have honce := hclaimed 5 {} twoEntries foreignMoves keeps_foreignMoves byteId.mux
    exact absurd honce (by decide +kernel)

end Service

end SdoClient
