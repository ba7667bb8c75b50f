/-
The types of the values in a dictionary. The builders and the local calls look at the type of a value before they keep
it; a transfer that completes stores its value unseen. That goes well because the type is looked up when the transfer is
queued, and the octets of a read and the value of a write are both taken in as this type.

Main statement: `store_typed`. Whatever the engine meets and whatever local calls come in between, every value and every
default in the dictionary fits the declared type of its entry, as long as no entry changes its type under a pending
transfer.
-/
import Mathlib.Tactic
import SdoClient.Proofs.Ending
import SdoClient.Proofs.Service
import SdoClient.Proofs.ValueRoundTrip

namespace SdoClient

/-! ## Builders and local calls -/

/-- the entries that the builders make -/
inductive Entry.Built : Entry → Prop
  | new (subIndex : UInt8) (name : String) (type : DataType) (access : Access) : Built { subIndex, name, type, access }
  | withDefault {x : Entry} (h : Built x) (v : Value) : Built (x.withDefault v)
  | withLimits {x : Entry} (h : Built x) (low high : Option Value) : Built (x.withLimits low high)
  | withScale {x : Entry} (h : Built x) (scale : UInt64) : Built { x with scale }
  | withUnit {x : Entry} (h : Built x) (unit : String) : Built { x with unit }
  | withFixedPoint {x : Entry} (h : Built x) (fixedPoint : Bool) : Built { x with fixedPoint }

/-- the objects that the builders make -/
inductive Object.Built : Object → Prop
  | new (index : UInt16) (name : String) (kind : ObjectKind) : Built { index, name, kind }
  | add {o : Object} {x : Entry} (h : Built o) (hx : x.Built) : Built (o.add x)

/-- the dictionaries that the builders make -/
inductive Dictionary.Built : Dictionary → Prop
  | new (bus node : UInt8) : Built { bus, node }
  | insert {d : Dictionary} {o : Object} (h : Built d) (ho : o.Built) : Built (d.insert o)
  | addEntry {d : Dictionary} {x : Entry} (h : Built d) (index : UInt16) (hx : x.Built) : Built (d.addEntry index x)

/-- what the owner of a dictionary can do to it, and when where the time matters; completed transfers are left to the
engine -/
inductive LocalCall where
  | setValue (m : Mux) (v : Value) (clock : Time)
  | clear (m : Mux) (clock : Time)
  | reset (m : Mux) (clock : Time)
  | resetAll (clock : Time)
  /-- a new object, in the stead of one with its index -/
  | insert (o : Object)
  /-- a new entry of an object, in the stead of one with its sub-index -/
  | addEntry (index : UInt16) (x : Entry)
  /-- another entry at an address -/
  | replace (m : Mux) (x : Entry)
  /-- notes the failure of a transfer -/
  | commitError (id : ObjectId) (code : AbortCode) (direction : Direction)
  /-- subscribers come, collect and go -/
  | feed (f : Feed)

namespace LocalCall

/-- the dictionary after a call; a refused value changes nothing -/
def apply (d : Dictionary) : LocalCall → Dictionary
  | setValue m v clock => (d.setValue m v clock).toOption.getD d
  | clear m clock => d.modify m (Entry.clear · clock)
  | reset m clock => d.modify m (Entry.reset · clock)
  | resetAll clock => d.resetAll clock
  | insert o => d.insert o
  | addEntry index x => d.addEntry index x
  | replace m x => d.modify m fun _ => x
  | commitError id code direction => (d.commitError id code direction).1
  | feed f => { d with feed := f }

/-- what a call brings in was made by the builders -/
def Proper : LocalCall → Prop
  | insert o => o.Built
  | addEntry _ x | replace _ x => x.Built
  | _ => True

end LocalCall

/-! ## Entries that fit their type -/

/-- the value and the default fit the declared type -/
structure Entry.Typed (x : Entry) : Prop where
  value : ∀ v, x.value = some v → v.fits x.type = true
  default : ∀ v, x.default = some v → v.fits x.type = true

namespace Entry

variable {x : Entry}

theorem Typed.withDefault (h : x.Typed) (v : Value) : (x.withDefault v).Typed := by
  unfold Entry.withDefault
  split
  · rename_i hfits
    exact ⟨fun w hw => Option.some.inj hw ▸ hfits, fun w hw => Option.some.inj hw ▸ hfits⟩
  · exact h

theorem Built.typed (h : x.Built) : x.Typed := by
  induction h with
  | new subIndex name type access => exact ⟨fun v hv => absurd hv (by simp), fun v hv => absurd hv (by simp)⟩
  | withDefault _ v ih => exact ih.withDefault v
  | withLimits _ _ _ ih | withScale _ _ ih | withUnit _ _ ih | withFixedPoint _ _ ih => exact ⟨ih.value, ih.default⟩

theorem Typed.setValue {x' : Entry} {v : Value} {clock : Time} (h : x.Typed) (hset : x.setValue v clock = .ok x') :
    x'.Typed := by
  obtain ⟨hfits, rfl⟩ := setValue_eq_ok.1 hset
  exact ⟨fun w hw => Option.some.inj hw ▸ hfits, h.default⟩

theorem Typed.clear (h : x.Typed) (clock : Time) : (x.clear clock).Typed :=
  ⟨fun v hv => absurd hv (by simp [Entry.clear]), h.default⟩

theorem Typed.reset (h : x.Typed) (clock : Time) : (x.reset clock).Typed := ⟨h.default, h.default⟩

theorem Typed.fail (h : x.Typed) (code : AbortCode) : (x.fail code).Typed := ⟨h.value, h.default⟩

/-- a result of the declared type -/
theorem Typed.succeed (h : x.Typed) {v : Option Value} (hv : ∀ w, v = some w → w.fits x.type = true) (clock : Time) :
    (x.succeed v clock).Typed := ⟨hv, h.default⟩

end Entry

/-! ## Dictionaries whose entries fit -/

/-- every entry of the object fits its type -/
def Object.Typed (o : Object) : Prop := ∀ k x, o.entries.find? k = some x → x.Typed

/-- every entry of the dictionary fits its type -/
def Dictionary.Typed (d : Dictionary) : Prop := ∀ m x, d.find? m = some x → x.Typed

/-- the entries of an object that the builders make were made by them -/
theorem Object.Built.entry {o : Object} (h : o.Built) {k : UInt8} {x : Entry} (hx : o.entries.find? k = some x) :
    x.Built := by
  induction h with
  | new index name kind => exact nomatch hx
  | add _ hnew ih =>
    rw [Object.add, SortedMap.find?_insert] at hx
    split at hx
    · cases hx
      exact hnew
    · exact ih hx

theorem Object.Built.typed {o : Object} (h : o.Built) : o.Typed := fun _ _ hx => (h.entry hx).typed

namespace Dictionary

variable {d : Dictionary}

theorem find?_insert (d : Dictionary) (o : Object) (m : Mux) :
    (d.insert o).find? m = if m.index = o.index then o.entries.find? m.subIndex else d.find? m := by
  simp only [find?, insert, SortedMap.find?_insert]
  split <;> rfl

theorem find?_addEntry (d : Dictionary) (index : UInt16) (x : Entry) (m : Mux) :
    (d.addEntry index x).find? m =
      if m = ⟨index, x.subIndex⟩ ∧ (d.objects.find? index).isSome then some x else d.find? m := by
  obtain ⟨i, k⟩ := m
  simp only [find?, addEntry, SortedMap.find?_modify, Mux.mk.injEq]
  by_cases hi : i = index
  · subst hi
    cases hobject : d.objects.find? i with
    | none => simp
    | some o => simp [Object.add, SortedMap.find?_insert]
  · simp [hi]

theorem find?_resetAll (d : Dictionary) (clock : Time) (m : Mux) :
    (d.resetAll clock).find? m = (d.find? m).map (Entry.reset · clock) := by
  simp only [find?, resetAll, SortedMap.find?_map]
  cases d.objects.find? m.index <;> simp [SortedMap.find?_map]

theorem Typed.insert (h : d.Typed) {o : Object} (ho : o.Typed) : (d.insert o).Typed := by
  intro m x hx
  rw [find?_insert] at hx
  split at hx
  · exact ho _ x hx
  · exact h m x hx

theorem Typed.addEntry (h : d.Typed) (index : UInt16) {x : Entry} (hx : x.Typed) : (d.addEntry index x).Typed := by
  intro m y hy
  rw [find?_addEntry] at hy
  split at hy
  · cases hy
    exact hx
  · exact h m y hy

theorem Typed.resetAll (h : d.Typed) (clock : Time) : (d.resetAll clock).Typed := by
  intro m x hx
  rw [find?_resetAll] at hx
  obtain ⟨y, hy, rfl⟩ := Option.map_eq_some_iff.1 hx
  exact (h m y hy).reset clock

/-- a change of one entry that keeps it fitting -/
theorem Typed.modify (h : d.Typed) (m : Mux) {f : Entry → Entry}
    (hf : ∀ x, d.find? m = some x → x.Typed → (f x).Typed) : (d.modify m f).Typed := by
  intro n x hx
  rw [find?_modify] at hx
  split at hx
  · rename_i hn
    obtain ⟨y, hy, rfl⟩ := Option.map_eq_some_iff.1 hx
    exact hf y (hn ▸ hy) (h n y hy)
  · exact h n x hx

/-- the end of a transfer, if what it does to the entry keeps it fitting -/
theorem Typed.commit (h : d.Typed) (n : Notice) {f : Entry → Entry}
    (hf : ∀ x, d.find? n.id.mux = some x → x.Typed → (f x).Typed) : (d.commit n f).1.Typed := by
  unfold Dictionary.commit
  split
  · exact h.modify n.id.mux hf
  · exact h

theorem Typed.setValue (h : d.Typed) (m : Mux) (v : Value) (clock : Time) :
    ((d.setValue m v clock).toOption.getD d).Typed := by
  unfold Dictionary.setValue
  split
  · rename_i x hx
    cases hset : x.setValue v clock with
    | error cause => exact h
    | ok x' => exact h.modify m fun _ _ _ => (h m x hx).setValue hset
  · exact h

/-- the entries of a dictionary that the builders make were made by them -/
theorem Built.entry (h : d.Built) {m : Mux} {x : Entry} (hx : d.find? m = some x) : x.Built := by
  induction h with
  | new bus node => exact nomatch hx
  | insert _ ho ih =>
    rw [find?_insert] at hx
    split at hx
    · exact ho.entry hx
    · exact ih hx
  | addEntry _ index hnew ih =>
    rw [find?_addEntry] at hx
    split at hx
    · cases hx
      exact hnew
    · exact ih hx

theorem Built.typed (h : d.Built) : d.Typed := fun _ _ hx => (h.entry hx).typed

end Dictionary

/-- a local call keeps every entry fitting -/
theorem LocalCall.apply_typed {d : Dictionary} (h : d.Typed) {c : LocalCall} (hc : c.Proper) : (c.apply d).Typed := by
  cases c with
  | setValue m v clock => exact h.setValue m v clock
  | clear m clock => exact h.modify m fun _ _ hx => hx.clear clock
  | reset m clock => exact h.modify m fun _ _ hx => hx.reset clock
  | resetAll clock => exact h.resetAll clock
  | insert o => exact h.insert (Object.Built.typed hc)
  | addEntry index x => exact h.addEntry index (Entry.Built.typed hc)
  | replace m x => exact h.modify m fun _ _ _ => Entry.Built.typed hc
  | commitError id code direction => exact h.commit _ fun _ _ hx => hx.fail code
  | feed f => exact h

/-! ## Pending transfers -/

/-- a write carries a value of the type that it was queued with -/
def Transfer.Typed (t : Transfer) : Prop :=
  match t.job with
  | .read => True
  | .write v _ _ => v.fits t.target.type = true

/-- the entry that the transfer addresses, if there is one, has the type that the transfer was queued with -/
def Transfer.Agrees (d : Dictionary) (t : Transfer) : Prop := ∀ x ∈ d.find? t.target.mux, x.type = t.target.type

instance (d : Dictionary) (t : Transfer) : Decidable (t.Agrees d) :=
  inferInstanceAs (Decidable (∀ x ∈ d.find? t.target.mux, x.type = t.target.type))

/-- a write holds what a read of its octets would return, or the value that was asked for -/
theorem Transfer.typed_ofWrite {id : ObjectId} {v : Value} (h : v.fits id.type = true) :
    (Transfer.ofWrite id v).Typed := by
  change ((Value.decode (v.payload id.type) id.type).getD v).fits id.type = true
  cases hread : Value.decode (v.payload id.type) id.type with
  | none => exact h
  | some w => exact (Value.payload_decode hread).1

/-- what a transfer stores when it completes is of the type that it was queued with -/
theorem Active.fits_result {a : Active} (h : a.transfer.Typed) (response : Response) {w : Value}
    (hw : a.result response = some w) : w.fits a.target.type = true := by
  cases a with
  | reading r => exact (Value.payload_decode hw).1
  | writing x =>
    cases hw
    exact h

namespace Engine

variable {e : Engine} {d : Dictionary} {o : Occasion} {t : Transfer}

/-- a call is taken for the entry that the dictionary has, with the type that this entry declares -/
theorem resolve_ok {asked id : ObjectId} {x : Entry} (h : e.resolve d asked = .ok (id, x)) :
    d.find? id.mux = some x ∧ id.type = x.type := by
  unfold resolve at h
  split at h
  · cases h
  · split at h
    · cases h
    · rename_i hx
      cases h
      exact ⟨hx, rfl⟩

/-- what an event queues agrees with the dictionary -/
theorem accepted_typed (h : e.accepted d o = some t) : t.Agrees d ∧ t.Typed := by
  obtain ⟨asked, id, x, hresolve, hjob⟩ := accepted_cases h
  obtain ⟨hx, htype⟩ := resolve_ok hresolve
  have hagrees (job : Job) : Transfer.Agrees d ⟨id, job⟩ := by
    intro y hy
    have hsame : d.find? id.mux = some y := hy
    rw [hx] at hsame
    cases hsame
    exact htype.symm
  rcases hjob with ⟨-, -, rfl⟩ | ⟨v, -, hfits, rfl⟩
  · exact ⟨hagrees _, trivial⟩
  · exact ⟨hagrees _, Transfer.typed_ofWrite hfits⟩

/-- what is accepted is for an entry of the dictionary -/
theorem accepted_found (h : e.accepted d o = some t) : (d.find? t.target.mux).isSome := by
  obtain ⟨asked, id, x, hresolve, hjob⟩ := accepted_cases h
  have htarget : t.target = id := by
    rcases hjob with ⟨-, -, rfl⟩ | ⟨v, -, -, rfl⟩ <;> rfl
  rw [htarget, (resolve_ok hresolve).1, Option.isSome_some]

/-- an event leaves the dictionary alone, or it commits the end of the transfer in progress -/
theorem step_dictionary (e : Engine) (d : Dictionary) (o : Occasion) :
    (e.step d o).dictionary = d ∨ ∃ a ∈ e.active, ∃ s ending,
      (a.respond e.config s).fate = .ends ending ∧ (e.step d o).dictionary = (ending.commit o.clock d a).1 := by
  cases e.step_passes d o with
  | idle ha => exact .inl (step_idle ha).2.1
  | unmoved ha hs => exact .inl (step_unmoved ha hs).2.1
  | goesOn _ _ _ _ hc =>
    obtain ⟨-, -, -, -, hd, -⟩ := hc
    exact .inl hd
  | ends ha _ hf _ hc =>
    obtain ⟨-, hd, -⟩ := hc
    exact .inr ⟨_, ha, _, _, hf, hd⟩

end Engine

/-- no commit adds or removes an entry -/
theorem Ending.isSome_find?_commit {clock : Time} {d : Dictionary} {a : Active} {m : Mux} (ending : Ending) :
    ((ending.commit clock d a).1.find? m).isSome = (d.find? m).isSome := by
  cases ending <;> simp only [commit, Dictionary.find?_commitValue, Dictionary.find?_commitError] <;> split <;>
    simp only [Option.isSome_map]

/-- the end of a transfer keeps every entry fitting -/
theorem Ending.commit_typed {config : Config} {d : Dictionary} {a : Active} {s : Stimulus} {ending : Ending}
    (h : d.Typed) (hagrees : a.transfer.Agrees d) (htyped : a.transfer.Typed)
    (hf : (a.respond config s).fate = .ends ending) (clock : Time) : (ending.commit clock d a).1.Typed := by
  cases ending with
  | completed v =>
    obtain ⟨data, response, -, -, hresult⟩ := a.respond_justified hf
    refine h.commit _ fun x hx htypedx => htypedx.succeed (fun w hw => ?_) clock
    have htype : x.type = a.target.type := by
      rw [← Active.target_transfer] at hx ⊢
      exact hagrees x hx
    rw [htype]
    exact Active.fits_result htyped response (hresult ▸ hw)
  | aborted code | abandoned code => exact h.commit _ fun _ _ hx => hx.fail code

/-- the end of a transfer changes no type -/
theorem Ending.commit_agrees {clock : Time} {d : Dictionary} {a : Active} {t : Transfer} (ending : Ending)
    (h : t.Agrees d) : t.Agrees (ending.commit clock d a).1 := by
  have hcommit : ∀ (n : Notice) (f : Entry → Entry), (∀ x, (f x).type = x.type) → t.Agrees (d.commit n f).1 := by
    intro n f hf x hx
    have hx : (d.commit n f).1.find? t.target.mux = some x := hx
    rw [Dictionary.find?_commit] at hx
    split at hx
    · obtain ⟨y, hy, rfl⟩ := Option.map_eq_some_iff.1 hx
      rw [hf]
      exact h y hy
    · exact h x hx
  cases ending with
  | completed v => exact hcommit _ _ fun _ => rfl
  | aborted code | abandoned code => exact hcommit _ _ fun _ => rfl

/-! ## Runs -/

namespace Service

/-- no event loses the entry of a pending transfer -/
theorem Held.event {s : Service} (h : s.Held) (o : Engine.Occasion) : (s.move (.event o)).Held := by
  intro t ht
  have hpending : t ∈ s.engine.pending ++ (s.engine.accepted s.dictionary o).toList := by
    rw [Engine.step_pending]
    exact List.mem_append_right _ ht
  have hfound : (s.dictionary.find? t.target.mux).isSome := by
    rcases List.mem_append.1 hpending with hold | hnew
    · exact h t hold
    · exact Engine.accepted_found (Option.mem_toList.1 hnew)
  rcases Engine.step_dictionary s.engine s.dictionary o with hsame | ⟨a, -, _, ending, -, hcommit⟩
  · rwa [← hsame] at hfound
  · rw [← ending.isSome_find?_commit (a := a), ← hcommit] at hfound
    exact hfound

/-- every pending transfer agrees with the dictionary about its type -/
def Agreed (s : Service) : Prop := ∀ t ∈ s.engine.pending, t.Agrees s.dictionary

instance (s : Service) : Decidable s.Agreed := inferInstanceAs (Decidable (∀ t ∈ s.engine.pending, t.Agrees _))

/-- the dictionary changes between two events by a local call, and not so that the entry of a pending transfer gets
another type -/
def ProperMove (s : Service) : Move → Prop
  | .event _ => True
  | .exchange d => (∃ c : LocalCall, c.Proper ∧ c.apply s.dictionary = d) ∧ (s.move (.exchange d)).Agreed

/-- all dictionary changes of a run are proper -/
def Proper (s : Service) : List Move → Prop
  | [] => True
  | m :: rest => s.ProperMove m ∧ (s.move m).Proper rest

/-- the dictionary and all that may get into it fit their types -/
structure Typed (s : Service) : Prop where
  store : s.dictionary.Typed
  agreed : s.Agreed
  pending : ∀ t ∈ s.engine.pending, t.Typed

/-- **Step lemma.** -/
theorem Typed.move {s : Service} (h : s.Typed) {m : Move} (hm : s.ProperMove m) : (s.move m).Typed := by
  cases m with
  | exchange d =>
    obtain ⟨⟨c, hc, rfl⟩, hagreed⟩ := hm
    exact ⟨LocalCall.apply_typed h.store hc, hagreed, h.pending⟩
  | event o =>
    let e := s.engine
    let d := s.dictionary
    have hbefore : ∀ t ∈ (e.step d o).engine.pending, t.Agrees d ∧ t.Typed := by
      intro t ht
      have hmem : t ∈ e.pending ++ (e.accepted d o).toList := by
        rw [Engine.step_pending]
        exact List.mem_append_right _ ht
      rcases List.mem_append.1 hmem with hmem | hmem
      · exact ⟨h.agreed t hmem, h.pending t hmem⟩
      · exact Engine.accepted_typed (Option.mem_toList.1 hmem)
    rcases Engine.step_dictionary e d o with hd | ⟨a, ha, stimulus, ending, hf, hd⟩
    · refine ⟨?_, ?_, fun t ht => (hbefore t ht).2⟩
      · change (e.step d o).dictionary.Typed
        rw [hd]
        exact h.store
      · intro t ht
        change t.Agrees (e.step d o).dictionary
        rw [hd]
        exact (hbefore t ht).1
    · have hactive : a.transfer ∈ e.pending :=
        List.mem_append_left _ (List.mem_map_of_mem (Option.mem_toList.2 ha))
      refine ⟨?_, ?_, fun t ht => (hbefore t ht).2⟩
      · change (e.step d o).dictionary.Typed
        rw [hd]
        exact Ending.commit_typed h.store (h.agreed _ hactive) (h.pending _ hactive) hf o.clock
      · intro t ht
        change t.Agrees (e.step d o).dictionary
        rw [hd]
        exact ending.commit_agrees (hbefore t ht).1

theorem Typed.run {s : Service} (h : s.Typed) {ms : List Move} (hms : s.Proper ms) : (s.run ms).Typed := by
  induction ms generalizing s with
  | nil => exact h
  | cons m rest ih => exact ih (h.move hms.1) hms.2

/-- **Every value in the store has its declared type.** A new engine on a dictionary of the builders, whatever calls,
frames, timeouts, ticks and polls it meets, and whatever local calls change the dictionary meanwhile: as long as no
entry gets another type while a transfer on it is pending, and only the engine commits values, every value and every
default fits the declared type of its entry. -/
theorem store_typed (node : UInt8) (config : Config) (d : Dictionary) (ms : List Move) (hd : d.Built)
    (hms : (start node config d).Proper ms) :
    ∀ m x, ((start node config d).run ms).dictionary.find? m = some x →
      (∀ v, x.value = some v → v.fits x.type = true) ∧ ∀ v, x.default = some v → v.fits x.type = true := by
  intro m x hx
  have hstart : (start node config d).Typed := by
    have hnone : (start node config d).engine.pending = [] := rfl
    refine ⟨hd.typed, ?_, ?_⟩
    · intro t ht
      rw [hnone] at ht
      cases ht
    · intro t ht
      rw [hnone] at ht
      cases ht
  obtain ⟨hvalue, hdefault⟩ := (hstart.run hms).store m x hx
  exact ⟨hvalue, hdefault⟩

/-- a byte as the builders make it, with a default that does not fit and one that does -/
def levelEntry : Entry :=
  (({ subIndex := 1, name := "level", type := .unsigned .w8, access := {} } : Entry).withDefault (.u16 300)).withDefault
    (.u8 7)

/-- a dictionary of node 5 with this one entry -/
def levels : Dictionary :=
  (({ bus := 0, node := 5 } : Dictionary).insert { index := 0x2000, name := "levels" }).addEntry 0x2000 levelEntry

/-- the owner stages a value, a read is queued, another entry of the same type takes the place, the read is answered -/
def levelMoves : List Move :=
  let staged := (LocalCall.setValue ⟨0x2000, 1⟩ (.u8 9) 0).apply levels
  [.exchange staged, .event ⟨0, true, .upload ⟨0, 5, ⟨0x2000, 1⟩, .boolean⟩⟩,
    .exchange ((LocalCall.replace ⟨0x2000, 1⟩ levelEntry).apply staged),
    .event ⟨1, true, .frame ⟨0x585, [0x4f, 0x00, 0x20, 0x01, 0x55, 0, 0, 0]⟩⟩]

theorem store_typed_level :
    let s := (start 5 {} levels).run levelMoves
    levels.Built ∧ (start 5 {} levels).Proper levelMoves ∧
      ∃ x, s.dictionary.find? ⟨0x2000, 1⟩ = some x ∧ x.value = some (.u8 0x55) ∧ x.default = some (.u8 7) ∧
        (Value.u8 0x55).fits x.type = true ∧ (Value.u8 7).fits x.type = true := by
  intro s
  have hentry : levelEntry.Built := ((Entry.Built.new _ _ _ _).withDefault _).withDefault _
  have hbuilt : levels.Built := ((Dictionary.Built.new 0 5).insert (Object.Built.new _ _ _)).addEntry _ hentry
  have hproper : (start 5 {} levels).Proper levelMoves := by
    refine ⟨⟨⟨.setValue ⟨0x2000, 1⟩ (.u8 9) 0, trivial, rfl⟩, ?_⟩, trivial,
      ⟨⟨.replace ⟨0x2000, 1⟩ levelEntry, hentry, ?_⟩, ?_⟩, trivial, trivial⟩
    · decide +kernel
    · decide +kernel
    · decide +kernel
  have hvalue : ((s.dictionary.find? ⟨0x2000, 1⟩).map fun x => (x.value, x.default)) =
      some (some (.u8 0x55), some (.u8 7)) := by decide +kernel
  obtain ⟨x, hx, hcontents⟩ := Option.map_eq_some_iff.1 hvalue
  obtain ⟨hnow, hdefault⟩ := Prod.mk.inj hcontents
  obtain ⟨hfits, hfitsDefault⟩ := store_typed 5 {} levels levelMoves hbuilt hproper ⟨0x2000, 1⟩ x hx
  exact ⟨hbuilt, hproper, x, hx, hnow, hdefault, hfits _ hnow, hfitsDefault _ hdefault⟩

end Service

end SdoClient
