/-
What an entry says of the last transfer on it. The end of a transfer leaves two marks: the abort code in the entry, 0 if
it completed, and a notice that says whether it failed. The owner of the dictionary may stage, clear and reset values
between the transfers; that moves neither mark.

Main statements:
- `error_of_last_transfer`: the code in an entry is the one with which the last transfer on it ended, and its last notice
  is of this transfer. So the entry has an error exactly if that notice says failed, unless the server aborted the
  transfer with the code 0;
- `zero_abort_hides_failure`: after such an abort the notice says failed and the entry does not.
-/
import Mathlib.Tactic
import SdoClient.Proofs.Atomicity
import SdoClient.Proofs.StoreTypes

namespace SdoClient

/-! ## The end of a transfer and its marks -/

/-- the abort code that a transfer leaves in its entry, 0 if it completed -/
def Ending.code : Ending → AbortCode
  | completed _ => .none
  | aborted code | abandoned code => code

/-- a transfer and how it ended -/
structure Closing where
  transfer : Transfer
  ending : Ending
  deriving DecidableEq

/-- the notice of the end -/
def Closing.notice (c : Closing) : Notice := Finished.notice ⟨c.transfer, c.ending.failed⟩

/-- the last notice about an entry -/
def lastNotice (m : Mux) (notices : List Notice) : Option Notice := (notices.filter fun n => n.id.mux = m).getLast?

/-- the last end of a transfer on an entry -/
def lastClosing (m : Mux) (closings : List Closing) : Option Closing :=
  (closings.filter fun c => c.transfer.target.mux = m).getLast?

/-- the entry at `m` says that the last transfer on it failed exactly if the last notice about it does -/
def Entry.Tells (x : Entry) (m : Mux) (notices : List Notice) : Prop :=
  x.hasError = true ↔ ∃ n ∈ lastNotice m notices, n.failed = true

theorem lastClosing_concat (m : Mux) (cs : List Closing) (c : Closing) :
    lastClosing m (cs ++ [c]) = if c.transfer.target.mux = m then some c else lastClosing m cs := by
  unfold lastClosing
  by_cases hm : c.transfer.target.mux = m <;> simp [List.filter_append, hm]

/-- the last notice is the notice of the last end -/
theorem lastNotice_closings (m : Mux) (cs : List Closing) :
    lastNotice m (cs.map Closing.notice) = (lastClosing m cs).map Closing.notice := by
  rw [lastNotice, lastClosing, List.filter_map, List.getLast?_map]
  rfl

/-- an entry without an error has the code 0 -/
theorem Entry.hasError_iff (x : Entry) : x.hasError = true ↔ x.error ≠ .none := by
  simp [hasError]

/-- a transfer that failed left the code 0 only if the server sent it -/
theorem Ending.code_eq_none {config : Config} {a : Active} {s : Stimulus} {ending : Ending}
    (h : (a.respond config s).fate = .ends ending) (hcode : ending.code = .none) :
    ending.failed = false ∨ ending = .abandoned .none := by
  cases ending with
  | completed v => exact .inl rfl
  | aborted code =>
    have hown : code.isProtocolError = true := Active.own_of_aborted h
    obtain rfl : code = .none := hcode
    exact absurd hown (by decide)
  | abandoned code => exact .inr (congrArg _ hcode)

/-- the end of a transfer changes the code of its own entry and of no other -/
theorem Ending.error_commit (ending : Ending) (clock : Time) (d : Dictionary) (a : Active) (m : Mux) :
    ((ending.commit clock d a).1.find? m).map Entry.error =
      (d.find? m).map fun x => if m = a.target.mux then ending.code else x.error := by
  have hcommit : ∀ (n : Notice) (f : Entry → Entry), n.id = a.target → (∀ x, (f x).error = ending.code) →
      ((d.commit n f).1.find? m).map Entry.error =
        (d.find? m).map fun x => if m = a.target.mux then ending.code else x.error := by
    intro n f hn hf
    rw [Dictionary.find?_commit, hn]
    split
    · rw [Option.map_map]
      exact congrArg (Option.map · _) (funext hf)
    · rfl
  cases ending with
  | completed v => exact hcommit _ _ rfl fun _ => rfl
  | aborted code | abandoned code => exact hcommit _ _ rfl fun _ => rfl

/-- the builders make entries without an error -/
theorem Entry.Built.error {x : Entry} (h : x.Built) : x.error = .none := by
  induction h with
  | new => rfl
  | @withDefault x _ v ih =>
    unfold Entry.withDefault
    split
    · exact ih
    · exact ih
  | withLimits _ _ _ ih | withScale _ _ ih | withUnit _ _ ih | withFixedPoint _ _ ih => exact ih

/-! ## Staging -/

/-- a change of one entry that keeps its code changes no code at all -/
theorem Dictionary.error_modify (d : Dictionary) (n : Mux) {f : Entry → Entry}
    (hf : ∀ x ∈ d.find? n, (f x).error = x.error) (m : Mux) :
    ((d.modify n f).find? m).map Entry.error = (d.find? m).map Entry.error := by
  rw [find?_modify]
  split
  · rename_i hm
    subst hm
    rw [Option.map_map]
    exact Option.map_congr hf
  · rfl

theorem Dictionary.error_setValue (d : Dictionary) (n : Mux) (v : Value) (clock : Time) (m : Mux) :
    (((d.setValue n v clock).toOption.getD d).find? m).map Entry.error = (d.find? m).map Entry.error := by
  unfold Dictionary.setValue
  split
  · rename_i x hx
    cases hset : x.setValue v clock with
    | error cause => rfl
    | ok x' =>
      refine d.error_modify n (fun y hy => ?_) m
      obtain rfl : x = y := Option.some.inj (hx.symm.trans hy)
      obtain ⟨-, rfl⟩ := Entry.setValue_eq_ok.1 hset
      rfl
  · rfl

/-- the call only stages, clears or resets values, or concerns the subscribers -/
def LocalCall.Stages : LocalCall → Prop
  | setValue .. | clear .. | reset .. | resetAll .. | feed _ => True
  | _ => False

/-- such a call keeps all entries and the code of each -/
theorem LocalCall.Stages.error {c : LocalCall} (h : c.Stages) (d : Dictionary) (m : Mux) :
    ((c.apply d).find? m).map Entry.error = (d.find? m).map Entry.error := by
  cases c with
  | setValue n v clock => exact d.error_setValue n v clock m
  | clear n clock => exact d.error_modify n (f := (Entry.clear · clock)) (fun _ _ => rfl) m
  | reset n clock => exact d.error_modify n (f := (Entry.reset · clock)) (fun _ _ => rfl) m
  | resetAll clock =>
    rw [apply, Dictionary.find?_resetAll, Option.map_map]
    rfl
  | feed f => rfl
  | insert | addEntry | replace | commitError => exact h.elim

/-! ## One event -/

namespace Engine

variable {e : Engine} {d : Dictionary} {o : Occasion}

/-- the transfer that an event ends, and how -/
def closing? (e : Engine) (o : Occasion) : Option Closing :=
  match e.active, e.ending? o with
  | some a, some ending => some ⟨a.transfer, ending⟩
  | _, _ => none

/-- an event ends no transfer, and then it leaves no mark, or it leaves those of the end -/
theorem step_closing (e : Engine) (d : Dictionary) (o : Occasion) :
    (e.closing? o = none ∧ (e.step d o).dictionary = d ∧ notices (e.step d o).effects = []) ∨
      ∃ a s ending, e.active = some a ∧ e.stimulus? o = some s ∧ (a.respond e.config s).fate = .ends ending ∧
        e.closing? o = some ⟨a.transfer, ending⟩ ∧ (e.step d o).dictionary = (ending.commit o.clock d a).1 ∧
        notices (e.step d o).effects = (ending.commit o.clock d a).2.toList := by
  cases e.step_passes d o with
  | idle ha =>
    obtain ⟨-, hd, hn⟩ := step_idle (d := d) (o := o) ha
    exact .inl ⟨by simp [closing?, ha], hd, hn⟩
  | unmoved ha hs =>
    obtain ⟨-, hd, -, hn⟩ := step_unmoved (d := d) ha hs
    exact .inl ⟨by simp [closing?, ending?, ha, hs], hd, hn⟩
  | goesOn ha hs hf _ hc =>
    obtain ⟨-, -, -, -, hd, -, hn⟩ := hc
    exact .inl ⟨by simp [closing?, ending?, ha, hs, hf], hd, hn⟩
  | ends ha hs hf _ hc =>
    obtain ⟨-, hd, -, hn⟩ := hc
    exact .inr ⟨_, _, _, ha, hs, hf, by simp [closing?, ending?, ha, hs, hf], hd, hn⟩

/-- a transfer that the server gave up was ended by its abort, with the code of the frame -/
theorem frame_of_abandoned {c : Closing} {code : AbortCode} (h : e.closing? o = some c)
    (hc : c.ending = .abandoned code) :
    ∃ data mux, o.event = .frame ⟨e.responseId, data⟩ ∧ Response.parse data = .ok (.abort mux code) := by
  rcases e.step_closing (Dictionary.mk 0 0 .empty {}) o with ⟨hnone, -⟩ | ⟨a, s, ending, -, hs, hf, hclosing, -⟩
  · rw [hnone] at h
    cases h
  · rw [hclosing] at h
    cases h
    obtain rfl : ending = .abandoned code := hc
    obtain ⟨-, data, mux, rfl, hread⟩ := a.respond_justified hf
    exact ⟨data, mux, event_of_stimulus hs, hread⟩

end Engine

/-! ## Runs -/

namespace Service

/-- the transfers that end in a run, oldest first -/
def closings (s : Service) : List Move → List Closing
  | [] => []
  | .event o :: rest => (s.engine.closing? o).toList ++ (s.move (.event o)).closings rest
  | .exchange d :: rest => (s.move (.exchange d)).closings rest

/-- between the events, the dictionary changes by staging calls only -/
def Staged (s : Service) : List Move → Prop
  | [] => True
  | .event o :: rest => (s.move (.event o)).Staged rest
  | .exchange d :: rest => (∃ c : LocalCall, c.Stages ∧ c.apply s.dictionary = d) ∧ (s.move (.exchange d)).Staged rest

/-- the marks that the transfers ended so far have left -/
structure Marked (s : Service) (cs : List Closing) : Prop where
  held : s.Held
  published : s.published = cs.map Closing.notice
  errors : ∀ m x, s.dictionary.find? m = some x → x.error = ((lastClosing m cs).map fun c => c.ending.code).getD .none
  hidden : ∀ c ∈ cs, c.ending.code = .none → c.ending.failed = false ∨ c.ending = .abandoned .none

theorem marked_start (node : UInt8) (config : Config) {d : Dictionary} (hd : d.Built) :
    (start node config d).Marked [] where
  held := fun _ ht => absurd ht List.not_mem_nil
  published := rfl
  errors := fun _ _ hx => (hd.entry hx).error
  hidden := fun _ hc => absurd hc List.not_mem_nil

theorem Marked.exchange {s : Service} {cs : List Closing} (h : s.Marked cs) {c : LocalCall} (hc : c.Stages) :
    (s.move (.exchange (c.apply s.dictionary))).Marked cs where
  held := by
    intro t ht
    have hkept := congrArg Option.isSome (hc.error s.dictionary t.target.mux)
    rw [Option.isSome_map, Option.isSome_map, h.held t ht] at hkept
    exact hkept
  published := h.published
  errors := by
    intro m x hx
    have hx : (c.apply s.dictionary).find? m = some x := hx
    have hkept := hc.error s.dictionary m
    rw [hx] at hkept
    obtain ⟨y, hy, herror⟩ := Option.map_eq_some_iff.1 hkept.symm
    rw [← herror]
    exact h.errors m y hy
  hidden := h.hidden

/-- **Step lemma.** -/
theorem Marked.event {s : Service} {cs : List Closing} (h : s.Marked cs) (o : Engine.Occasion) :
    (s.move (.event o)).Marked (cs ++ (s.engine.closing? o).toList) := by
  have hheld : (s.move (.event o)).Held := h.held.event o
  rcases s.engine.step_closing s.dictionary o with
    ⟨hnone, hd, hn⟩ | ⟨a, stimulus, ending, ha, -, hf, hclosing, hd, hn⟩
  · rw [hnone, Option.toList_none, List.append_nil]
    refine ⟨hheld, ?_, ?_, h.hidden⟩
    · change s.published ++ notices (s.engine.step s.dictionary o).effects = _
      rw [hn, List.append_nil, h.published]
    · change ∀ m x, (s.engine.step s.dictionary o).dictionary.find? m = some x → _
      rw [hd]
      exact h.errors
  · rw [hclosing, Option.toList_some]
    refine ⟨hheld, ?_, ?_, ?_⟩
    · have hfound : (s.dictionary.find? a.target.mux).isSome := by
        have hmem : a.transfer ∈ s.engine.pending := by simp [Engine.pending, ha]
        simpa [Active.target_transfer] using h.held _ hmem
      change s.published ++ notices (s.engine.step s.dictionary o).effects = _
      rw [hn, Engine.commit_notice _ _ _ _ hfound, h.published, List.map_append]
      rfl
    · intro m x hx
      have hx : (s.engine.step s.dictionary o).dictionary.find? m = some x := hx
      have hcommit := ending.error_commit o.clock s.dictionary a m
      rw [← hd, hx] at hcommit
      obtain ⟨y, hy, herror⟩ := Option.map_eq_some_iff.1 hcommit.symm
      rw [← herror, lastClosing_concat, Active.target_transfer]
      by_cases hm : m = a.target.mux
      · simp [hm]
      · rw [if_neg hm, if_neg (Ne.symm hm)]
        exact h.errors m y hy
    · intro c hc hcode
      rcases List.mem_append.1 hc with hc | hc
      · exact h.hidden c hc hcode
      · obtain rfl := List.mem_singleton.1 hc
        exact Ending.code_eq_none hf hcode

theorem Marked.run {s : Service} {cs : List Closing} (h : s.Marked cs) {ms : List Move} (hms : s.Staged ms) :
    (s.run ms).Marked (cs ++ s.closings ms) := by
  induction ms generalizing s cs with
  | nil =>
    rw [closings, List.append_nil]
    exact h
  | cons m rest ih =>
    cases m with
    | event o =>
      rw [closings, ← List.append_assoc]
      exact ih (h.event o) hms
    | exchange d =>
      obtain ⟨⟨c, hc, rfl⟩, hrest⟩ := hms
      exact ih (h.exchange hc) hrest

/-- a transfer that the server gave up in a run was ended by one of the frames of the run -/
theorem frame_of_closing (s : Service) {ms : List Move} {c : Closing} {code : AbortCode} (h : c ∈ s.closings ms)
    (hc : c.ending = .abandoned code) :
    ∃ o frame mux, .event o ∈ ms ∧ o.event = .frame frame ∧ Response.parse frame.data = .ok (.abort mux code) := by
  induction ms generalizing s with
  | nil => exact absurd h List.not_mem_nil
  | cons m rest ih =>
    cases m with
    | event o =>
      rcases List.mem_append.1 h with h | h
      · obtain ⟨data, mux, hevent, hread⟩ := Engine.frame_of_abandoned (Option.mem_toList.1 h) hc
        exact ⟨o, _, mux, List.mem_cons_self, hevent, hread⟩
      · obtain ⟨o', frame, mux, hmem, hrest⟩ := ih _ h
        exact ⟨o', frame, mux, List.mem_cons_of_mem _ hmem, hrest⟩
    | exchange d =>
      obtain ⟨o', frame, mux, hmem, hrest⟩ := ih _ h
      exact ⟨o', frame, mux, List.mem_cons_of_mem _ hmem, hrest⟩

/-- the entry and the last notice agree unless the last transfer on the entry was aborted by the server with the
code 0 -/
theorem Marked.tells_iff {s : Service} {cs : List Closing} (h : s.Marked cs) {m : Mux} {x : Entry}
    (hx : s.dictionary.find? m = some x) :
    x.Tells m s.published ↔ ∀ c ∈ lastClosing m cs, c.ending ≠ .abandoned .none := by
  have herror := h.errors m x hx
  rw [Entry.Tells, h.published, lastNotice_closings, Entry.hasError_iff, herror]
  cases hlast : lastClosing m cs with
  | none => simp
  | some c =>
    have hmem : c ∈ cs := List.mem_of_mem_filter (List.mem_of_getLast? hlast)
    have hfailed : c.notice.failed = c.ending.failed := rfl
    have hhidden := h.hidden c hmem
    simp only [Option.map_some, Option.getD_some, Option.mem_def, Option.some.injEq, exists_eq_left', hfailed,
      forall_eq']
    cases hending : c.ending with
    | completed v => simp [Ending.code, Ending.failed]
    | aborted code =>
      rw [hending] at hhidden
      have hcode : code ≠ .none := fun hcode => by simpa [Ending.failed] using hhidden hcode
      simp [Ending.code, Ending.failed, hcode]
    | abandoned code => simp [Ending.code, Ending.failed]

/-- **The code in an entry is that of the last transfer on it.** A new engine on a dictionary of the builders, whatever
calls, frames, timeouts, ticks and polls it meets, and whatever values are staged, cleared and reset meanwhile: the last
notice about an entry is of the transfer on it that ended last, and the code in the entry is the one with which that
transfer ended, 0 if it completed or if there was none. The entry has an error exactly if the notice says failed, but
for a transfer that the server aborted with the code 0; so always if no such frame came. -/
theorem error_of_last_transfer (node : UInt8) (config : Config) (d : Dictionary) (ms : List Move) (hd : d.Built)
    (hms : (start node config d).Staged ms) (m : Mux) (x : Entry)
    (hx : ((start node config d).run ms).dictionary.find? m = some x) :
    let published := ((start node config d).run ms).published
    let last := lastClosing m ((start node config d).closings ms)
    lastNotice m published = last.map Closing.notice ∧
      x.error = (last.map fun c => c.ending.code).getD .none ∧
      (x.Tells m published ↔ ∀ c ∈ last, c.ending ≠ .abandoned .none) ∧
      ((∀ o frame mux, .event o ∈ ms → o.event = .frame frame → Response.parse frame.data ≠ .ok (.abort mux .none)) →
        x.Tells m published) := by
  intro published last
  have hmarked : ((start node config d).run ms).Marked ((start node config d).closings ms) :=
    (marked_start node config hd).run hms
  have htells := hmarked.tells_iff hx
  refine ⟨?_, hmarked.errors m x hx, htells, fun hframes => htells.2 fun c hc hending => ?_⟩
  · rw [← lastNotice_closings, ← hmarked.published]
  · have hmem : c ∈ (start node config d).closings ms := List.mem_of_mem_filter (List.mem_of_getLast? hc)
    obtain ⟨o, frame, mux, hevent, hframe, hread⟩ := frame_of_closing _ hmem hending
    exact hframes o frame mux hevent hframe hread

theorem built_levels : levels.Built :=
  ((Dictionary.Built.new 0 5).insert (Object.Built.new _ _ _)).addEntry _
    (((Entry.Built.new _ _ _ _).withDefault _).withDefault _)

/-- the id of the entry of `levels` -/
def levelId : ObjectId := ⟨0, 5, ⟨0x2000, 1⟩, .unsigned .w8⟩

/-- a read that the server aborts with the code 0 -/
def zeroAbort : List Move :=
  [.event ⟨0, true, .upload levelId⟩, .event ⟨1, true, .frame ⟨0x585, [0x80, 0x00, 0x20, 0x01, 0, 0, 0, 0]⟩⟩]

/-- after it, a value is staged, a second read times out, and everything is reset -/
def zeroAbortAndTimeout : List Move :=
  let staged := (LocalCall.setValue ⟨0x2000, 1⟩ (.u8 9) 2).apply ((start 5 {} levels).run zeroAbort).dictionary
  let expired := ((start 5 {} levels).run (zeroAbort ++ [.exchange staged, .event ⟨2, true, .upload levelId⟩,
    .event ⟨3, false, .timeout⟩])).dictionary
  zeroAbort ++ [.exchange staged, .event ⟨2, true, .upload levelId⟩, .event ⟨3, false, .timeout⟩,
    .exchange ((LocalCall.resetAll 3).apply expired)]

theorem error_of_last_transfer_timeout :
    let s := (start 5 {} levels).run zeroAbortAndTimeout
    levels.Built ∧ (start 5 {} levels).Staged zeroAbortAndTimeout ∧
      ∃ x, s.dictionary.find? ⟨0x2000, 1⟩ = some x ∧ x.error = .timeout ∧ x.Tells ⟨0x2000, 1⟩ s.published ∧
        s.published = [⟨levelId, .upload, true⟩, ⟨levelId, .upload, true⟩] := by
  intro s
  have hstaged : (start 5 {} levels).Staged zeroAbortAndTimeout :=
    ⟨⟨.setValue ⟨0x2000, 1⟩ (.u8 9) 2, trivial, rfl⟩, ⟨.resetAll 3, trivial, rfl⟩, trivial⟩
  have hfound : (s.dictionary.find? ⟨0x2000, 1⟩).isSome := by decide +kernel
  obtain ⟨x, hx⟩ := Option.isSome_iff_exists.1 hfound
  have hlast : lastClosing ⟨0x2000, 1⟩ ((start 5 {} levels).closings zeroAbortAndTimeout) =
      some ⟨⟨levelId, .read⟩, .aborted .timeout⟩ := by decide +kernel
  obtain ⟨-, herror, htells, -⟩ := error_of_last_transfer 5 {} levels zeroAbortAndTimeout built_levels hstaged _ x hx
  rw [hlast] at herror htells
  refine ⟨built_levels, hstaged, x, hx, herror, htells.2 fun c hc => ?_, by decide +kernel⟩
  obtain rfl := Option.some.inj hc
  decide

/-- the entry does not always tell that the last transfer failed: after an abort of the server with the code 0 it has no
error, while the notice of the transfer says failed -/
theorem zero_abort_hides_failure :
    ¬∀ (node : UInt8) (config : Config) (d : Dictionary) (ms : List Move) (m : Mux) (x : Entry), d.Built →
      (start node config d).Staged ms → ((start node config d).run ms).dictionary.find? m = some x →
        x.Tells m ((start node config d).run ms).published := by
  intro hclaimed
  have hfound : (((start 5 {} levels).run zeroAbort).dictionary.find? ⟨0x2000, 1⟩).map Entry.hasError = some false := by
    decide +kernel
  obtain ⟨x, hx, hnone⟩ := Option.map_eq_some_iff.1 hfound
  have hnotice : ∃ n ∈ lastNotice ⟨0x2000, 1⟩ ((start 5 {} levels).run zeroAbort).published, n.failed = true :=
    ⟨⟨levelId, .upload, true⟩, by decide +kernel, rfl⟩
  have herror := (hclaimed 5 {} levels zeroAbort _ x built_levels trivial hx).2 hnotice
  rw [hnone] at herror
  cases herror

end Service

end SdoClient
