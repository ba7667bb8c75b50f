/-
Reads that are asked for twice. A read call joins a read of its entry that waits in the queue, and no other one: the
transfer in progress may have sent its request before the call, so it does not count, and writes are never joined. So
the queue holds at most one read for an entry, and the read that answers a call begins after the call.

Main statements:
- `step_queuedOnce`: whatever an engine meets, its queue holds at most one read for an entry;
- `reads_merge_soundly`: a call queues a read exactly if none waits, and in both cases it is answered by a read that has
  not begun, with an initiate request, an end and a notice of its own;
- `queue_kept_and_notice_lost`: but the queue also stays as it is when the engine is free and starts the read at once,
  and a read is published only if the dictionary keeps its entry.
-/
import Mathlib.Tactic
import SdoClient.Proofs.Admission
import SdoClient.Proofs.ReadOrder
import SdoClient.Proofs.StoreTypes

namespace SdoClient

/-- ids of the same entry are read by the same transfers -/
theorem Transfer.reads_congr {a b : ObjectId} (h : a.sameObject b = true) : Transfer.reads a = Transfer.reads b := by
  simp only [ObjectId.sameObject, Bool.and_eq_true, decide_eq_true_eq] at h
  obtain ⟨⟨hbus, hnode⟩, hmux⟩ := h
  funext t
  simp only [reads, ObjectId.sameObject, hbus, hnode, hmux]

namespace Engine

variable {e : Engine} {d : Dictionary} {o : Occasion} {id : ObjectId} {t : Transfer}

/-! ## The queue -/

/-- an event only takes transfers from the front of the queue, and puts what it accepts at the end -/
theorem queue_isSuffix (e : Engine) (d : Dictionary) (o : Occasion) :
    (e.step d o).engine.queue <:+ e.queue ++ (e.accepted d o).toList := by
  have hqueue (e : Engine) : e.queue <:+ e.pending := List.suffix_append _ _
  cases e.step_passes d o with
  | idle ha _ =>
    have hpending : e.pending = e.queue := by rw [pending, ha, Option.toList_none, List.map_nil, List.nil_append]
    have hnext := hqueue (e.step d o).engine
    rwa [(step_idle ha).1, hpending] at hnext
  | unmoved ha hs _ =>
    rw [(step_unmoved ha hs).1]
  | goesOn _ hs _ _ hc =>
    obtain ⟨-, hsame, -⟩ := hc
    rw [hsame, accepted_of_stimulus hs, Option.toList_none, List.append_nil]
  | ends _ hs _ _ hc =>
    obtain ⟨hengine, -⟩ := hc
    have hnext := hqueue (e.released.startNext o.clock).1
    rw [(startNext_spec _ _).1] at hnext
    rw [hengine, accepted_of_stimulus hs, Option.toList_none, List.append_nil]
    exact hnext

/-- a read is only accepted if none of its entry waits -/
theorem none_waits_of_accepted (h : e.accepted d o = some t) (ht : t.reads id = true) :
    e.queue.countP (Transfer.reads id) = 0 := by
  obtain ⟨asked, found, x, -, ⟨-, hnone, rfl⟩ | ⟨v, -, -, rfl⟩⟩ := accepted_cases h
  · have hsame : found.sameObject id = true := by simpa [Transfer.reads, Transfer.direction] using ht
    rw [← Transfer.reads_congr hsame, List.countP_eq_zero]
    intro u hu hreads
    rw [← Bool.not_eq_true] at hnone
    exact hnone (List.any_eq_true.2 ⟨u, hu, hreads⟩)
  · cases ht

/-- the queue holds at most one read for an entry -/
theorem step_queuedOnce (e : Engine) (d : Dictionary) (o : Occasion)
    (h : ∀ id, e.queue.countP (Transfer.reads id) ≤ 1) (id : ObjectId) :
    (e.step d o).engine.queue.countP (Transfer.reads id) ≤ 1 := by
  have hle : (e.step d o).engine.queue.countP (Transfer.reads id) ≤
      (e.queue ++ (e.accepted d o).toList).countP (Transfer.reads id) :=
    (e.queue_isSuffix d o).sublist.countP_le
  cases haccepted : e.accepted d o with
  | none =>
    rw [haccepted, Option.toList_none, List.append_nil] at hle
    exact hle.trans (h id)
  | some t =>
    rw [haccepted, Option.toList_some, List.countP_append, List.countP_singleton] at hle
    by_cases ht : t.reads id = true
    · rwa [none_waits_of_accepted haccepted ht, if_pos ht] at hle
    · rw [if_neg ht] at hle
      exact hle.trans (h id)

/-! ## Calls -/

/-- a read call leaves what is pending as it is exactly if it joins a read that waits; the queue alone also stays the
same if the engine is free, for then it starts the read at once -/
theorem upload_unchanged_iff {clock : Time} {r : Engine × List Effect} (hfree : e.active = none → e.queue = [])
    (h : e.upload clock d id = .ok r) :
    (r.1.pending = e.pending ↔ e.readWaits id = true) ∧
      (r.1.queue = e.queue ↔ e.readWaits id = true ∨ e.active = none) := by
  obtain ⟨asked, x, hresolve, hcase⟩ := upload_cases h
  obtain rfl := resolve_target hresolve
  have hsame : e.readWaits { id with type := x.type } = e.readWaits id := rfl
  rw [hsame] at hcase
  rcases hcase with ⟨hwaits, rfl⟩ | ⟨hnone, rfl⟩
  · simp [hwaits]
  · refine ⟨?_, ?_⟩
    · rw [(enqueue_spec _ _ _).1, hnone]
      simp
    · cases ha : e.active with
      | none =>
        rw [enqueue_free ha (hfree ha)]
        simp
      | some a =>
        rw [enqueue_active ha, hnone]
        simp

/-- a write that is taken is put behind all that is pending -/
theorem download_pending {clock : Time} {v : Value} {r : Engine × List Effect} (h : e.download clock d id v = .ok r) :
    ∃ type, r.1.pending = e.pending ++ [.ofWrite { id with type } v] := by
  obtain ⟨asked, x, hresolve, -, -, rfl⟩ := download_cases h
  obtain rfl := resolve_target hresolve
  exact ⟨x.type, (enqueue_spec _ _ _).1⟩

end Engine

/-! ## Initiate requests -/

theorem Transfer.initiates_begin (config : Config) (t : Transfer) : (t.begin config).2.initiates = true := by
  unfold Transfer.begin
  split
  · split <;> rfl
  · split
    · rfl
    · split <;> rfl

/-- a transfer in progress opens nothing -/
theorem Spoken.inner_respond {w : List Request} {a : Active} (h : Spoken w a) (config : Config) (s : Stimulus) :
    Inner (a.respond config s).requests := by
  obtain ⟨first, rest, rfl, -, -⟩ := h.sentence.1.initiates
  have hword : ∃ t, Word t (first :: rest ++ (a.respond config s).requests) := by
    have hspeaks := h.respond config s
    rw [Speaks] at hspeaks
    split at hspeaks
    · exact ⟨_, .whole hspeaks.sentence.1⟩
    · exact ⟨_, hspeaks⟩
  obtain ⟨t, hword⟩ := hword
  obtain ⟨first', rest', hcons, -, hinner⟩ := hword.initiates
  obtain ⟨-, rfl⟩ := List.cons.inj hcons
  exact (inner_append.1 hinner).2

theorem Inner.filter_initiates {w : List Request} (h : Inner w) : w.filter Request.initiates = [] :=
  List.filter_eq_nil_iff.2 fun q hq => by simp [h q hq]

/-- the transfer that is started, if any, has its initiate request -/
theorem Engine.Starts.filter_initiates {e next : Engine} {requests : List Request} (h : e.Starts next requests) :
    requests.filter Request.initiates =
      (next.active.toList.map Active.transfer).map fun t => (t.begin e.config).2 := by
  rcases h.begun with ⟨hnone, rfl⟩ | ⟨t, hsome, rfl⟩
  · rw [hnone]
    rfl
  · rw [hsome, Option.toList_some, List.map_singleton, List.map_singleton, Engine.transfer_begin,
      List.filter_singleton, Transfer.initiates_begin]
    rfl

namespace Service

variable {config : Config} {node : UInt8} {said : List Request} {closed : List (List Request)} {s : Service}

/-- **Step lemma.** The initiate requests that an event offers are those of the transfers that it begins. -/
theorem Articulate.begins (h : s.Articulate config node said closed) (o : Engine.Occasion) :
    ∃ more, (s.move (.event o)).begun = s.begun ++ more ∧
      (offers (s.engine.step s.dictionary o).effects).filter Request.initiates =
        more.map fun t => (t.begin config).2 := by
  obtain ⟨rfl, -, -, current, -, -, hcurrent⟩ := h
  have hbegun : (s.move (.event o)).begun =
      (s.finished ++ (s.engine.finished? o).toList).map Finished.transfer ++
        (s.engine.step s.dictionary o).engine.active.toList.map Active.transfer := rfl
  rw [hbegun, begun]
  cases s.engine.step_passes s.dictionary o with
  | idle ha hfin =>
    have hstarts := Engine.step_idle_starts (d := s.dictionary) (o := o) ha
    refine ⟨_, ?_, hstarts.filter_initiates⟩
    rw [hfin, ha]
    simp
  | unmoved ha hs hfin =>
    obtain ⟨he, -, hoffers, -⟩ := Engine.step_unmoved (d := s.dictionary) ha hs
    refine ⟨[], ?_, by rw [hoffers]; rfl⟩
    rw [hfin, he]
    simp
  | @goesOn a next stimulus ha hs hf hfin hc =>
    obtain ⟨hnext, -, -, -, -, hoffers, -⟩ := hc
    rw [ha] at hcurrent
    refine ⟨[], ?_, by rw [hoffers, (hcurrent.inner_respond _ _).filter_initiates]; rfl⟩
    rw [hfin, hnext, ha]
    simp [Active.transfer_respond hf]
  | @ends a stimulus ending ha hs hf hfin hc =>
    obtain ⟨he, -, hoffers, -⟩ := hc
    rw [ha] at hcurrent
    have hstarts := Engine.startNext_idle (e := s.engine.released) rfl o.clock
    refine ⟨_, ?_, by rw [hoffers, List.filter_append, (hcurrent.inner_respond _ _).filter_initiates, List.nil_append,
      hstarts.filter_initiates]; rfl⟩
    rw [hfin, he, ha]
    simp

/-- **Run lemma.** The initiate requests that a run offers are those of the transfers that it begins, in order. -/
theorem Articulate.begins_run (h : s.Articulate config node said closed) (ms : List Move) :
    ∃ more, (s.run ms).begun = s.begun ++ more ∧
      (s.offered ms).filter Request.initiates = more.map fun t => (t.begin config).2 := by
  induction ms generalizing s said closed with
  | nil => exact ⟨[], (List.append_nil _).symm, rfl⟩
  | cons m rest ih =>
    cases m with
    | exchange d => exact ih (h.exchange d)
    | event o =>
      obtain ⟨more, hmore, hoffers⟩ := h.begins o
      obtain ⟨_, hnext⟩ := h.event o
      obtain ⟨later, hlater, hrest⟩ := ih hnext
      refine ⟨more ++ later, ?_, ?_⟩
      · rw [← List.append_assoc, ← hmore]
        exact hlater
      · rw [offered, List.filter_append, hoffers, hrest, List.map_append]

/-! ## Ends -/

theorem length_finished_le (s : Service) : s.finished.length ≤ s.begun.length := by
  rw [begun, List.length_append, List.length_map]
  exact Nat.le_add_right _ _

/-- `accepted_run` for a run with a move singled out -/
theorem accepted_later (node : UInt8) (config : Config) (d : Dictionary) (before : List Move) (m : Move)
    (later : List Move) :
    let s := (((start node config d).run before).move m).run later
    s.accepted = s.begun ++ s.engine.queue := by
  have hrun := accepted_run node config d (before ++ m :: later)
  rwa [run_append] at hrun

/-- how often the transfer in progress times out during a run -/
def lapses (s : Service) : List Move → Nat
  | [] => 0
  | .event o :: rest => (if s.engine.stimulus? o = some .lapse then 1 else 0) + (s.move (.event o)).lapses rest
  | .exchange d :: rest => (s.move (.exchange d)).lapses rest

/-- every timeout ends a transfer, so with enough of them a transfer that was accepted has ended -/
theorem finished_of_lapses {k : Nat} (htimed : s.engine.Timed)
    (hserved : s.accepted = s.finished.map Finished.transfer ++ s.engine.pending) (hk : k < s.accepted.length)
    (ms : List Move) (henough : k < s.finished.length + s.lapses ms) : k < (s.run ms).finished.length := by
  induction ms generalizing s with
  | nil => exact henough
  | cons m rest ih =>
    cases m with
    | exchange d => exact ih (s := s.move (.exchange d)) htimed hserved hk henough
    | event o =>
      have hmore : (s.move (.event o)).finished.length = s.finished.length + (s.engine.finished? o).toList.length :=
        List.length_append
      refine ih (s := s.move (.event o)) (Engine.step_timed _ _ o htimed) (move_served _ hserved)
        (hk.trans_le (List.prefix_append _ _).length_le) ?_
      rw [lapses] at henough
      split at henough
      · rename_i hlapse
        cases ha : s.engine.active with
        | none =>
          -- nothing is in progress, so nothing waits and all that was accepted has ended
          have hpending : s.engine.pending = [] := by rw [Engine.pending, ha, htimed.queue ha]; rfl
          rw [hserved, hpending, List.append_nil, List.length_map] at hk
          omega
        | some a =>
          have hends : s.engine.finished? o = some ⟨a.transfer, true⟩ := by
            simp only [Engine.finished?, ha, hlapse]
            rfl
          rw [hmore, hends, Option.toList_some, List.length_singleton]
          omega
      · omega

/-! ## Notices -/

/-- whoever exchanges the dictionary during a run keeps the entries of the transfers that are pending then -/
def Careful (s : Service) : List Move → Prop
  | [] => True
  | .event o :: rest => (s.move (.event o)).Careful rest
  | .exchange d :: rest =>
    (∀ t ∈ s.engine.pending, (d.find? t.target.mux).isSome) ∧ (s.move (.exchange d)).Careful rest

theorem Careful.held {ms : List Move} (h : s.Careful ms) (hs : s.Held) : ∀ pre, pre <+: ms → (s.run pre).Held := by
  induction ms generalizing s with
  | nil =>
    intro pre hpre
    rwa [List.prefix_nil.1 hpre]
  | cons m rest ih =>
    intro pre hpre
    cases pre with
    | nil => exact hs
    | cons m' pre =>
      obtain ⟨rfl, hrest⟩ := List.cons_prefix_cons.1 hpre
      cases m' with
      | event o => exact ih (s := s.move (.event o)) h (hs.event o) pre hrest
      | exchange d => exact ih (s := s.move (.exchange d)) h.2 h.1 pre hrest

/-- if the entries are kept, every transfer that has ended was published, with its own outcome -/
theorem published_of_careful (node : UInt8) (config : Config) (d : Dictionary) {ms : List Move}
    (h : (start node config d).Careful ms) {pre : List Move} (hpre : pre <+: ms) :
    ((start node config d).run pre).published = ((start node config d).run pre).finished.map Finished.notice := by
  have hheld := h.held fun t ht => absurd ht List.not_mem_nil
  exact (run_inOrder pre (inOrder_start node config d) fun p hp => hheld p (hp.trans hpre)).noticed

/-! ## Calls and the reads that answer them -/

/-- how a read call for an entry is answered in the run that follows: by the transfer `read`, which -/
structure Answers (s : Service) (config : Config) (called : Move) (later : List Move) (id : ObjectId)
    (read : Transfer) : Prop where
  /-- reads the entry -/
  reads : read.reads id = true
  /-- had not begun at the call -/
  fresh : s.begun.length ≤ s.place id
  /-- keeps its place among the transfers accepted -/
  placed : ((s.move called).run later).accepted[s.place id]? = some read
  /-- once it has begun, has an initiate request of its own among those offered since the call -/
  opened : ((s.offered (called :: later)).filter Request.initiates)[s.place id - s.begun.length]? =
    if s.place id < ((s.move called).run later).begun.length then some (read.begin config).2 else none
  /-- has ended after enough timeouts, if not before -/
  ended : s.place id < (s.move called).finished.length + (s.move called).lapses later →
    s.place id < ((s.move called).run later).finished.length

/-- a call that is taken is answered by the read at its place, which is a new one or one that waits -/
theorem upload_answered (node : UInt8) (config : Config) (d : Dictionary) (before later : List Move) {clock : Time}
    (ready : Bool) {id : ObjectId} {r : Engine × List Effect} :
    let s := (start node config d).run before
    s.engine.upload clock s.dictionary id = .ok r →
      ∃ read, s.Answers config (.event ⟨clock, ready, .upload id⟩) later id read := by
  intro s hcall
  have hs : s.accepted = s.begun ++ s.engine.queue := accepted_run node config d before
  obtain ⟨read, hread, hreads⟩ := place_reads hs hcall ready
  have hfresh : s.begun.length ≤ s.place id := Nat.le_add_right _ _
  refine ⟨read, hreads, hfresh, accepted_kept hread later, ?_, ?_⟩
  · -- the initiate requests since the call are those of the transfers that begin after it
    obtain ⟨_, harticulate⟩ := (articulate_start node config d).run before
    obtain ⟨more, hmore, hinitiates⟩ := harticulate.begins_run (.event ⟨clock, ready, .upload id⟩ :: later)
    have hbegun : ((s.move (.event ⟨clock, ready, .upload id⟩)).run later).begun = s.begun ++ more := hmore
    have hplaced := accepted_kept hread later
    have hlater : ((s.move (.event ⟨clock, ready, .upload id⟩)).run later).accepted = _ :=
      accepted_later node config d before _ later
    rw [hinitiates, List.getElem?_map, ← List.getElem?_append_right hfresh, ← hbegun]
    split
    · rename_i hlt
      rw [hlater, List.getElem?_append_left hlt] at hplaced
      rw [hplaced]
      rfl
    · rename_i hge
      rw [List.getElem?_eq_none (Nat.le_of_not_lt hge)]
      rfl
  · have htimed : s.engine.Timed := timed_run node config d before
    have hserved : (s.move (.event ⟨clock, ready, .upload id⟩)).accepted = _ :=
      move_served _ (run_served rfl before)
    exact finished_of_lapses (Engine.step_timed _ _ _ htimed) hserved (List.getElem?_eq_some_iff.1 hread).1 later

/-- **Read merging is sound.** A new engine meets anything, then a read call, then anything again. At the call the queue
holds at most one read for an entry, and a write that is taken instead would be queued behind all that is pending. A
read call that is taken leaves the transfers in progress and in the queue as they are exactly if a read of the entry
waits; the queue alone also stays the same if nothing is in progress. In each case the call is answered by a read that
had not begun. If the entries of pending transfers are never taken out of the dictionary, each transfer that ends
publishes one notice, and that of this read follows the call. -/
theorem reads_merge_soundly (node : UInt8) (config : Config) (d : Dictionary) (before later : List Move) (clock : Time)
    (ready : Bool) (id : ObjectId) :
    let s := (start node config d).run before
    let called : Move := .event ⟨clock, ready, .upload id⟩
    let s' := (s.move called).run later
    (∀ id, s.engine.queue.countP (Transfer.reads id) ≤ 1) ∧
      (∀ v r, s.engine.download clock s.dictionary id v = .ok r →
        ∃ type, r.1.pending = s.engine.pending ++ [.ofWrite { id with type } v]) ∧
      ∀ r, s.engine.upload clock s.dictionary id = .ok r →
        (r.1.pending = s.engine.pending ↔ s.engine.readWaits id = true) ∧
        (r.1.queue = s.engine.queue ↔ s.engine.readWaits id = true ∨ s.engine.active = none) ∧
        ∃ read, s.Answers config called later id read ∧
          ((start node config d).Careful (before ++ called :: later) →
            s'.published = s'.finished.map Finished.notice ∧ s.published.length ≤ s.place id ∧
            (s.place id < s'.finished.length →
              ∃ failed, s'.published[s.place id]? = some ⟨read.target, .upload, failed⟩)) := by
  intro s called s'
  have hrun : (start node config d).run (before ++ called :: later) = s' := run_append _ _ _
  have honce : ∀ id, s.engine.queue.countP (Transfer.reads id) ≤ 1 :=
    run_engine (P := fun e => ∀ id, e.queue.countP (Transfer.reads id) ≤ 1) Engine.step_queuedOnce
      (s := start node config d) (fun _ => Nat.zero_le _) before
  refine ⟨honce, fun v r => Engine.download_pending, fun r hcall => ?_⟩
  obtain ⟨hpending, hqueue⟩ := Engine.upload_unchanged_iff (timed_run node config d before).queue hcall
  obtain ⟨read, hanswers⟩ := upload_answered node config d before later ready hcall
  refine ⟨hpending, hqueue, read, hanswers, fun hcareful => ?_⟩
  have hpublished : s.published = s.finished.map Finished.notice :=
    published_of_careful node config d hcareful (List.prefix_append _ _)
  have hpublished' : s'.published = s'.finished.map Finished.notice := by
    rw [← hrun]
    exact published_of_careful node config d hcareful List.prefix_rfl
  refine ⟨hpublished', ?_, fun hended => ?_⟩
  · calc s.published.length = s.finished.length := by rw [hpublished, List.length_map]
      _ ≤ s.begun.length := s.length_finished_le
      _ ≤ s.place id := hanswers.fresh
  · have htransfer := finished_getElem? (accepted_later node config d before called later) hended
    rw [hanswers.placed] at htransfer
    obtain ⟨f, hf, rfl⟩ := Option.map_eq_some_iff.1 htransfer
    refine ⟨f.failed, ?_⟩
    rw [hpublished', List.getElem?_map, hf, Option.map_some, Finished.notice,
      Transfer.direction_of_reads hanswers.reads]

/-- a read of the byte is in progress, a write of the file waits, and then another read of the byte -/
def readBehindWrite : List Move :=
  [.event ⟨0, true, .upload byteId⟩, .event ⟨1, true, .download fileId (.octets [1, 2, 3])⟩,
    .event ⟨2, true, .upload byteId⟩]

/-- the read in progress is answered, and the write and the second read time out -/
def answerAndLapses : List Move :=
  [.event ⟨4, true, .frame ⟨0x585, [0x4f, 0x00, 0x20, 0x01, 7, 0, 0, 0]⟩⟩, .event ⟨5, true, .timeout⟩,
    .event ⟨6, true, .timeout⟩]

/-- a third call joins the read that waits, not the one in progress -/
theorem reads_merge_soundly_joined :
    let s := (start 5 {} twoEntries).run readBehindWrite
    let called : Move := .event ⟨3, false, .upload byteId⟩
    s.engine.upload 3 s.dictionary byteId = .ok (s.engine, [.log (.alreadyQueued byteId)]) ∧
      (start 5 {} twoEntries).Careful (readBehindWrite ++ called :: answerAndLapses) ∧
      s.Answers {} called answerAndLapses byteId ⟨byteId, .read⟩ ∧ s.published.length ≤ s.place byteId ∧
      (∃ failed, ((s.move called).run answerAndLapses).published[s.place byteId]? = some ⟨byteId, .upload, failed⟩) ∧
      ((s.move called).run answerAndLapses).published =
        [⟨byteId, .upload, false⟩, ⟨fileId, .download, true⟩, ⟨byteId, .upload, true⟩] := by
  intro s called
  have hcall : s.engine.upload 3 s.dictionary byteId = .ok (s.engine, [.log (.alreadyQueued byteId)]) := by
    decide +kernel
  obtain ⟨-, -, hupload⟩ := reads_merge_soundly 5 {} twoEntries readBehindWrite answerAndLapses 3 false byteId
  obtain ⟨-, -, read, hanswers, hnoticed⟩ := hupload _ hcall
  have hplaced : ((s.move called).run answerAndLapses).accepted[s.place byteId]? = some ⟨byteId, .read⟩ := by
    decide +kernel
  obtain rfl := Option.some.inj (hplaced.symm.trans hanswers.placed)
  obtain ⟨-, hfollows, hnotice⟩ := hnoticed trivial
  exact ⟨hcall, trivial, hanswers, hfollows, hnotice (by decide +kernel), by decide +kernel⟩

/-- a call to a free engine leaves the queue empty although no read waits, for its own read starts at once; and a read
whose entry is taken out of the dictionary ends without a notice -/
theorem queue_kept_and_notice_lost :
    (¬∀ (node : UInt8) (config : Config) (d : Dictionary) (before : List Move) (clock : Time) (id : ObjectId)
        (r : Engine × List Effect),
      let s := (start node config d).run before
      s.engine.upload clock s.dictionary id = .ok r →
        (r.1.queue = s.engine.queue ↔ s.engine.readWaits id = true)) ∧
    ¬∀ (node : UInt8) (config : Config) (d : Dictionary) (before later : List Move) (clock : Time) (ready : Bool)
        (id : ObjectId) (r : Engine × List Effect),
      let s := (start node config d).run before
      let s' := (s.move (.event ⟨clock, ready, .upload id⟩)).run later
      s.engine.upload clock s.dictionary id = .ok r → s.place id < s'.finished.length →
        ∃ n ∈ s'.published.drop s.published.length, n.id.sameObject id = true ∧ n.direction = .upload := by
  refine ⟨fun hclaimed => ?_, fun hclaimed => ?_⟩
  · have hwaits := (hclaimed 5 {} twoEntries [] 0 byteId _ rfl).1 (by decide +kernel)
    exact absurd hwaits (by decide)
  · have hnoticed := hclaimed 5 {} twoEntries [] [.exchange { bus := 0, node := 5 }, .event ⟨1, true, .timeout⟩] 0 true
      byteId _ rfl (by decide +kernel)
    exact absurd hnoticed (by decide +kernel)

end Service

end SdoClient
