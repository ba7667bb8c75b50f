/-
Which read answers a read call, and when it runs. A call joins the first read of its entry that waits, or else puts a
read of its own at the end of the queue. Transfers are numbered in the order in which they are accepted, which is the
order in which they are started, so that read has a place among them from the moment of the call.

Main statements:
- `reads_follow_writes`: the read that answers a call is started after every write accepted before the call has ended,
  as long as the call does not join a read that was accepted before the write;
- `place_lt_iff`: a call that does join such a read is answered from before the write;
- `joined_read_overtakes`: so a read call that follows a write of its entry need not observe the write.
-/
import Mathlib.Tactic
import SdoClient.Proofs.Grammar

namespace SdoClient

/-- the transfer reads the entry -/
def Transfer.reads (id : ObjectId) (t : Transfer) : Bool := t.direction = .upload && t.target.sameObject id

theorem Transfer.direction_of_reads {id : ObjectId} {t : Transfer} (h : t.reads id = true) : t.direction = .upload := by
  simp only [reads, Bool.and_eq_true, decide_eq_true_eq] at h
  exact h.1

/-- an appended item is found where no earlier one is -/
theorem getElem?_findIdx_concat {α : Type} {p : α → Bool} {l : List α} {x : α} (hx : p x = true) :
    ∃ y, (l ++ if l.any p then [] else [x])[l.findIdx p]? = some y ∧ p y = true := by
  cases hl : l.any p with
  | true =>
    have hlt : l.findIdx p < l.length := List.findIdx_lt_length_of_exists (List.any_eq_true.1 hl)
    exact ⟨l[l.findIdx p], by simp [hlt], List.findIdx_getElem⟩
  | false =>
    have hend : l.findIdx p = l.length := List.findIdx_eq_length.2 fun y hy => by
      simpa using List.any_eq_false.1 hl y hy
    exact ⟨x, by simp [hend], hx⟩

namespace Engine

variable {e : Engine} {clock : Time} {d : Dictionary} {asked : ObjectId}

/-- a call is taken for the entry that it names, with the type that the dictionary declares -/
theorem resolve_target {id : ObjectId} {x : Entry} (h : e.resolve d asked = .ok (id, x)) :
    id = { asked with type := x.type } := by
  unfold resolve at h
  split at h
  · cases h
  · split at h
    · cases h
    · cases h
      rfl

/-- a read call that is taken joins a read of its entry that waits, or queues one; the type does not matter for that -/
theorem accepted_upload {r : Engine × List Effect} (h : e.upload clock d asked = .ok r) (ready : Bool) :
    ∃ type, (e.accepted d ⟨clock, ready, .upload asked⟩).toList =
      if e.queue.any (Transfer.reads asked) then [] else [⟨{ asked with type }, .read⟩] := by
  obtain ⟨id, x, hresolve, -⟩ := upload_cases h
  obtain rfl := resolve_target hresolve
  have hwaits : e.readWaits { asked with type := x.type } = e.queue.any (Transfer.reads asked) := rfl
  refine ⟨x.type, ?_⟩
  simp only [accepted, h, hresolve, hwaits]
  split <;> rfl

end Engine

namespace Service

variable {s : Service} {id : ObjectId}

/-- the place of the read that answers a call for an entry, among the transfers accepted: that of the first read of the
entry that waits, or the next one if none does -/
def place (s : Service) (id : ObjectId) : Nat := s.begun.length + s.engine.queue.findIdx (Transfer.reads id)

/-- the transfers that wait and are among the first `count` accepted -/
def waiting (s : Service) (count : Nat) : List Transfer := s.engine.queue.take (count - s.begun.length)

/-! ## The order of acceptance -/

/-- the transfers accepted are those that have begun, and then those in the queue -/
theorem accepted_run (node : UInt8) (config : Config) (d : Dictionary) (ms : List Move) :
    let s := (start node config d).run ms
    s.accepted = s.begun ++ s.engine.queue := by
  intro s
  have hserved : s.accepted = _ := run_served rfl ms
  rw [hserved, begun, Engine.pending, List.append_assoc]

theorem run_append (s : Service) (ms later : List Move) : s.run (ms ++ later) = (s.run ms).run later :=
  List.foldl_append

/-- what was accepted once keeps its place -/
theorem accepted_kept {i : Nat} {t : Transfer} (h : s.accepted[i]? = some t) (ms : List Move) :
    (s.run ms).accepted[i]? = some t := by
  induction ms generalizing s with
  | nil => exact h
  | cons m rest ih =>
    refine ih (s := s.move m) ?_
    cases m with
    | event o => exact (List.getElem?_append_left (List.getElem?_eq_some_iff.1 h).1).trans h
    | exchange d => exact h

/-- at most one transfer has begun and not ended -/
theorem length_begun_le (s : Service) : s.begun.length ≤ s.finished.length + 1 := by
  cases h : s.engine.active <;> simp [begun, h]

/-- a transfer accepted before another one has ended when the other one begins -/
theorem finished_of_begun {i j : Nat} (hij : i < j) (hj : j < s.begun.length) : i < s.finished.length := by
  have := s.length_begun_le
  omega

/-- a transfer that has ended is the one accepted at its place -/
theorem finished_getElem? (h : s.accepted = s.begun ++ s.engine.queue) {i : Nat} (hi : i < s.finished.length) :
    s.finished[i]?.map Finished.transfer = s.accepted[i]? := by
  rw [h, begun, List.append_assoc, List.getElem?_append_left (by simpa using hi), List.getElem?_map]

/-! ## The place of a read -/

/-- the read that answers a call has its place as soon as the call is taken -/
theorem place_reads (h : s.accepted = s.begun ++ s.engine.queue) {clock : Time} {r : Engine × List Effect}
    (hcall : s.engine.upload clock s.dictionary id = .ok r) (ready : Bool) :
    ∃ t, (s.move (.event ⟨clock, ready, .upload id⟩)).accepted[s.place id]? = some t ∧ t.reads id = true := by
  obtain ⟨type, haccepted⟩ := Engine.accepted_upload hcall ready
  have hnew : Transfer.reads id ⟨{ id with type }, .read⟩ = true := by
    simp [Transfer.reads, Transfer.direction, ObjectId.sameObject]
  obtain ⟨t, hplace, ht⟩ := getElem?_findIdx_concat (l := s.engine.queue) hnew
  refine ⟨t, ?_, ht⟩
  have hmoved : (s.move (.event ⟨clock, ready, .upload id⟩)).accepted =
      s.begun ++ (s.engine.queue ++
        if s.engine.queue.any (Transfer.reads id) then [] else [⟨{ id with type }, .read⟩]) := by
    rw [← haccepted, ← List.append_assoc, ← h]
    rfl
  rw [hmoved, place, List.getElem?_append_right (Nat.le_add_right _ _), Nat.add_sub_cancel_left]
  exact hplace

/-- a call joins a read accepted before the transfer at place `k`, or its place is behind that transfer, unless that
transfer is itself a read of the entry -/
theorem place_lt_iff (h : s.accepted = s.begun ++ s.engine.queue) {k : Nat} {t : Transfer}
    (hk : s.accepted[k]? = some t) (ht : t.direction = .download) (id : ObjectId) :
    (s.place id < k ↔ (s.waiting k).any (Transfer.reads id) = true) ∧ s.place id ≠ k := by
  have hfound (hlt : s.engine.queue.findIdx (Transfer.reads id) < s.engine.queue.length) :
      Transfer.reads id s.engine.queue[s.engine.queue.findIdx (Transfer.reads id)] = true := List.findIdx_getElem
  have hklt : k < s.begun.length + s.engine.queue.length := by
    have := (List.getElem?_eq_some_iff.1 hk).1
    rwa [h, List.length_append] at this
  refine ⟨⟨fun hlt => ?_, fun hany => ?_⟩, fun heq => ?_⟩
  · rw [place] at hlt
    have hread := hfound (by omega)
    refine List.any_eq_true.2 ⟨_, ?_, hread⟩
    exact List.mem_take_iff_getElem.2 ⟨_, by omega, rfl⟩
  · obtain ⟨x, hx, hreads⟩ := List.any_eq_true.1 hany
    obtain ⟨i, hi, rfl⟩ := List.mem_take_iff_getElem.1 hx
    have hle : s.engine.queue.findIdx (Transfer.reads id) ≤ i :=
      Nat.le_of_not_lt fun hbefore => by simp [List.not_of_lt_findIdx hbefore] at hreads
    rw [place]
    omega
  · -- the transfer at place `k` is no read
    rw [place] at heq
    have hlt : s.engine.queue.findIdx (Transfer.reads id) < s.engine.queue.length := by omega
    have hat : s.accepted[k]? = some s.engine.queue[s.engine.queue.findIdx (Transfer.reads id)] := by
      rw [h, ← heq, List.getElem?_append_right (Nat.le_add_right _ _), Nat.add_sub_cancel_left,
        List.getElem?_eq_getElem hlt]
    obtain rfl := Option.some.inj (hk.symm.trans hat)
    rw [Transfer.direction_of_reads (hfound hlt)] at ht
    cases ht

/-! ## Reads and writes in one run -/

/-- **Reads observe earlier writes.** A write is accepted, then a read call is taken, with anything before, between and
after. If no read of the entry that was accepted before the write waits at the moment of the call, then the read that
answers the call has a place behind the write, and it begins only when the write has ended. -/
theorem reads_follow_writes (node : UInt8) (config : Config) (d : Dictionary) (before between later : List Move)
    (write : Engine.Occasion) (t : Transfer) (clock : Time) (ready : Bool) (id : ObjectId)
    (r : Engine × List Effect) :
    let s₁ := (start node config d).run before
    let s₂ := (s₁.move (.event write)).run between
    let s₃ := (s₂.move (.event ⟨clock, ready, .upload id⟩)).run later
    s₁.engine.accepted s₁.dictionary write = some t → t.direction = .download →
      s₂.engine.upload clock s₂.dictionary id = .ok r →
      (s₂.waiting s₁.accepted.length).any (Transfer.reads id) = false →
      s₃.accepted[s₁.accepted.length]? = some t ∧
        (∃ read, s₃.accepted[s₂.place id]? = some read ∧ read.reads id = true) ∧
        (s₂.place id < s₃.begun.length → s₃.finished[s₁.accepted.length]?.map Finished.transfer = some t) := by
  intro s₁ s₂ s₃ hwrite hdirection hcall hnone
  have hs₂ : s₂.accepted = s₂.begun ++ s₂.engine.queue := by
    have := accepted_run node config d (before ++ .event write :: between)
    rwa [run_append] at this
  have hs₃ : s₃.accepted = s₃.begun ++ s₃.engine.queue := by
    have := accepted_run node config d
      (before ++ .event write :: between ++ .event ⟨clock, ready, .upload id⟩ :: later)
    rwa [run_append, run_append] at this
  -- the write has its place from the moment when it is accepted
  have hplaced : (s₁.move (.event write)).accepted[s₁.accepted.length]? = some t := by
    change (s₁.accepted ++ (s₁.engine.accepted s₁.dictionary write).toList)[s₁.accepted.length]? = some t
    simp [hwrite]
  have hwritten : s₂.accepted[s₁.accepted.length]? = some t :=
    accepted_kept hplaced between
  have hwritten₃ : s₃.accepted[s₁.accepted.length]? = some t :=
    accepted_kept hwritten (.event ⟨clock, ready, .upload id⟩ :: later)
  obtain ⟨read, hread, hreads⟩ := place_reads hs₂ hcall ready
  obtain ⟨hjoins, hother⟩ := place_lt_iff hs₂ hwritten hdirection id
  have hbehind : s₁.accepted.length < s₂.place id := by
    have hnot : ¬ s₂.place id < s₁.accepted.length := by simp [hjoins, hnone]
    omega
  refine ⟨hwritten₃, ⟨read, accepted_kept hread later, hreads⟩, fun hbegun => ?_⟩
  rw [finished_getElem? hs₃ (finished_of_begun hbehind hbegun)]
  exact hwritten₃

/-- a write of the octet 9 -/
def writeNine : Engine.Occasion := ⟨1, true, .download byteId (.u8 9)⟩

/-- the answer to the read of an octet, and the confirmation of the write -/
def answered : List Move :=
  [.event ⟨3, true, .frame ⟨0x585, [0x4f, 0x00, 0x20, 0x01, 7, 0, 0, 0]⟩⟩,
    .event ⟨4, true, .frame ⟨0x585, [0x60, 0x00, 0x20, 0x01, 0, 0, 0, 0]⟩⟩]

theorem reads_follow_writes_nine :
    let s₁ := (start 5 {} twoEntries).run [.event ⟨0, true, .upload byteId⟩]
    let s₂ := s₁.move (.event writeNine)
    let s₃ := (s₂.move (.event ⟨2, true, .upload byteId⟩)).run answered
    s₁.engine.accepted s₁.dictionary writeNine = some (.ofWrite byteId (.u8 9)) ∧
      (s₂.waiting s₁.accepted.length).any (Transfer.reads byteId) = false ∧
      s₃.engine.active.map Active.transfer = some ⟨byteId, .read⟩ ∧
      s₃.finished[1]?.map Finished.transfer = some (.ofWrite byteId (.u8 9)) := by
  intro s₁ s₂ s₃
  have hwrite : s₁.engine.accepted s₁.dictionary writeNine = some (.ofWrite byteId (.u8 9)) := by decide +kernel
  have hnone : (s₂.waiting s₁.accepted.length).any (Transfer.reads byteId) = false := by decide +kernel
  obtain ⟨-, -, hended⟩ := reads_follow_writes 5 {} twoEntries [.event ⟨0, true, .upload byteId⟩] [] answered
    writeNine (.ofWrite byteId (.u8 9)) 2 true byteId _ hwrite (by decide) rfl hnone
  exact ⟨hwrite, hnone, by decide +kernel, hended (by decide +kernel)⟩

/-- a read that a call joins may have been accepted before a write of the entry, and then it begins while the write
still waits -/
theorem joined_read_overtakes :
    ¬∀ (node : UInt8) (config : Config) (d : Dictionary) (before between later : List Move) (write : Engine.Occasion)
        (t : Transfer) (clock : Time) (ready : Bool) (id : ObjectId) (r : Engine × List Effect),
      let s₁ := (start node config d).run before
      let s₂ := (s₁.move (.event write)).run between
      let s₃ := (s₂.move (.event ⟨clock, ready, .upload id⟩)).run later
      s₁.engine.accepted s₁.dictionary write = some t → t.direction = .download → t.target.sameObject id = true →
        s₂.engine.upload clock s₂.dictionary id = .ok r →
        s₂.place id < s₃.begun.length → s₃.finished[s₁.accepted.length]?.map Finished.transfer = some t := by
  intro hclaimed
  have hended := hclaimed 5 {} twoEntries [.event ⟨0, true, .upload fileId⟩, .event ⟨0, true, .upload byteId⟩] []
    [.event ⟨3, true, .timeout⟩] writeNine (.ofWrite byteId (.u8 9)) 2 true byteId _ (by decide +kernel)
    (by decide) (by decide) rfl (by decide +kernel)
  exact absurd hended (by decide +kernel)

end Service

end SdoClient
