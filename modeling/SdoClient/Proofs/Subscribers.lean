/-
The subscribers of a dictionary over its whole life. They come, collect what was sent to them and hang up, in any order,
and in between commits publish notices. A publication goes through the subscribers once: each of them takes the notice
or, if it has hung up, is dropped.

Main statements:
- `subscribers_publish`: the one pass of a publication, subscriber by subscriber;
- `hears_finished`: whoever listens to a service is sent the outcome of every transfer, in the order of service;
- `hears_happen`: whatever happens, a subscriber that is listening is sent what is published then, once;
- `subscribers_miss_nothing`: so it is sent exactly the notices published since it came, in their order, whoever else
  hangs up; after each publication the subscribers are those who are listening.
-/
import Mathlib.Tactic
import SdoClient.Proofs.Service

namespace SdoClient

/-- the subscriber with one more notice, unless it has hung up -/
def Subscriber.take? (n : Notice) (s : Subscriber) : Option Subscriber :=
  if s.alive then some { s with inbox := s.inbox ++ [n] } else none

namespace Feed

variable {f : Feed} {j k : Nat} {ns : List Notice}

/-- **One pass.** A publication offers the notice to each subscriber in turn and keeps those who take it. -/
theorem subscribers_publish (f : Feed) (n : Notice) :
    (f.publish n).subscribers = f.subscribers.filterMap (Subscriber.take? n) := by
  simp only [publish]
  induction f.subscribers with
  | nil => rfl
  | cons s rest ih =>
    by_cases hs : s.alive
    · simp [Subscriber.take?, hs, ih]
    · simp [Subscriber.take?, hs, ih]

/-! ## A subscriber that is listening -/

/-- the subscriber `k` is listening, and the notices `ns` wait in its inbox -/
def Hears (f : Feed) (k : Nat) (ns : List Notice) : Prop :=
  ∃ s, f.subscribers.find? (fun s => s.number = k) = some s ∧ s.alive = true ∧ s.inbox = ns

theorem Hears.inbox (h : f.Hears k ns) : f.inbox k = ns := by
  obtain ⟨s, hs, -, rfl⟩ := h
  simp [Feed.inbox, hs]

/-- a change of subscribers that leaves their numbers changes the one that is found -/
theorem find?_map_number (subscribers : List Subscriber) {g : Subscriber → Subscriber}
    (hg : ∀ s, (g s).number = s.number) :
    (subscribers.map g).find? (fun s => s.number = k) = (subscribers.find? fun s => s.number = k).map g := by
  rw [List.find?_map]
  congr 2
  funext s
  simp [hg]

/-- a new subscriber gets a number of its own and finds its inbox empty -/
theorem hears_subscribe (hbelow : ∀ s ∈ f.subscribers, s.number < f.issued) : f.subscribe.Hears f.issued [] := by
  have hnone : f.subscribers.find? (fun s => s.number = f.issued) = none := by
    apply List.find?_eq_none.2
    intro s hs
    simpa using (hbelow s hs).ne
  exact ⟨{ number := f.issued }, by simp [subscribe, List.find?_append, hnone], rfl, rfl⟩

theorem Hears.subscribe (h : f.Hears k ns) : f.subscribe.Hears k ns := by
  obtain ⟨s, hs, halive, hinbox⟩ := h
  exact ⟨s, by simp [Feed.subscribe, List.find?_append, hs], halive, hinbox⟩

/-- that others hang up is no matter -/
theorem Hears.hangUp (h : f.Hears k ns) (hj : j ≠ k) : (f.hangUp j).Hears k ns := by
  obtain ⟨s, hs, halive, hinbox⟩ := h
  have hnumber : s.number = k := by simpa using List.find?_some hs
  refine ⟨s, ?_, halive, hinbox⟩
  rw [Feed.hangUp, find?_map_number _ (fun s => by split <;> rfl), hs, Option.map_some,
    if_neg (by rw [hnumber]; exact hj.symm)]

/-- who collects takes all that waits in the own inbox, and nothing from the others -/
theorem Hears.collect (h : f.Hears k ns) (j : Nat) : (f.collect j).Hears k (if j = k then [] else ns) := by
  obtain ⟨s, hs, halive, rfl⟩ := h
  have hnumber : s.number = k := by simpa using List.find?_some hs
  have hfound := find?_map_number f.subscribers (k := k)
    (g := fun s => if s.number = j then { s with inbox := [] } else s) (fun s => by split <;> rfl)
  rw [hs, Option.map_some, hnumber] at hfound
  refine ⟨_, hfound, ?_, ?_⟩
  · split <;> exact halive
  · by_cases hj : j = k
    · simp [hj]
    · simp [hj, Ne.symm hj]

/-- who is listening is sent every notice, once -/
theorem Hears.publish (h : f.Hears k ns) (n : Notice) : (f.publish n).Hears k (ns ++ [n]) := by
  obtain ⟨s, hs, halive, rfl⟩ := h
  refine ⟨{ s with inbox := s.inbox ++ [n] }, ?_, halive, rfl⟩
  rw [subscribers_publish]
  -- the subscribers before `s` are kept or dropped; either way `s` is the first with its number
  generalize f.subscribers = subscribers at hs
  induction subscribers with
  | nil => cases hs
  | cons first rest ih =>
    rw [List.find?_cons] at hs
    by_cases hfirst : first.number = k
    · simp only [hfirst, decide_true, Option.some.injEq] at hs
      subst hs
      simp [Subscriber.take?, halive, hfirst]
    · simp only [hfirst, decide_false] at hs
      by_cases hlistens : first.alive
      · simp [Subscriber.take?, hlistens, hfirst, ih hs]
      · simp [Subscriber.take?, hlistens, ih hs]

theorem Hears.publishAll (h : f.Hears k ns) (more : List Notice) : (more.foldl Feed.publish f).Hears k (ns ++ more) := by
  induction more generalizing f ns with
  | nil => simpa using h
  | cons n rest ih => simpa using ih (h.publish n)

/-! ## All who are listening -/

/-- the numbers of those who are listening, in the order in which they came -/
def listening (f : Feed) : List Nat := (f.subscribers.filter Subscriber.alive).map Subscriber.number

theorem listening_subscribe (f : Feed) : f.subscribe.listening = f.listening ++ [f.issued] := by
  simp [listening, subscribe]

theorem listening_hangUp (f : Feed) (k : Nat) : (f.hangUp k).listening = f.listening.filter (· ≠ k) := by
  simp only [listening, hangUp]
  induction f.subscribers with
  | nil => rfl
  | cons s rest ih =>
    by_cases hk : s.number = k
    · cases hs : s.alive <;> simp_all
    · cases hs : s.alive <;> simp_all

theorem listening_collect (f : Feed) (k : Nat) : (f.collect k).listening = f.listening := by
  simp only [listening, collect]
  induction f.subscribers with
  | nil => rfl
  | cons s rest ih =>
    by_cases hk : s.number = k
    · cases hs : s.alive <;> simp_all
    · cases hs : s.alive <;> simp_all

theorem listening_publish (f : Feed) (n : Notice) : (f.publish n).listening = f.listening := by
  simp only [listening, publish, List.filter_map, List.map_map]
  rw [List.filter_congr (q := Subscriber.alive) (fun _ _ => rfl), List.filter_filter]
  simp [Function.comp_def]

/-- a publication leaves nobody among the subscribers who is not listening -/
theorem count_publish_listening (f : Feed) (n : Notice) : (f.publish n).count = f.listening.length := by
  rw [count_publish, listening, List.length_map, List.countP_eq_length_filter]

end Feed

/-- **Subscribers learn of every transfer.** Who is listening when an engine starts, and is sent nothing by others,
finds in the inbox how each finished transfer ended, in the order of service. -/
theorem Service.hears_finished (node : UInt8) (config : Config) (d : Dictionary) (ms : List Move)
    (held : ∀ pre, pre <+: ms → ((start node config d).run pre).Held)
    (alone : ∀ pre d', pre ++ [.exchange d'] <+: ms → d'.feed = ((start node config d).run pre).dictionary.feed)
    {k : Nat} (hears : d.feed.Hears k []) :
    let s := (start node config d).run ms
    s.dictionary.feed.Hears k (s.finished.map Finished.notice) := by
  intro s
  have hfeed : s.dictionary.feed = s.published.foldl Feed.publish d.feed := run_feed rfl ms alone
  have hpublished : s.published = s.finished.map Finished.notice :=
    (run_inOrder ms (inOrder_start node config d) held).noticed
  rw [hfeed, hpublished]
  exact hears.publishAll _

/-! ## Histories -/

namespace Dictionary

/-- what can happen to a dictionary and its subscribers -/
inductive Happening where
  | subscribe
  | hangUp (number : Nat)
  | collect (number : Nat)
  | commitValue (id : ObjectId) (value : Option Value) (direction : Direction) (clock : Time)
  | commitError (id : ObjectId) (code : AbortCode) (direction : Direction)
  /-- someone works on the contents -/
  | stage (objects : SortedMap UInt16 Object)
  deriving DecidableEq

variable {d : Dictionary} {h : Dictionary.Happening} {k : Nat} {ns : List Notice}

/-- the dictionary afterwards -/
def happen (d : Dictionary) : Happening → Dictionary
  | .subscribe => { d with feed := d.feed.subscribe }
  | .hangUp k => { d with feed := d.feed.hangUp k }
  | .collect k => { d with feed := d.feed.collect k }
  | .commitValue id v direction clock => (d.commitValue id v direction clock).1
  | .commitError id code direction => (d.commitError id code direction).1
  | .stage objects => { d with objects }

/-- the dictionary after a history -/
def live (d : Dictionary) (hs : List Happening) : Dictionary := hs.foldl happen d

theorem live_snoc (d : Dictionary) (hs : List Happening) (h : Happening) :
    d.live (hs ++ [h]) = (d.live hs).happen h := by
  simp [live, List.foldl_append]

/-- the notice that is due: a commit publishes one if the dictionary has the entry -/
def notice? (d : Dictionary) : Happening → Option Notice
  | .commitValue id _ direction _ => if (d.find? id.mux).isSome then some ⟨id, direction, false⟩ else none
  | .commitError id _ direction => if (d.find? id.mux).isSome then some ⟨id, direction, true⟩ else none
  | _ => none

/-- a commit of the outcome of a transfer -/
inductive Happening.Commits : Happening → Prop
  | value (id : ObjectId) (v : Option Value) (direction : Direction) (clock : Time) :
    Commits (.commitValue id v direction clock)
  | error (id : ObjectId) (code : AbortCode) (direction : Direction) : Commits (.commitError id code direction)

/-- the notices published during a history, in order -/
def published (d : Dictionary) : List Happening → List Notice
  | [] => []
  | h :: rest => (d.notice? h).toList ++ (d.happen h).published rest

/-- what the subscriber `k` collects at a happening -/
def takes (d : Dictionary) (k : Nat) : Happening → List Notice
  | .collect j => if j = k then d.feed.inbox k else []
  | _ => []

/-- what the subscriber `k` has been sent: what it collected during a history, and what waits in its inbox at the end -/
def sentTo (d : Dictionary) (k : Nat) : List Happening → List Notice
  | [] => d.feed.inbox k
  | h :: rest => d.takes k h ++ (d.happen h).sentTo k rest

/-- those who are listening after a history, told from the subscriptions and hang-ups alone: each new subscriber gets
the number of those before it -/
def listeners (issued : Nat) (present : List Nat) : List Happening → List Nat
  | [] => present
  | .subscribe :: rest => listeners (issued + 1) (present ++ [issued]) rest
  | .hangUp k :: rest => listeners issued (present.filter (· ≠ k)) rest
  | _ :: rest => listeners issued present rest

/-! ## What one happening sends -/

/-- a commit publishes its notice, and to an unknown entry it does nothing -/
theorem feed_happen_of_commit (hcommit : h.Commits) : (d.happen h).feed = (d.notice? h).elim d.feed d.feed.publish := by
  cases hcommit with
  | value id v direction clock =>
    simp only [happen, notice?, commitValue, commit]
    split <;> rfl
  | error id code direction =>
    simp only [happen, notice?, commitError, commit]
    split <;> rfl

/-- only commits publish -/
theorem commits_of_notice {n : Notice} (hn : d.notice? h = some n) : h.Commits := by
  cases h with
  | commitValue id v direction clock => exact .value id v direction clock
  | commitError id code direction => exact .error id code direction
  | _ => cases hn

/-- who is listening is sent the notice of a commit, if one is published -/
theorem hears_commit (hears : d.feed.Hears k ns) (hcommit : h.Commits) :
    (d.happen h).feed.Hears k (ns ++ (d.notice? h).toList) := by
  rw [feed_happen_of_commit hcommit]
  cases d.notice? h with
  | none => simpa using hears
  | some n => exact hears.publish n

/-- **Step lemma.** Whatever happens but its own hang-up, a subscriber that is listening goes on listening. What it
takes and what waits for it then is what waited before and what is published. -/
theorem hears_happen (hears : d.feed.Hears k ns) (hkeeps : h ≠ .hangUp k) :
    ∃ later, (d.happen h).feed.Hears k later ∧ d.takes k h ++ later = ns ++ (d.notice? h).toList := by
  cases h with
  | subscribe => exact ⟨ns, hears.subscribe, by simp [takes, notice?]⟩
  | hangUp j =>
    have hj : j ≠ k := fun hjk => hkeeps (by rw [hjk])
    exact ⟨ns, hears.hangUp hj, by simp [takes, notice?]⟩
  | collect j =>
    refine ⟨_, hears.collect j, ?_⟩
    by_cases hj : j = k
    · simp [takes, notice?, hj, hears.inbox]
    · simp [takes, notice?, hj]
  | commitValue id v direction clock => exact ⟨_, hears_commit hears (.value id v direction clock), rfl⟩
  | commitError id code direction => exact ⟨_, hears_commit hears (.error id code direction), rfl⟩
  | stage objects => exact ⟨ns, hears, by simp [takes, notice?]⟩

/-- **Run lemma.** A subscriber that does not hang up is sent, in order, what waited for it and all that is
published. -/
theorem sentTo_eq (hears : d.feed.Hears k ns) {hs : List Happening} (hkeeps : .hangUp k ∉ hs) :
    d.sentTo k hs = ns ++ d.published hs := by
  induction hs generalizing d ns with
  | nil => simp [sentTo, published, hears.inbox]
  | cons h rest ih =>
    obtain ⟨hfirst, hrest⟩ := List.ne_and_not_mem_of_not_mem_cons hkeeps
    obtain ⟨later, hlater, htakes⟩ := hears_happen hears hfirst.symm
    calc d.takes k h ++ (d.happen h).sentTo k rest
        = d.takes k h ++ (later ++ (d.happen h).published rest) := by rw [ih hlater hrest]
      _ = (ns ++ (d.notice? h).toList) ++ (d.happen h).published rest := by rw [← List.append_assoc, htakes]
      _ = ns ++ d.published (h :: rest) := by rw [published, List.append_assoc]

/-! ## Who is listening -/

theorem listeners_append (issued : Nat) (present : List Nat) (hs more : List Happening) :
    listeners issued present (hs ++ more) =
      listeners (issued + hs.count .subscribe) (listeners issued present hs) more := by
  induction hs generalizing issued present with
  | nil => rfl
  | cons h rest ih =>
    cases h with
    | subscribe =>
      rw [List.cons_append, listeners, ih, listeners, List.count_cons_self, Nat.add_assoc, Nat.add_comm 1]
    | _ => simp [listeners, ih]

/-- who is listening came at some moment of the history, as the subscriber of that number, and has not hung up since -/
theorem subscribed_of_listener {hs : List Happening} (hk : k ∈ listeners 0 [] hs) :
    ∃ before after, hs = before ++ .subscribe :: after ∧ before.count .subscribe = k ∧ .hangUp k ∉ after := by
  induction hs using List.reverseRecOn with
  | nil => cases hk
  | append_singleton hs h ih =>
    have hlater : k ∈ listeners 0 [] hs → h ≠ .hangUp k →
        ∃ before after, hs ++ [h] = before ++ .subscribe :: after ∧ before.count .subscribe = k ∧
          .hangUp k ∉ after := by
      intro hold hkeeps
      obtain ⟨before, after, rfl, hcount, hafter⟩ := ih hold
      refine ⟨before, after ++ [h], by simp, hcount, ?_⟩
      simp [hafter, hkeeps.symm]
    rw [listeners_append] at hk
    cases h with
    | subscribe =>
      rcases List.mem_append.1 hk with hold | hnew
      · exact hlater hold (by simp)
      · exact ⟨hs, [], rfl, by simpa using (List.mem_singleton.1 hnew).symm, List.not_mem_nil⟩
    | hangUp j =>
      obtain ⟨hold, hj⟩ := List.mem_filter.1 hk
      apply hlater hold
      intro hsame
      simp [Happening.hangUp.inj hsame] at hj
    | _ => exact hlater hk (by simp)

/-- the subscribers of a feed are numbered in the order in which they came, and those who are listening are `present` -/
structure Numbered (f : Feed) (issued : Nat) (present : List Nat) : Prop where
  issued : f.issued = issued
  below : ∀ s ∈ f.subscribers, s.number < f.issued
  present : f.listening = present

theorem numbered_new : Numbered {} 0 [] := ⟨rfl, fun _ hs => absurd hs List.not_mem_nil, rfl⟩

namespace Numbered

variable {f : Feed} {issued : Nat} {present : List Nat}

theorem subscribe (h : Numbered f issued present) : Numbered f.subscribe (issued + 1) (present ++ [issued]) := by
  refine ⟨by rw [← h.issued]; rfl, ?_, by rw [Feed.listening_subscribe, h.present, h.issued]⟩
  intro s hs
  rcases List.mem_append.1 hs with hold | hnew
  · exact (h.below s hold).trans (Nat.lt_succ_self _)
  · rw [List.mem_singleton.1 hnew]
    exact Nat.lt_succ_self _

theorem hangUp (h : Numbered f issued present) (k : Nat) :
    Numbered (f.hangUp k) issued (present.filter (· ≠ k)) := by
  refine ⟨h.issued, ?_, by rw [Feed.listening_hangUp, h.present]⟩
  intro s hs
  obtain ⟨old, hold, rfl⟩ := List.mem_map.1 hs
  split <;> exact h.below old hold

theorem collect (h : Numbered f issued present) (k : Nat) : Numbered (f.collect k) issued present := by
  refine ⟨h.issued, ?_, by rw [Feed.listening_collect, h.present]⟩
  intro s hs
  obtain ⟨old, hold, rfl⟩ := List.mem_map.1 hs
  split <;> exact h.below old hold

theorem publish (h : Numbered f issued present) (n : Notice) : Numbered (f.publish n) issued present := by
  refine ⟨h.issued, ?_, by rw [Feed.listening_publish, h.present]⟩
  intro s hs
  rw [Feed.subscribers_publish] at hs
  obtain ⟨old, hold, htake⟩ := List.mem_filterMap.1 hs
  unfold Subscriber.take? at htake
  split at htake
  · cases htake
    exact h.below old hold
  · cases htake

/-- a commit changes nothing about who is listening -/
theorem commit (hd : Numbered d.feed issued present) (hcommit : h.Commits) :
    Numbered (d.happen h).feed issued present := by
  rw [feed_happen_of_commit hcommit]
  cases d.notice? h with
  | none => exact hd
  | some n => exact hd.publish n

theorem happen (hd : Numbered d.feed issued present) (h : Happening) :
    Numbered (d.happen h).feed (issued + [h].count .subscribe) (listeners issued present [h]) := by
  cases h with
  | subscribe => exact hd.subscribe
  | hangUp k => exact hd.hangUp k
  | collect k => exact hd.collect k
  | commitValue id v direction clock => exact hd.commit (.value id v direction clock)
  | commitError id code direction => exact hd.commit (.error id code direction)
  | stage objects => exact hd

/-- after a history, the feed has the subscribers that the history tells -/
theorem live (hd : Numbered d.feed issued present) (hs : List Happening) :
    Numbered (d.live hs).feed (issued + hs.count .subscribe) (listeners issued present hs) := by
  induction hs using List.reverseRecOn with
  | nil => exact hd
  | append_singleton hs h ih =>
    rw [live_snoc, List.count_append, ← Nat.add_assoc, listeners_append]
    exact ih.happen h

end Numbered

/-- **Subscribers miss nothing.** Subscribers of a new dictionary come, collect and hang up, and commits are made, in
any order. At every moment each subscriber that is listening has been sent exactly the notices published since it came,
in their order, whoever else came or hung up in between. A commit to an unknown entry publishes nothing and changes
nothing. Right after a publication there are as many subscribers as are listening. -/
theorem subscribers_miss_nothing (d : Dictionary) (hnew : d.feed = {}) :
    (∀ hs, ∀ k ∈ listeners 0 [] hs, ∃ before after, hs = before ++ .subscribe :: after ∧
        before.count .subscribe = k ∧ (d.live before).feed.issued = k ∧ .hangUp k ∉ after ∧
        (d.live (before ++ [.subscribe])).sentTo k after = (d.live (before ++ [.subscribe])).published after) ∧
      (∀ hs id, (d.live hs).find? id.mux = none → ∀ v code direction clock,
        (d.live hs).commitValue id v direction clock = (d.live hs, none) ∧
        (d.live hs).commitError id code direction = (d.live hs, none)) ∧
      ∀ hs h n, (d.live hs).notice? h = some n →
        (d.live (hs ++ [h])).feed.count = (listeners 0 [] (hs ++ [h])).length := by
  have hnumbered : ∀ hs, Numbered (d.live hs).feed (hs.count .subscribe) (listeners 0 [] hs) := by
    intro hs
    have hstart : Numbered d.feed 0 [] := hnew ▸ numbered_new
    simpa using hstart.live hs
  refine ⟨?_, ?_, ?_⟩
  · intro hs k hk
    obtain ⟨before, after, rfl, rfl, hkeeps⟩ := subscribed_of_listener hk
    have hbefore := hnumbered before
    refine ⟨before, after, rfl, rfl, hbefore.issued, hkeeps, ?_⟩
    -- it starts with an empty inbox
    have hears : (d.live (before ++ [.subscribe])).feed.Hears (before.count .subscribe) [] := by
      rw [live_snoc, ← hbefore.issued]
      exact Feed.hears_subscribe hbefore.below
    exact sentTo_eq hears hkeeps
  · intro hs id hnone v code direction clock
    exact ⟨commit_unknown _ _ _ hnone, commit_unknown _ _ _ hnone⟩
  · intro hs h n hn
    have hafter : (d.live (hs ++ [h])).feed = (d.live hs).feed.publish n := by
      rw [live_snoc, feed_happen_of_commit (commits_of_notice hn), hn, Option.elim_some]
    have hsame : ((d.live hs).feed.publish n).listening = (d.live hs).feed.listening := Feed.listening_publish _ _
    rw [← (hnumbered (hs ++ [h])).present, hafter, Feed.count_publish_listening, hsame]

open Service (twoEntries byteId fileId)

/-- the second of three subscribers hangs up, and the first collects, between commits to an entry of the dictionary and
one to an entry that it does not have -/
def comingAndGoing : List Happening :=
  [.subscribe, .commitValue byteId (some (.u8 1)) .upload 1, .subscribe, .subscribe, .hangUp 1,
    .commitError { byteId with mux := ⟨0x2000, 9⟩ } .timeout .upload, .collect 0, .commitError fileId .timeout .download,
    .commitValue byteId (some (.u8 2)) .download 2]

/-- the first and the third are sent all that is published since they came, and are the only ones left -/
theorem subscribers_miss_nothing_three :
    let d := twoEntries
    let last : Happening := .commitError byteId .timeout .upload
    d.feed = {} ∧ (0 ∈ listeners 0 [] comingAndGoing ∧ 2 ∈ listeners 0 [] comingAndGoing) ∧
      (∃ before after, comingAndGoing = before ++ .subscribe :: after ∧ before.count .subscribe = 2 ∧
        (d.live (before ++ [.subscribe])).sentTo 2 after = (d.live (before ++ [.subscribe])).published after) ∧
      (d.live (comingAndGoing.take 5)).find? ⟨0x2000, 9⟩ = none ∧
      (d.live (comingAndGoing.take 5)).commitError { byteId with mux := ⟨0x2000, 9⟩ } .timeout .upload =
        (d.live (comingAndGoing.take 5), none) ∧
      (d.live comingAndGoing).notice? last = some ⟨byteId, .upload, true⟩ ∧
      (d.live (comingAndGoing ++ [last])).feed.count = 2 ∧
      (d.live comingAndGoing).feed.inbox 2 = [⟨fileId, .download, true⟩, ⟨byteId, .download, false⟩] := by
  intro d last
  have hnew : d.feed = {} := rfl
  obtain ⟨hsent, hunknown, hcount⟩ := subscribers_miss_nothing d hnew
  have hlistens : 2 ∈ listeners 0 [] comingAndGoing := by decide +kernel
  obtain ⟨before, after, hsplit, hnumber, -, -, hall⟩ := hsent comingAndGoing 2 hlistens
  have hnone : (d.live (comingAndGoing.take 5)).find? ⟨0x2000, 9⟩ = none := by decide +kernel
  obtain ⟨-, hsame⟩ := hunknown _ { byteId with mux := ⟨0x2000, 9⟩ } hnone none .timeout .upload 1
  have hnotice : (d.live comingAndGoing).notice? last = some ⟨byteId, .upload, true⟩ := by decide +kernel
  refine ⟨hnew, ⟨by decide +kernel, hlistens⟩, ⟨before, after, hsplit, hnumber, hall⟩, hnone, hsame, hnotice, ?_, ?_⟩
  · exact (hcount comingAndGoing last _ hnotice).trans (by decide +kernel)
  · decide +kernel

end Dictionary

end SdoClient
