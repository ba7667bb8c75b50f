/-
The object dictionary of one remote node, as the client keeps it. Objects are named groups of entries under one index.
Transfers commit their outcome here, which stamps the entry and publishes a notice; local calls stage, clear and reset
values without a notice.

Main statements: `find?_commitValue`, `find?_commitError` (a commit changes the addressed entry and no other) and
`commit_unknown` (a commit to an unknown entry changes nothing).
-/
import SdoClient.Entry
import SdoClient.Feed
import SdoClient.SortedMap

namespace SdoClient

/-- what an object holds -/
inductive ObjectKind where
  /-- one value -/
  | var
  /-- entries of one type -/
  | array
  /-- entries of several types -/
  | record
  deriving DecidableEq, Repr

/-- the entries that share an index -/
structure Object where
  index : UInt16
  name : String
  kind : ObjectKind := .var
  entries : SortedMap UInt8 Entry := .empty
  deriving DecidableEq

/-- adds an entry, in the stead of one with the same sub-index -/
def Object.add (o : Object) (e : Entry) : Object := { o with entries := o.entries.insert e.subIndex e }

/-- the dictionary of a node on a bus -/
structure Dictionary where
  bus : UInt8
  node : UInt8
  objects : SortedMap UInt16 Object := .empty
  feed : Feed := {}
  deriving DecidableEq

namespace Dictionary

/-! ## Contents -/

/-- adds an object, in the stead of one with the same index -/
def insert (d : Dictionary) (o : Object) : Dictionary := { d with objects := d.objects.insert o.index o }

/-- adds an entry to the object at an index, if there is one -/
def addEntry (d : Dictionary) (index : UInt16) (e : Entry) : Dictionary :=
  { d with objects := d.objects.modify index fun o => o.add e }

/-- the entry at an address -/
def find? (d : Dictionary) (m : Mux) : Option Entry := do
  (← d.objects.find? m.index).entries.find? m.subIndex

/-- changes the entry at an address, if there is one -/
def modify (d : Dictionary) (m : Mux) (f : Entry → Entry) : Dictionary :=
  { d with objects := d.objects.modify m.index fun o =>
      { o with entries := o.entries.modify m.subIndex f } }

/-- the full id of the entry at an address, with its declared type -/
def objectId? (d : Dictionary) (m : Mux) : Option ObjectId :=
  (d.find? m).map fun e => ⟨d.bus, d.node, m, e.type⟩

theorem find?_modify (d : Dictionary) (m n : Mux) (f : Entry → Entry) :
    (d.modify m f).find? n = if n = m then (d.find? n).map f else d.find? n := by
  obtain ⟨i, s⟩ := m
  obtain ⟨j, t⟩ := n
  simp only [find?, modify, SortedMap.find?_modify, Mux.mk.injEq]
  by_cases hi : j = i
  · by_cases hs : t = s <;> cases d.objects.find? j <;> simp [hi, hs, SortedMap.find?_modify]
  · simp [hi]

/-! ## Local calls -/

/-- stages a value without a notice -/
def setValue (d : Dictionary) (m : Mux) (v : Value) (clock : Time := 0) : Except Error Dictionary := do
  let some e := d.find? m | throw (.objectNotFound m)
  let e ← e.setValue v clock
  return d.modify m fun _ => e

/-- resets every entry to its default -/
def resetAll (d : Dictionary) (clock : Time := 0) : Dictionary :=
  { d with objects := d.objects.map fun _ o => { o with entries := o.entries.map fun _ e => e.reset clock } }

/-! ## Outcomes of transfers -/

/-- changes an entry at the end of a transfer and publishes the notice; nothing happens to an unknown entry -/
def commit (d : Dictionary) (n : Notice) (f : Entry → Entry) : Dictionary × Option Notice :=
  if (d.find? n.id.mux).isSome then
    ({ d.modify n.id.mux f with feed := d.feed.publish n }, some n)
  else (d, none)

/-- commits the result of a transfer -/
def commitValue (d : Dictionary) (id : ObjectId) (v : Option Value) (direction : Direction) (clock : Time := 0) :
    Dictionary × Option Notice :=
  d.commit ⟨id, direction, false⟩ fun e => e.succeed v clock

/-- commits the failure of a transfer; the value and the time of its last change stay -/
def commitError (d : Dictionary) (id : ObjectId) (code : AbortCode) (direction : Direction) :
    Dictionary × Option Notice :=
  d.commit ⟨id, direction, true⟩ fun e => e.fail code

theorem commit_unknown (d : Dictionary) (n : Notice) (f : Entry → Entry) (h : d.find? n.id.mux = none) :
    d.commit n f = (d, none) := by
  simp [commit, h]

/-- the notice of a commit goes to the subscribers, and nothing else does -/
theorem feed_commit (d : Dictionary) (n : Notice) (f : Entry → Entry) :
    (d.commit n f).1.feed = (d.commit n f).2.toList.foldl Feed.publish d.feed := by
  unfold commit
  split <;> rfl

theorem find?_commit (d : Dictionary) (n : Notice) (f : Entry → Entry) (m : Mux) :
    (d.commit n f).1.find? m = if m = n.id.mux then (d.find? m).map f else d.find? m := by
  unfold commit
  split
  · exact find?_modify d n.id.mux m f
  · rename_i h
    split
    · rename_i hm
      subst hm
      cases hd : d.find? n.id.mux <;> simp_all
    · rfl

theorem find?_commitValue (d : Dictionary) (id : ObjectId) (v : Option Value) (direction : Direction) (clock : Time)
    (m : Mux) :
    (d.commitValue id v direction clock).1.find? m =
      if m = id.mux then (d.find? m).map (Entry.succeed · v clock) else d.find? m :=
  find?_commit d _ _ m

theorem find?_commitError (d : Dictionary) (id : ObjectId) (code : AbortCode) (direction : Direction) (m : Mux) :
    (d.commitError id code direction).1.find? m =
      if m = id.mux then (d.find? m).map (Entry.fail · code) else d.find? m :=
  find?_commit d _ _ m

end Dictionary

end SdoClient
