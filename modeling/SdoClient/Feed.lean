/-
The feed of a dictionary. Every finished transfer is published as a notice to all subscribers. A subscriber that has
hung up is dropped at the next publication, not before, and a message is delivered to each of the others once.

Main statement: `count_publish` (after a publication exactly the live subscribers are left).
-/
import SdoClient.ObjectId

namespace SdoClient

/-- which way a transfer goes, seen from the client -/
inductive Direction where
  | upload
  | download
  deriving DecidableEq, Repr

/-- the direction in words -/
def Direction.text : Direction → String
  | upload => "upload"
  | download => "download"

/-- what is published of a finished transfer -/
structure Notice where
  id : ObjectId
  direction : Direction
  failed : Bool
  deriving DecidableEq, Repr

/-- the outcome as bits: 1 for a read, 2 for a write, and 4 if it failed -/
def Notice.flags (n : Notice) : Nat :=
  (match n.direction with | .upload => 1 | .download => 2) + (if n.failed then 4 else 0)

/-- one subscriber and the notices that it has not collected yet, oldest first -/
structure Subscriber where
  number : Nat
  inbox : List Notice := []
  alive : Bool := true
  deriving DecidableEq, Repr

/-- the subscribers of a dictionary, in the order in which they came -/
structure Feed where
  issued : Nat := 0
  subscribers : List Subscriber := []
  deriving DecidableEq, Repr

namespace Feed

/-- adds a subscriber; its number is the count of those before it -/
def subscribe (f : Feed) : Feed :=
  ⟨f.issued + 1, f.subscribers ++ [{ number := f.issued }]⟩

/-- the subscriber stops listening and loses what it has not collected -/
def hangUp (f : Feed) (number : Nat) : Feed :=
  { f with subscribers := f.subscribers.map fun s =>
      if s.number = number then { s with inbox := [], alive := false } else s }

/-- drops the subscribers that hung up and delivers a notice to the others -/
def publish (f : Feed) (n : Notice) : Feed :=
  { f with subscribers :=
      (f.subscribers.filter Subscriber.alive).map fun s => { s with inbox := s.inbox ++ [n] } }

/-- the notices that a subscriber can collect -/
def inbox (f : Feed) (number : Nat) : List Notice :=
  ((f.subscribers.find? fun s => s.number = number).map Subscriber.inbox).getD []

/-- empties the inbox of a subscriber -/
def collect (f : Feed) (number : Nat) : Feed :=
  { f with subscribers := f.subscribers.map fun s =>
      if s.number = number then { s with inbox := [] } else s }

/-- the number of subscribers not dropped yet -/
def count (f : Feed) : Nat := f.subscribers.length

theorem count_publish (f : Feed) (n : Notice) : (f.publish n).count = f.subscribers.countP Subscriber.alive := by
  simp [count, publish, List.countP_eq_length_filter]

end Feed

end SdoClient
