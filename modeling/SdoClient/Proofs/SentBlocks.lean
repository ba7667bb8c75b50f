/-
The blocks of a block download, read off the messages. The segments offered since the server last spoke are one block;
its acknowledgement says how many of them count and how many segments it grants for the next block. `Laid` says what a
block of a given payload looks like: a run of consecutive segments from where the confirmed octets end.

Main statements: `octets_slices` (consecutive segments put together are the payload, filled up) and
`laidFrom_received` (whatever the server sends, the blocks offered so far stay as they are).
-/
import Mathlib.Tactic
import SdoClient.Proofs.Chunks
import SdoClient.Proofs.Course

namespace SdoClient

/-! ## Blocks as the messages show them -/

/-- a segment as it was offered -/
structure SentSegment where
  seqno : UInt8
  data : Vector UInt8 7
  last : Bool
  deriving DecidableEq

/-- a block: the segments granted for it, those offered, and how many of these the server confirmed -/
structure SentBlock where
  granted : Nat
  segments : List SentSegment := []
  acknowledged : Nat := 0
  deriving DecidableEq

namespace SentBlock

/-- the octets of the confirmed segments -/
def confirmed (b : SentBlock) : List UInt8 := (b.segments.take b.acknowledged).flatMap fun s => s.data.toList

def add (s : SentSegment) (b : SentBlock) : SentBlock := { b with segments := b.segments ++ [s] }

def acknowledge (n : Nat) (b : SentBlock) : SentBlock := { b with acknowledged := n }

end SentBlock

/-- changes the last block -/
def onLast (f : SentBlock → SentBlock) (blocks : List SentBlock) : List SentBlock :=
  blocks.dropLast ++ (blocks.getLast?.map f).toList

/-- what a message adds to the blocks: the server opens a block when it accepts the download and when it acknowledges
the block before -/
def absorb (blocks : List SentBlock) : Message → List SentBlock
  | .received data =>
    match Response.parse data with
    | .ok (.blockDownloadInitiate _ _ blksize) => blocks ++ [{ granted := blksize.toNat }]
    | .ok (.blockDownloadAck ackseq blksize) =>
      onLast (.acknowledge ackseq.toNat) blocks ++ [{ granted := blksize.toNat }]
    | _ => blocks
  | .offered (.blockDownloadSegment seqno data last) => onLast (.add ⟨seqno, data, last⟩) blocks
  | .offered _ => blocks

/-- the blocks of a block download, oldest first -/
def sentBlocks (messages : List Message) : List SentBlock := messages.foldl absorb []

/-- all that the server confirmed, put together -/
def confirmedOctets (messages : List Message) : List UInt8 := (sentBlocks messages).flatMap SentBlock.confirmed

theorem onLast_concat (f : SentBlock → SentBlock) (closed : List SentBlock) (b : SentBlock) :
    onLast f (closed ++ [b]) = closed ++ [f b] := by
  simp [onLast]

theorem sentBlocks_append (a b : List Message) : sentBlocks (a ++ b) = b.foldl absorb (sentBlocks a) :=
  List.foldl_append

/-! ## Blocks as the payload demands them -/

/-- the first `n` segments that carry a payload on from `start` -/
def slices (payload : List UInt8) (start n : Nat) : List SentSegment :=
  (List.range n).map fun i =>
    ⟨UInt8.ofNat (i + 1), Wire.padded 7 (payload.drop (start + 7 * i)),
      decide (payload.length ≤ start + 7 * i + 7)⟩

/-- a position at which a payload has something to send: inside it, or at the start of an empty one -/
def Within (payload : List UInt8) (position : Nat) : Prop :=
  position < payload.length ∨ payload = [] ∧ position = 0

/-- a block carries the payload on from `start`, within the granted size and without superfluous segments -/
structure Laid (payload : List UInt8) (start : Nat) (b : SentBlock) : Prop where
  segments : b.segments = slices payload start b.segments.length
  granted : b.segments.length ≤ b.granted
  numbered : b.segments.length ≤ Wire.blockMax
  within : ∀ i < b.segments.length, Within payload (start + 7 * i)

/-- every block carries the payload on from what was confirmed before it -/
def LaidFrom (payload : List UInt8) : Nat → List SentBlock → Prop
  | _, [] => True
  | start, b :: rest => Laid payload start b ∧ LaidFrom payload (start + b.confirmed.length) rest

theorem within_le {payload : List UInt8} {position : Nat} (h : Within payload position) :
    position ≤ payload.length := by
  rcases h with h | ⟨rfl, rfl⟩
  · exact Nat.le_of_lt h
  · exact Nat.le_refl _

@[simp] theorem length_slices (payload : List UInt8) (start n : Nat) : (slices payload start n).length = n := by
  simp [slices]

theorem slices_succ (payload : List UInt8) (start n : Nat) :
    slices payload start (n + 1) = slices payload start n ++
      [⟨UInt8.ofNat (n + 1), Wire.padded 7 (payload.drop (start + 7 * n)),
        decide (payload.length ≤ start + 7 * n + 7)⟩] := by
  simp [slices, List.range_succ]

theorem take_slices (payload : List UInt8) (start : Nat) {k n : Nat} (h : k ≤ n) :
    (slices payload start n).take k = slices payload start k := by
  rw [slices, slices, ← List.map_take, List.take_range, Nat.min_eq_left h]

/-- the octets of the first segments are the payload from `start` on, filled up -/
theorem octets_slices (payload : List UInt8) (start k : Nat) :
    (slices payload start k).flatMap (fun s => s.data.toList) = (Wire.padded (7 * k) (payload.drop start)).toList := by
  rw [← Wire.padded_chunks, slices, List.flatMap_map]
  simp only [List.drop_drop]

theorem laidFrom_append (payload : List UInt8) (start : Nat) (a b : List SentBlock) :
    LaidFrom payload start (a ++ b) ↔
      LaidFrom payload start a ∧ LaidFrom payload (start + (a.flatMap SentBlock.confirmed).length) b := by
  induction a generalizing start with
  | nil => simp [LaidFrom]
  | cons c rest ih => simp [LaidFrom, ih, and_assoc, Nat.add_assoc]

theorem laid_empty (payload : List UInt8) (start granted : Nat) : Laid payload start { granted := granted } :=
  ⟨rfl, Nat.zero_le _, Nat.zero_le _, fun _ hi => absurd hi (Nat.not_lt_zero _)⟩

/-- how much of a block is confirmed does not matter to it -/
theorem Laid.acknowledge {payload : List UInt8} {start : Nat} {b : SentBlock} (h : Laid payload start b) (n : Nat) :
    Laid payload start (b.acknowledge n) :=
  ⟨h.segments, h.granted, h.numbered, h.within⟩

/-- whatever the server sends, the blocks offered so far carry the payload -/
theorem laidFrom_received {payload : List UInt8} {blocks : List SentBlock} (h : LaidFrom payload 0 blocks)
    (data : List UInt8) : LaidFrom payload 0 (absorb blocks (.received data)) := by
  have hopen : ∀ (blocks : List SentBlock) (granted : Nat), LaidFrom payload 0 blocks →
      LaidFrom payload 0 (blocks ++ [({ granted := granted } : SentBlock)]) := by
    intro blocks granted hb
    exact (laidFrom_append payload 0 _ _).2 ⟨hb, laid_empty payload _ granted, trivial⟩
  simp only [absorb]
  split
  · exact hopen _ _ h
  · apply hopen
    rcases List.eq_nil_or_concat blocks with rfl | ⟨closed, b, rfl⟩
    · exact trivial
    · rw [List.concat_eq_append] at h ⊢
      obtain ⟨hclosed, hb, -⟩ := (laidFrom_append payload 0 _ _).1 h
      rw [onLast_concat]
      exact (laidFrom_append payload 0 _ _).2 ⟨hclosed, hb.acknowledge _, trivial⟩
  · exact h

theorem Laid.segment {payload : List UInt8} {start : Nat} {b : SentBlock} (h : Laid payload start b) {i : Nat}
    {s : SentSegment} (hs : b.segments[i]? = some s) :
    s.seqno.toNat = i + 1 ∧ s.data = Wire.padded 7 (payload.drop (start + 7 * i)) ∧
      (s.last = true ↔ payload = [] ∨ start + 7 * i < payload.length ∧ payload.length ≤ start + 7 * i + 7) ∧
      Within payload (start + 7 * i) := by
  obtain ⟨hi, -⟩ := List.getElem?_eq_some_iff.1 hs
  have hin := h.within i hi
  have hnumber := h.numbered
  rw [h.segments] at hs
  simp only [slices, List.getElem?_map, List.getElem?_range hi, Option.map_some, Option.some.injEq] at hs
  subst hs
  refine ⟨?_, rfl, ?_, hin⟩
  · rw [UInt8.toNat_ofNat', Nat.mod_eq_of_lt]
    simp only [Wire.blockMax] at hnumber
    omega
  · simp only [decide_eq_true_eq]
    rcases hin with hin | ⟨rfl, -⟩
    · constructor
      · exact fun hend => .inr ⟨hin, hend⟩
      · rintro (rfl | ⟨-, hend⟩)
        · exact Nat.zero_le _
        · exact hend
    · simp

end SdoClient
