/-
Transfers: a read or a write of one entry, first waiting in the queue of an engine and then in progress. What a
transfer has exchanged so far is kept in the transfer itself, so that nothing of it outlives it.

A read collects octets until the server says that they are complete. A write hands out its payload in chunks of up to
seven octets. In a block transfer the segments of a block are numbered from 1 and acknowledged together.
-/
import SdoClient.Config
import SdoClient.Feed
import SdoClient.Wire.Request
import SdoClient.Value

namespace SdoClient

/-- what a transfer does with its entry -/
inductive Job where
  | read
  /-- sends the payload, of `size` octets; once it is accepted the entry holds the value -/
  | write (value : Value) (payload : List UInt8) (size : Nat := payload.length)
  deriving DecidableEq

/-- a transfer that waits for its turn -/
structure Transfer where
  target : ObjectId
  job : Job
  deriving DecidableEq

/-- the direction of a waiting transfer -/
def Transfer.direction (t : Transfer) : Direction :=
  match t.job with
  | .read => .upload
  | .write _ _ _ => .download

/-- the size kept beside the payload of a write is the length of the payload -/
def Transfer.Sized (t : Transfer) : Prop :=
  match t.job with
  | .read => True
  | .write _ payload size => size = payload.length

theorem Transfer.sized_read (id : ObjectId) : Transfer.Sized ⟨id, .read⟩ := trivial

theorem Transfer.sized_write (id : ObjectId) (v : Value) (payload : List UInt8) :
    Transfer.Sized ⟨id, .write v payload⟩ := rfl

/-! ## Reads in progress -/

/-- a block upload while the server sends segments -/
structure Intake where
  /-- the segments expected in this block -/
  blksize : Nat
  /-- the number of the last segment received in order -/
  seqno : Nat := 0
  /-- the octets of this block -/
  block : List UInt8 := []
  /-- a segment of this block was missing -/
  gap : Bool := false
  /-- the last segment received in order ends the transfer -/
  lastReceived : Bool := false
  /-- both sides use the checksum -/
  crc : Bool
  deriving DecidableEq, Repr

/-- what a read waits for -/
inductive ReadPhase where
  /-- the answer to the initiate request -/
  | opening
  /-- a segment with this toggle bit -/
  | segment (toggle : Bool)
  /-- the answer to the initiate request for blocks of this size -/
  | blockOpening (blksize : Nat)
  /-- the next segment of a block -/
  | block (intake : Intake)
  /-- the frame that ends a block upload -/
  | blockEnd (crc : Bool)
  deriving DecidableEq, Repr

/-- a read in progress -/
structure Reading where
  target : ObjectId
  /-- the announced size, 0 while unknown -/
  size : Nat := 0
  /-- the octets received and confirmed -/
  data : List UInt8 := []
  phase : ReadPhase
  deriving DecidableEq, Repr

/-! ## Writes in progress -/

/-- a block download once the server accepted it -/
structure Output where
  /-- the segments per block that the server granted -/
  blksize : Nat
  /-- the number of the last segment sent in this block -/
  seqno : Nat := 0
  /-- where in the payload this block begins -/
  blockStart : Nat := 0
  /-- how many blocks in a row were not confirmed completely -/
  attempts : Nat := 0
  /-- the block is sent and its acknowledgement outstanding -/
  awaitingAck : Bool := false
  /-- both sides use the checksum -/
  crc : Bool
  deriving DecidableEq, Repr

/-- what a write waits for -/
inductive WritePhase where
  /-- the answer to the initiate request, which carried the whole payload if `expedited` -/
  | opening (expedited : Bool)
  /-- the confirmation of the segment with this toggle bit -/
  | segment (toggle : Bool)
  /-- the answer to the initiate request for a block download -/
  | blockOpening
  /-- the next pacing tick or the acknowledgement of a block -/
  | block (output : Output)
  /-- the confirmation of the end -/
  | blockEnd
  deriving DecidableEq, Repr

/-- a write in progress -/
structure Writing where
  target : ObjectId
  value : Value
  payload : List UInt8
  /-- the octets to send -/
  size : Nat := payload.length
  /-- where in the payload the next chunk begins -/
  offset : Nat := 0
  phase : WritePhase
  deriving DecidableEq

/-- the size kept beside the payload is the length of the payload -/
def Writing.Sized (w : Writing) : Prop := w.size = w.payload.length

/-- the transfer in progress -/
inductive Active where
  | reading (r : Reading)
  | writing (w : Writing)
  deriving DecidableEq

namespace Active

/-- the entry read or written -/
def target : Active → ObjectId
  | reading r => r.target
  | writing w => w.target

/-- the direction -/
def direction : Active → Direction
  | reading _ => .upload
  | writing _ => .download

/-- the size that the server announced of a read, or the one of the payload of a write -/
def size : Active → Nat
  | reading r => r.size
  | writing w => w.size

/-- the octets received so far, or the octets to send -/
def data : Active → List UInt8
  | reading r => r.data
  | writing w => w.payload

/-- the octets still to come or to send -/
def remaining : Active → Nat
  | reading r => r.size - r.data.length
  | writing w => w.size - w.offset

end Active

/-- domains always move by block transfer -/
def ObjectId.usesBlocks (id : ObjectId) : Bool := id.type = .domain

/-- how many blocks in a row a server may confirm incompletely before a block download gives up -/
def maxBlockRetries : Nat := 3

/-! ## Chunks -/

/-- a piece of a payload: its octets, where it stops, and whether the payload ends there -/
structure Chunk where
  data : List UInt8
  stop : Nat
  last : Bool
  deriving DecidableEq, Repr

/-- the next chunk of up to seven octets -/
def Writing.chunk (w : Writing) : Chunk :=
  let stop := min (w.offset + Wire.segmentSize) w.payload.length
  ⟨(w.payload.drop w.offset).take Wire.segmentSize, stop, w.size ≤ stop⟩

theorem Writing.length_chunk_le (w : Writing) : w.chunk.data.length ≤ Wire.segmentSize := by
  rw [chunk, List.length_take]
  exact Nat.min_le_left _ _

/-- how many segments a block needs for `remaining` octets, at least one and at most `most` -/
def blockSizeFor (remaining : Nat) (most : UInt8) : Nat :=
  let most := max 1 (min most.toNat Wire.blockMax)
  max 1 (min ((remaining + 6) / Wire.segmentSize) most)

/-- how many octets of the last segment of a payload of `size` octets carry nothing; the only segment of an empty
payload carries nothing at all -/
def finalPadding (size : Nat) : Nat :=
  if size % Wire.segmentSize = 0 ∧ 0 < size then 0 else Wire.segmentSize - size % Wire.segmentSize

/-! ## Opening a transfer -/

/-- the size that an initiate frame announces: as large as the field allows -/
def announced (size : Nat) : UInt32 := UInt32.ofNat (min size (UInt32.size - 1))

/-- puts a transfer in progress and gives its initiate request. A domain is moved in blocks; another write of one to
four octets is sent at once. -/
def Transfer.begin (config : Config) (t : Transfer) : Active × Request :=
  let mux := t.target.mux
  match t.job with
  | .read =>
    if t.target.usesBlocks then
      (.reading { target := t.target, phase := .blockOpening config.blockSize.toNat },
        .blockUploadInitiate mux config.blockSize 0 config.crc)
    else (.reading { target := t.target, phase := .opening }, .initiateUpload mux)
  | .write value payload size =>
    let writing : Writing := { target := t.target, value, payload, size, phase := .blockOpening }
    if t.target.usesBlocks then (.writing writing, .blockDownloadInitiate mux (announced size) config.crc)
    else if 1 ≤ size ∧ size ≤ Wire.expeditedMax then
      (.writing { writing with offset := size, phase := .opening true },
        .initiateDownloadExpedited mux (Wire.padded 4 payload) (UInt8.ofNat size))
    else (.writing { writing with phase := .opening false }, .initiateDownload mux (announced size))

theorem Transfer.target_begin (config : Config) (t : Transfer) : (t.begin config).1.target = t.target := by
  unfold Transfer.begin
  split
  · split <;> rfl
  · split
    · rfl
    · split <;> rfl

end SdoClient
