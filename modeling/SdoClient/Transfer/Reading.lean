/-
Reads: what each frame of the server makes of an upload.

The first answer either carries the data itself or announces segments, which are asked for one by one with alternating
toggle bits. A block upload streams numbered segments instead; a block with a gap counts for nothing and is asked for
again. At the end the octets must be as many as announced and enough for the declared type.
-/
import SdoClient.Checksum
import SdoClient.Transfer.Reaction
import SdoClient.Value.Encoding

namespace SdoClient

namespace Intake

/-- takes in a segment: the next in order is kept, another one leaves a gap, and after a gap nothing counts -/
def take (i : Intake) (s : Segment) : Intake :=
  if i.gap then i
  else if s.seqno = i.seqno + 1 then
    { i with seqno := s.seqno, block := i.block ++ s.data.toList, lastReceived := s.last }
  else { i with gap := true }

/-- the block ends with this segment, by its number or because it is the last of the transfer -/
def endsWith (i : Intake) (s : Segment) : Bool := s.last || i.blksize ≤ s.seqno

end Intake

namespace Reading

variable (r : Reading)

/-- ends a read with the data received, if they are enough for the declared type -/
def finish (closing : Option Request) : Judgement :=
  match r.target.type.byteLength? with
  | some needed =>
    if r.data.length < needed then .fault (.tooShort r.target r.data.length needed) .lengthMismatch
    else .plain (.finish (Value.decode r.data r.target.type) closing)
  | none => .plain (.finish (Value.decode r.data r.target.type) closing)

/-- the answer to the initiate request: the data themselves, or their size -/
def opened (expedited sizeIndicated : Bool) (unused : Nat) (field : Vector UInt8 4) : Judgement :=
  if expedited then
    let len := if sizeIndicated then Wire.expeditedMax - unused else Wire.expeditedMax
    { r with data := field.toList.take len, size := len }.finish none
  else
    let size := if sizeIndicated then LittleEndian.decode field.toList else 0
    .plain (.ask (.reading { r with size, data := [], phase := .segment false }) (.uploadSegment false))

/-- a segment that answers the request with the toggle bit `toggle` -/
def continued (toggle : Bool) (answered : Bool) (len : Nat) (last : Bool) (field : Vector UInt8 7) : Judgement :=
  if answered ≠ toggle then .plain (.abort .toggleNotAlternated)
  else
    let r := { r with data := r.data ++ field.toList.take len }
    if last then
      if r.size ≠ 0 ∧ r.data.length ≠ r.size then
        .fault (.sizeDiffers r.target r.data.length r.size) .lengthMismatch
      else r.finish none
    else .plain (.ask (.reading { r with phase := .segment (!toggle) }) (.uploadSegment (!toggle)))

/-- the answer to the initiate request for blocks -/
def blocksOpened (config : Config) (blksize : Nat) (crc : Bool) (size : Option UInt32) : Judgement :=
  let intake : Intake := { blksize, crc := config.crc && crc }
  .plain (.ask
    (.reading { r with size := (size.map UInt32.toNat).getD 0, data := [], phase := .block intake })
    .blockUploadStart)

/-- the block size to ask for next: what the rest needs, or the configured one while the size is unknown -/
def nextBlockSize (config : Config) : Nat :=
  if r.size = 0 then config.blockSize.toNat else blockSizeFor (r.size - r.data.length) config.blockSize

/-- acknowledges a block that has ended: all its segments, or none if one was missing -/
def acknowledge (config : Config) (i : Intake) : Reaction :=
  let r := if i.gap then r else { r with data := r.data ++ i.block }
  let ackseq := if i.gap then 0 else i.seqno
  let blksize := r.nextBlockSize config
  let phase := if !i.gap && i.lastReceived then .blockEnd i.crc else .block { blksize, crc := i.crc }
  .ask (.reading { r with phase }) (.blockUploadAck (UInt8.ofNat ackseq) (UInt8.ofNat blksize))

/-- a segment of a block upload -/
def segment (config : Config) (i : Intake) (s : Segment) : Judgement :=
  let taken := i.take s
  let reports := if taken.gap && !i.gap then [.segmentGap r.target (i.seqno + 1) s.seqno] else []
  if i.endsWith s then ⟨reports, r.acknowledge config taken⟩
  else ⟨reports, .wait (.reading { r with phase := .block taken })⟩

/-- the frame that ends a block upload: without the padding of the last segment, the data must have the announced size
and checksum -/
def blocksEnded (checked : Bool) (unused : Nat) (crc : UInt16) : Judgement :=
  let r := { r with data := r.data.take (r.data.length - unused) }
  if r.size ≠ 0 ∧ r.data.length ≠ r.size then
    .fault (.blockSizeDiffers r.target r.data.length r.size) .invalidBlockSize
  else if checked && Checksum.crc16 r.data ≠ crc then .plain (.abort .crcError)
  else r.finish (some .blockUploadEnd)

/-- a response of the server to a read -/
def answer (config : Config) (response : Response) : Judgement :=
  match r.phase, response with
  | .opening, .uploadInitiate mux expedited sizeIndicated unused field =>
    r.target.checked mux (r.opened expedited sizeIndicated unused field)
  | .segment toggle, .uploadSegment answered len last field => r.continued toggle answered len last field
  | .blockOpening blksize, .blockUploadInitiate mux crc size =>
    r.target.checked mux (r.blocksOpened config blksize crc size)
  | .blockEnd checked, .blockUploadEnd unused crc => r.blocksEnded checked unused crc
  | _, _ => (Active.reading r).unexpected response

end Reading

end SdoClient
