/-
Writes: what each frame of the server makes of a download.

A write of up to four octets is complete with the first answer. A longer one sends chunks with alternating toggle bits,
each after the confirmation of the one before. A block download sends the segments of a block at pacing ticks and then
waits for one acknowledgement; what the server did not confirm is sent again, in a block of the size that the server
grants next.
-/
import SdoClient.Checksum
import SdoClient.Wire.Response
import SdoClient.Transfer.Reaction

namespace SdoClient

namespace Writing

variable (w : Writing)

/-- sends the next chunk with the given toggle bit -/
def sendChunk (toggle : Bool) : Judgement :=
  let c := w.chunk
  .plain (.ask (.writing { w with offset := c.stop, phase := .segment toggle })
    (.downloadSegment toggle (Wire.padded 7 c.data) (UInt8.ofNat c.data.length) c.last))

/-- ends a write well -/
def finish : Judgement := .plain (.finish (some w.value) none)

/-- the confirmation of the chunk with the toggle bit `toggle` -/
def confirmed (toggle answered : Bool) : Judgement :=
  if answered ≠ toggle then .plain (.abort .toggleNotAlternated)
  else if w.size ≤ w.offset then w.finish
  else w.sendChunk (!toggle)

/-- the answer to the initiate request for a block download -/
def blocksOpened (config : Config) (crc : Bool) (blksize : UInt8) : Judgement :=
  if Wire.validBlockSize blksize.toNat then
    .plain (.pace (.writing { w with phase := .block { blksize := blksize.toNat, crc := config.crc && crc } }))
  else .plain (.abort .invalidBlockSize)

/-- the next block, which begins where the payload has been sent to -/
def nextBlock (o : Output) (blksize attempts : Nat) : Reaction :=
  .pace (.writing { w with phase := .block { blksize, blockStart := w.offset, attempts, crc := o.crc } })

/-- the end of a block download, once all blocks are confirmed -/
def blocksDone (o : Output) : Reaction :=
  let crc := if o.crc then Checksum.crc16 w.payload else 0
  .ask (.writing { w with phase := .blockEnd })
    (.blockDownloadEnd (UInt8.ofNat (finalPadding w.size)) crc)

/-- the acknowledgement of a block: of all its segments, or only of the first `ackseq` -/
def acknowledged (o : Output) (ackseq blksize : Nat) : Judgement :=
  if !Wire.validBlockSize blksize then .plain (.abort .invalidBlockSize)
  else if o.seqno < ackseq then .plain (.abort .invalidSequenceNumber)
  else if ackseq < o.seqno then
    if maxBlockRetries < o.attempts + 1 then .fault (.retriesExhausted w.target) .invalidSequenceNumber
    else
      let w := { w with offset := min (o.blockStart + ackseq * Wire.segmentSize) w.size }
      ⟨[.resending w.target ackseq o.seqno], w.nextBlock o blksize (o.attempts + 1)⟩
  else if w.size ≤ w.offset then .plain (w.blocksDone o)
  else .plain (w.nextBlock o blksize 0)

/-- a response of the server to a write -/
def answer (config : Config) (response : Response) : Judgement :=
  match w.phase, response with
  | .opening expedited, .downloadInitiate mux =>
    w.target.checked mux (if expedited then w.finish else w.sendChunk false)
  | .segment toggle, .downloadSegment answered => w.confirmed toggle answered
  | .blockOpening, .blockDownloadInitiate mux crc blksize =>
    w.target.checked mux (w.blocksOpened config crc blksize)
  | .block o, .blockDownloadAck ackseq blksize =>
    if o.awaitingAck then w.acknowledged o ackseq.toNat blksize.toNat
    else (Active.writing w).unexpected response
  | .blockEnd, .blockDownloadEnd => w.finish
  | _, _ => (Active.writing w).unexpected response

/-- the block that still has segments to send -/
def sending? : Option Output :=
  match w.phase with
  | .block o => if o.awaitingAck then none else some o
  | _ => none

/-- sends the next segment of a block. The block is complete with its last permitted segment or with the end of the
payload. -/
def tick (o : Output) : Writing × Request :=
  let c := w.chunk
  let seqno := o.seqno + 1
  ({ w with offset := c.stop, phase := .block { o with seqno, awaitingAck := c.last || o.blksize ≤ seqno } },
    .blockDownloadSegment (UInt8.ofNat seqno) (Wire.padded 7 c.data) c.last)

end Writing

end SdoClient
