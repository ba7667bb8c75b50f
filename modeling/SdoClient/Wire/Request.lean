/-
Requests: the frames that the client sends. `toBytes` writes a request as its eight octets. Inside a block download the
segments carry their number where other frames carry the command.

Main statement: `length_toBytes` (every request is eight octets long).
-/
import SdoClient.AbortCode
import SdoClient.Wire
import SdoClient.LittleEndian
import SdoClient.ObjectId

namespace SdoClient

/-- a frame of the client -/
inductive Request where
  /-- asks to read an entry -/
  | initiateUpload (mux : Mux)
  /-- asks for the next segment -/
  | uploadSegment (toggle : Bool)
  /-- writes up to four octets at once -/
  | initiateDownloadExpedited (mux : Mux) (data : Vector UInt8 4) (len : UInt8)
  /-- announces a write of `size` octets -/
  | initiateDownload (mux : Mux) (size : UInt32)
  /-- one segment of a write -/
  | downloadSegment (toggle : Bool) (data : Vector UInt8 7) (len : UInt8) (last : Bool)
  /-- asks to read an entry in blocks -/
  | blockUploadInitiate (mux : Mux) (blksize pst : UInt8) (crc : Bool)
  /-- lets the server send the first block -/
  | blockUploadStart
  /-- confirms the segments up to `ackseq` and asks for the next block -/
  | blockUploadAck (ackseq blksize : UInt8)
  /-- confirms the end of a block upload -/
  | blockUploadEnd
  /-- announces a write of `size` octets in blocks -/
  | blockDownloadInitiate (mux : Mux) (size : UInt32) (crc : Bool)
  /-- one segment of a block -/
  | blockDownloadSegment (seqno : UInt8) (data : Vector UInt8 7) (last : Bool)
  /-- ends a block download; `unused` octets of the last segment carry nothing -/
  | blockDownloadEnd (unused : UInt8) (crc : UInt16)
  /-- ends the transfer early -/
  | abort (mux : Mux) (code : AbortCode)
  deriving DecidableEq, Repr

namespace Request

/-- the index and the sub-index as three octets -/
def muxBytes (mux : Mux) : List UInt8 :=
  LittleEndian.encode 2 mux.index.toNat ++ [mux.subIndex]

/-- a frame that addresses an entry and carries four more octets -/
def addressed (command : UInt8) (mux : Mux) (tail : List UInt8) : List UInt8 :=
  command :: muxBytes mux ++ tail

/-- a frame of a command and up to seven more octets -/
def bare (command : UInt8) (tail : List UInt8) : List UInt8 :=
  command :: tail ++ List.replicate (7 - tail.length) 0

open Wire in
/-- the eight octets of a request. The specifiers are 0 and 1 for downloads, 2 and 3 for uploads, 4 for an abort, 5 and
6 for block uploads and block downloads. -/
def toBytes : Request → List UInt8
  | initiateUpload mux => addressed (command 2 0) mux [0, 0, 0, 0]
  | uploadSegment toggle => bare (command 3 (flag 16 toggle)) []
  | initiateDownloadExpedited mux data len =>
    addressed (command 1 (4 * ((4 - len.toNat) % 4) + 3)) mux data.toList
  | initiateDownload mux size => addressed (command 1 1) mux (LittleEndian.encode 4 size.toNat)
  | downloadSegment toggle data len last =>
    bare (command 0 (flag 16 toggle + 2 * ((7 - len.toNat) % 8) + flag 1 last)) data.toList
  | blockUploadInitiate mux blksize pst crc => addressed (command 5 (flag 4 crc)) mux [blksize, pst, 0, 0]
  | blockUploadStart => bare (command 5 3) []
  | blockUploadAck ackseq blksize => bare (command 5 2) [ackseq, blksize]
  | blockUploadEnd => bare (command 5 1) []
  | blockDownloadInitiate mux size crc =>
    addressed (command 6 (flag 4 crc + 2)) mux (LittleEndian.encode 4 size.toNat)
  | blockDownloadSegment seqno data last => bare (UInt8.ofNat (flag 128 last + seqno.toNat % 128)) data.toList
  | blockDownloadEnd unused crc =>
    bare (command 6 (4 * (unused.toNat % 8) + 1)) (LittleEndian.encode 2 crc.toNat)
  | abort mux code => addressed (command 4 0) mux (LittleEndian.encode 4 code.raw.toNat)

theorem length_toBytes (r : Request) : r.toBytes.length = Wire.size := by
  cases r <;> simp [toBytes, addressed, bare, muxBytes, Wire.size]

end Request

end SdoClient
