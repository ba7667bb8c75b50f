/-
Responses: the frames that the server sends, read from their eight octets. Within a running block upload the server
sends bare segments, which carry their number in place of the command and are read by `Segment.parse`.

Main statements: `Response.length_of_parse`, `Segment.length_of_parse` (only eight octets are read).
-/
import SdoClient.AbortCode
import SdoClient.Error
import SdoClient.Wire
import SdoClient.LittleEndian

namespace SdoClient

/-- a frame of the server -/
inductive Response where
  /-- answers a read: the data itself if `expedited`, otherwise its size; `unused` of the four octets carry nothing -/
  | uploadInitiate (mux : Mux) (expedited sizeIndicated : Bool) (unused : Nat) (data : Vector UInt8 4)
  /-- a segment of a read, of which `len` octets count -/
  | uploadSegment (toggle : Bool) (len : Nat) (last : Bool) (data : Vector UInt8 7)
  /-- accepts a write -/
  | downloadInitiate (mux : Mux)
  /-- confirms a segment of a write -/
  | downloadSegment (toggle : Bool)
  /-- accepts a read in blocks -/
  | blockUploadInitiate (mux : Mux) (crc : Bool) (size : Option UInt32)
  /-- ends a read in blocks -/
  | blockUploadEnd (unused : Nat) (crc : UInt16)
  /-- accepts a write in blocks of `blksize` segments -/
  | blockDownloadInitiate (mux : Mux) (crc : Bool) (blksize : UInt8)
  /-- confirms the segments of a block up to `ackseq` -/
  | blockDownloadAck (ackseq blksize : UInt8)
  /-- confirms the end of a write in blocks -/
  | blockDownloadEnd
  /-- ends the transfer early -/
  | abort (mux : Mux) (code : AbortCode)
  deriving DecidableEq, Repr

namespace Response

open Wire in
/-- reads eight octets as a response -/
def parse : List UInt8 → Except FrameFault Response
  | [c, b1, b2, b3, b4, b5, b6, b7] =>
    let word := UInt16.ofNat (LittleEndian.decode [b1, b2])
    let mux : Mux := ⟨word, b3⟩
    let number := UInt32.ofNat (LittleEndian.decode [b4, b5, b6, b7])
    match c.toNat / 32 with
    | 0 =>
      .ok (.uploadSegment (hasFlag c 16) (7 - c.toNat / 2 % 8) (hasFlag c 1) ⟨#[b1, b2, b3, b4, b5, b6, b7], rfl⟩)
    | 1 => .ok (.downloadSegment (hasFlag c 16))
    | 2 => .ok (.uploadInitiate mux (hasFlag c 2) (hasFlag c 1) (c.toNat / 4 % 4) ⟨#[b4, b5, b6, b7], rfl⟩)
    | 3 => .ok (.downloadInitiate mux)
    | 4 => .ok (.abort mux ⟨number⟩)
    | 5 =>
      match c.toNat % 4 with
      | 0 => .ok (.blockDownloadInitiate mux (hasFlag c 4) b4)
      | 1 => .ok .blockDownloadEnd
      | 2 => .ok (.blockDownloadAck b1 b2)
      | other => .error (.unknownBlockDownload (UInt8.ofNat other))
    | 6 =>
      if hasFlag c 1 then .ok (.blockUploadEnd (c.toNat / 4 % 8) word)
      else .ok (.blockUploadInitiate mux (hasFlag c 4) (if hasFlag c 2 then some number else none))
    | other => .error (.unknownCommand (UInt8.ofNat (32 * other)))
  | data => .error (.length data.length)

theorem length_of_parse {data : List UInt8} {r : Response} (h : parse data = .ok r) :
    data.length = Wire.size := by
  unfold parse at h
  split at h
  · rfl
  · cases h

end Response

/-- a segment of a block upload -/
structure Segment where
  seqno : Nat
  last : Bool
  data : Vector UInt8 7
  deriving DecidableEq, Repr

namespace Segment

/-- reads eight octets as a segment: its number and, in the top bit, whether it is the last -/
def parse : List UInt8 → Except FrameFault Segment
  | [c, b1, b2, b3, b4, b5, b6, b7] =>
    .ok ⟨c.toNat % 128, Wire.hasFlag c 128, ⟨#[b1, b2, b3, b4, b5, b6, b7], rfl⟩⟩
  | data => .error (.length data.length)

theorem length_of_parse {data : List UInt8} {s : Segment} (h : parse data = .ok s) :
    data.length = Wire.size := by
  unfold parse at h
  split at h
  · rfl
  · cases h

theorem seqno_of_parse {data : List UInt8} {s : Segment} (h : parse data = .ok s) : s.seqno < 128 := by
  unfold parse at h
  split at h
  · cases h
    exact Nat.mod_lt _ (by decide)
  · cases h

end Segment

/-- the octets are an abort: the only frame of the protocol that may interrupt the segments of a block -/
def isAbortFrame (data : List UInt8) : Bool :=
  data.length = Wire.size && data.head? = some (Wire.command 4 0)

end SdoClient
