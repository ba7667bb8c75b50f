/-
The texts of what a transfer in progress waits for: in reports with all its fields, and as the state of an engine by
name.
-/
import SdoClient.Text.Fields
import SdoClient.Transfer

namespace SdoClient

open Text

/-- a block upload by its fields; one that the server has not accepted yet has only its block size -/
def Intake.describedText (i : Intake) (started : Bool) : String :=
  tagged "BlockUpload" <| record "BlockUpload"
    [("started", ofBool started), ("blksize", ofNat i.blksize), ("seqno", ofNat i.seqno),
      ("block", ofOctets i.block), ("error", ofBool i.gap), ("last_received", ofBool i.lastReceived),
      ("crc", ofBool i.crc)]

/-- a block download by its fields; one that the server has not accepted yet has none set -/
def Output.describedText (o : Output) (initiated : Bool) : String :=
  tagged "BlockDownload" <| record "BlockDownload"
    [("initiated", ofBool initiated), ("blksize", ofNat o.blksize), ("seqno", ofNat o.seqno),
      ("block_start", ofNat o.blockStart), ("attempts", ofNat o.attempts),
      ("awaiting_ack", ofBool o.awaitingAck), ("crc", ofBool o.crc)]

/-- what a read waits for, with its fields -/
def ReadPhase.describedText : ReadPhase → String
  | opening => "Upload"
  | segment toggle => record "UploadSegment" [("toggle", ofBool toggle)]
  | blockOpening blksize => Intake.describedText { blksize, crc := false } false
  | block intake => intake.describedText true
  | blockEnd crc => record "BlockUploadEnd" [("crc", ofBool crc)]

/-- what a write waits for, with its fields -/
def WritePhase.describedText : WritePhase → String
  | opening expedited => record "Download" [("expedited", ofBool expedited)]
  | segment toggle => record "DownloadSegment" [("toggle", ofBool toggle)]
  | blockOpening => Output.describedText { blksize := 0, crc := false } false
  | block output => output.describedText true
  | blockEnd => "BlockDownloadEnd"

/-- what a transfer waits for, with its fields -/
def Active.phaseText : Active → String
  | reading r => r.phase.describedText
  | writing w => w.phase.describedText

/-- the state of an engine -/
inductive State where
  | free
  | upload
  | uploadSegment
  | blockUpload
  | blockUploadEnd
  | download
  | downloadSegment
  | blockDownload
  | blockDownloadEnd
  deriving DecidableEq, Repr

namespace State

/-- the name of a state -/
def name : State → String
  | free => "Free"
  | upload => "Upload"
  | uploadSegment => "UploadSegment"
  | blockUpload => "BlockUpload"
  | blockUploadEnd => "BlockUploadEnd"
  | download => "Download"
  | downloadSegment => "DownloadSegment"
  | blockDownload => "BlockDownload"
  | blockDownloadEnd => "BlockDownloadEnd"

/-- the name of a state in capitals -/
def display : State → String
  | free => "FREE"
  | upload => "UPLOAD"
  | uploadSegment => "UPLOAD_SEGMENT"
  | blockUpload => "BLOCK_UPLOAD"
  | blockUploadEnd => "BLOCK_UPLOAD_END"
  | download => "DOWNLOAD"
  | downloadSegment => "DOWNLOAD_SEGMENT"
  | blockDownload => "BLOCK_DOWNLOAD"
  | blockDownloadEnd => "BLOCK_DOWNLOAD_END"

end State

/-- the state while a transfer is in progress -/
def Active.state : Active → State
  | reading r =>
    match r.phase with
    | .opening => .upload
    | .segment _ => .uploadSegment
    | .blockOpening _ | .block _ => .blockUpload
    | .blockEnd _ => .blockUploadEnd
  | writing w =>
    match w.phase with
    | .opening _ => .download
    | .segment _ => .downloadSegment
    | .blockOpening | .block _ => .blockDownload
    | .blockEnd => .blockDownloadEnd

theorem Active.state_ne_free (a : Active) : a.state ≠ .free := by
  unfold Active.state
  split <;> split <;> simp

end SdoClient
