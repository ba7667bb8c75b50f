/-
The texts of requests and responses in reports: the kind of frame and its fields by name.
-/
import SdoClient.Wire.Request
import SdoClient.Wire.Response
import SdoClient.Text.Fields

namespace SdoClient

open Text

/-- the fields of an address -/
def Mux.fields (m : Mux) : List (String × String) :=
  [("index", ofNat m.index.toNat), ("sub_index", ofNat m.subIndex.toNat)]

/-- an abort code as a field -/
def AbortCode.field (c : AbortCode) : String × String :=
  ("code", tagged "AbortCode" (ofNat c.raw.toNat))

/-- a request by name and fields -/
def Request.describedText : Request → String
  | initiateUpload mux => record "InitiateUpload" mux.fields
  | uploadSegment toggle => record "UploadSegment" [("toggle", ofBool toggle)]
  | initiateDownloadExpedited mux data len =>
    record "InitiateDownloadExpedited" (mux.fields ++ [("data", ofOctets data.toList), ("len", ofNat len.toNat)])
  | initiateDownload mux size => record "InitiateDownload" (mux.fields ++ [("size", ofNat size.toNat)])
  | downloadSegment toggle data len last =>
    record "DownloadSegment"
      [("toggle", ofBool toggle), ("data", ofOctets data.toList), ("len", ofNat len.toNat), ("last", ofBool last)]
  | blockUploadInitiate mux blksize pst crc =>
    record "BlockUploadInitiate"
      (mux.fields ++ [("blksize", ofNat blksize.toNat), ("pst", ofNat pst.toNat), ("crc", ofBool crc)])
  | blockUploadStart => "BlockUploadStart"
  | blockUploadAck ackseq blksize =>
    record "BlockUploadAck" [("ackseq", ofNat ackseq.toNat), ("blksize", ofNat blksize.toNat)]
  | blockUploadEnd => "BlockUploadEnd"
  | blockDownloadInitiate mux size crc =>
    record "BlockDownloadInitiate" (mux.fields ++ [("size", ofNat size.toNat), ("crc", ofBool crc)])
  | blockDownloadSegment seqno data last =>
    record "BlockDownloadSegment"
      [("seqno", ofNat seqno.toNat), ("data", ofOctets data.toList), ("last", ofBool last)]
  | blockDownloadEnd unused crc =>
    record "BlockDownloadEnd" [("unused", ofNat unused.toNat), ("crc", ofNat crc.toNat)]
  | abort mux code => record "Abort" (mux.fields ++ [code.field])

/-- a response by name and fields -/
def Response.describedText : Response → String
  | uploadInitiate mux expedited sizeIndicated unused data =>
    record "UploadInitiate"
      (mux.fields ++ [("expedited", ofBool expedited), ("size_indicated", ofBool sizeIndicated),
        ("unused", ofNat unused), ("data", ofOctets data.toList)])
  | uploadSegment toggle len last data =>
    record "UploadSegment"
      [("toggle", ofBool toggle), ("len", ofNat len), ("last", ofBool last), ("data", ofOctets data.toList)]
  | downloadInitiate mux => record "DownloadInitiate" mux.fields
  | downloadSegment toggle => record "DownloadSegment" [("toggle", ofBool toggle)]
  | blockUploadInitiate mux crc size =>
    record "BlockUploadInitiate"
      (mux.fields ++ [("crc", ofBool crc), ("size", ofOption (size.map fun n => ofNat n.toNat))])
  | blockUploadEnd unused crc =>
    record "BlockUploadEnd" [("unused", ofNat unused), ("crc", ofNat crc.toNat)]
  | blockDownloadInitiate mux crc blksize =>
    record "BlockDownloadInitiate" (mux.fields ++ [("crc", ofBool crc), ("blksize", ofNat blksize.toNat)])
  | blockDownloadAck ackseq blksize =>
    record "BlockDownloadAck" [("ackseq", ofNat ackseq.toNat), ("blksize", ofNat blksize.toNat)]
  | blockDownloadEnd => "BlockDownloadEnd"
  | abort mux code => record "Abort" (mux.fields ++ [code.field])

end SdoClient
