import SdoClient.Bus
import SdoClient.Checksum
import SdoClient.Value.Encoding
import SdoClient.Proofs.Reaction
import SdoClient.Proofs.Turn
import SdoClient.Proofs.Course
import SdoClient.Proofs.Service
import SdoClient.Proofs.BlockDownload
import SdoClient.Proofs.BlockStream
import SdoClient.Proofs.SegmentedUpload
import SdoClient.Proofs.BusRun
import SdoClient.Proofs.Timers
import SdoClient.Proofs.Atomicity
import SdoClient.Proofs.Delivery
import SdoClient.Proofs.ServerView
import SdoClient.Proofs.ReadBack
import SdoClient.Proofs.SegmentedDownload
import SdoClient.Proofs.BlockRetries
import SdoClient.Proofs.StoreTypes
import SdoClient.Proofs.Grammar
import SdoClient.Proofs.Sending
import SdoClient.Proofs.Pacing
import SdoClient.Proofs.ReadOrder
import SdoClient.Proofs.Independence
import SdoClient.Proofs.Machine
import SdoClient.Proofs.CheckedTransfers
import SdoClient.Proofs.CheckedEngine
import SdoClient.Proofs.Rounding
import SdoClient.Proofs.Admission
import SdoClient.Proofs.Limits
import SdoClient.Proofs.Traffic
import SdoClient.Proofs.BlockSizes
import SdoClient.Proofs.ReadMerging
import SdoClient.Proofs.LastOutcome
import SdoClient.Proofs.ResponseFrames
import SdoClient.Proofs.BurstErrors
import SdoClient.Proofs.SummedUploads
import SdoClient.Proofs.Subscribers
import SdoClient.Proofs.Polling
import SdoClient.Proofs.Identity
import SdoClient.Proofs.Refusals
import SdoClient.Proofs.BlockStates
