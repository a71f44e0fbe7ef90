import UnichainBuilder.Lib.RustStd
import UnichainBuilder.Lib.Runs
import UnichainBuilder.Lib.Past
import UnichainBuilder.Lib.CommitLog
import UnichainBuilder.Lib.Countdown
import UnichainBuilder.Lib.Bound
import UnichainBuilder.Lib.Bytes
import UnichainBuilder.Lib.Text
import UnichainBuilder.Lib.Search
import UnichainBuilder.Lib.Serde
import UnichainBuilder.Lib.Broadcast
import UnichainBuilder.State
import UnichainBuilder.Block
import UnichainBuilder.Checkpoints
import UnichainBuilder.Timing
import UnichainBuilder.Publish
import UnichainBuilder.WebSocketSink
import UnichainBuilder.Limits
import UnichainBuilder.Stop
import UnichainBuilder.Bundle
import UnichainBuilder.BundleHash
import UnichainBuilder.BundleRemoval
import UnichainBuilder.EncodedTxs
import UnichainBuilder.BundleJson
import UnichainBuilder.BundleAcceptance
import UnichainBuilder.BundleSenders
import UnichainBuilder.PanicFreedom
import UnichainBuilder.Job
import UnichainBuilder.PublishedLog
import UnichainBuilder.BlockBase
import UnichainBuilder.Intervals
import UnichainBuilder.SharedBase
import UnichainBuilder.Service
import UnichainBuilder.ServiceChannel
import UnichainBuilder.Subscribers
import UnichainBuilder.Observer
import UnichainBuilder.Delivery
import UnichainBuilder.Shutdown
import UnichainBuilder.Accounting
import UnichainBuilder.FlashblocksLoop
import UnichainBuilder.FlashblockCount
import UnichainBuilder.BlockProduction
import UnichainBuilder.OverlappingJobs
import UnichainBuilder.WholeBlocks
import UnichainBuilder.LoopProgress
import UnichainBuilder.Deadlines
import UnichainBuilder.Schedule
import UnichainBuilder.GasBudget
import UnichainBuilder.Eligibility
import UnichainBuilder.EligibilityWindow
import UnichainBuilder.BundleInclusion
import UnichainBuilder.EligibilityOrder
import UnichainBuilder.Flashtestations.Contracts
import UnichainBuilder.Flashtestations.Execution
import UnichainBuilder.Flashtestations.TeeKey
import UnichainBuilder.Flashtestations.KeyFile
import UnichainBuilder.Flashtestations.Executor
import UnichainBuilder.Flashtestations.Permit
import UnichainBuilder.Flashtestations.EventCheck
import UnichainBuilder.Flashtestations.PermitSignature
import UnichainBuilder.Flashtestations.BlockContent
import UnichainBuilder.Flashtestations.Prologue
import UnichainBuilder.Flashtestations.PermitNonces
import UnichainBuilder.Flashtestations.Pipeline
import UnichainBuilder.Flashtestations.Attestation
import UnichainBuilder.Flashtestations.Identity
import UnichainBuilder.Playground
