import LlmRuntime.Library.Execution
import LlmRuntime.Library.Bytes
import LlmRuntime.Library.Xdr
import LlmRuntime.Library.SecureHash
import LlmRuntime.Sha256
import LlmRuntime.Sha256Standard
import LlmRuntime.Discovery.Registry
import LlmRuntime.Discovery.Handlers
import LlmRuntime.Discovery.Steps
import LlmRuntime.Discovery.Handshake
import LlmRuntime.Discovery.Worker
import LlmRuntime.Library.Slots
import LlmRuntime.Discovery.Lookup
import LlmRuntime.Discovery.Retransmission
import LlmRuntime.Discovery.Registration
import LlmRuntime.Discovery.RingStitch
import LlmRuntime.Discovery.RingAgreement
import LlmRuntime.DistInf.Payloads
import LlmRuntime.DistInf.Shard
import LlmRuntime.DistInf.WorkerThreads
import LlmRuntime.DistInf.SessionIsolation
import LlmRuntime.DistInf.AntiReplay
import LlmRuntime.DistInf.MasterSession
import LlmRuntime.DistInf.DriverSteps
import LlmRuntime.DistInf.Readiness
import LlmRuntime.DistInf.Cluster
import LlmRuntime.DistInf.RingLoaded
import LlmRuntime.DistInf.HopTracking
import LlmRuntime.DistInf.RingCoverage
import LlmRuntime.Library.Pipeline
import LlmRuntime.DistInf.RingReference
import LlmRuntime.DistInf.RingRefinement
import LlmRuntime.Discovery.SocketHandoff
import LlmRuntime.Llama.ThreadPool
import LlmRuntime.Llama.PoolHandshake
import LlmRuntime.DistInf.AssignmentMailbox
import LlmRuntime.DistInf.FinalAcceptance
import LlmRuntime.Ftp.Server
import LlmRuntime.Ftp.Client
import LlmRuntime.Ftp.Transfer
import LlmRuntime.Ftp.Packets
import LlmRuntime.Ftp.Window
import LlmRuntime.Ftp.Arrival
import LlmRuntime.Ftp.Replies
import LlmRuntime.Ftp.RangeFetch
import LlmRuntime.Ftp.FileMixing
import LlmRuntime.Ftp.Recovery
import LlmRuntime.Ftp.ModelCache
import LlmRuntime.Library.Buffer
import LlmRuntime.Llama.Kernels
import LlmRuntime.Llama.LayerStage
import LlmRuntime.Llama.KernelSpecs
import LlmRuntime.Llama.LayerRefinement
import LlmRuntime.Llama.Checkpoint
import LlmRuntime.Llama.ShardedModel
import LlmRuntime.Rpc.Codec
import LlmRuntime.Rpc.Layout
import LlmRuntime.Rpc.RoundTrip
import LlmRuntime.Rpc.Grammar
import LlmRuntime.Rpc.StrayTraffic
import LlmRuntime.DistInf.Steering
import LlmRuntime.DistInf.ClosedRing
import LlmRuntime.Discovery.Challenges
import LlmRuntime.Discovery.RateLimit
import LlmRuntime.Discovery.RegistryIntegrity
import LlmRuntime.Discovery.Silence
import LlmRuntime.DistInf.DeadWorker
import LlmRuntime.DistInf.HopWire
import LlmRuntime.Library.MachineInt
import LlmRuntime.Llama.MappedLayout
import LlmRuntime.Llama.HeaderSafety
import LlmRuntime.Llama.PooledKernels
import LlmRuntime.Llama.Reprocessing
import LlmRuntime.Ftp.WrittenBytes
import LlmRuntime.Ftp.PacketSafety
import LlmRuntime.Rpc.HostDecoder
import LlmRuntime.Rpc.Primitives
import LlmRuntime.Ftp.McastSwitch
import LlmRuntime.Llama.ShardSegments
import LlmRuntime.Perf
import LlmRuntime.Library.Rearrangement
import LlmRuntime.Library.Escaping
import LlmRuntime.Library.Scanner
import LlmRuntime.Stdlib.Qsort
import LlmRuntime.Stdlib.QsortBytes
import LlmRuntime.Stdlib.Bsearch
import LlmRuntime.Stdlib.Strings
import LlmRuntime.Stdlib.FormatScan
import LlmRuntime.Stdlib.Printf
import LlmRuntime.Tokenizer.Lookup
import LlmRuntime.Tokenizer.Encode
import LlmRuntime.Tokenizer.Merge
import LlmRuntime.Tokenizer.Decode
import LlmRuntime.Tokenizer.VocabTable
import LlmRuntime.Llama.Sampler
import LlmRuntime.Rpc.Transmit
