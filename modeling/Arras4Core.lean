import Arras4Core.Api.FilenameTime
import Arras4Core.Api.IntervalText
import Arras4Core.Chunking.UnchunkerSafety
import Arras4Core.Client.CoreAssignment
import Arras4Core.Client.ExceptionCallbacks
import Arras4Core.Client.LogClient
import Arras4Core.Client.Notices
import Arras4Core.Client.ProgressSender
import Arras4Core.Client.SessionDefinition
import Arras4Core.Client.Teardown
import Arras4Core.Computation.ApplyChunkingConfig
import Arras4Core.Computation.CpuUsage
import Arras4Core.Computation.MessageCounts
import Arras4Core.Connection.Conversation
import Arras4Core.Dispatch.Arrives
import Arras4Core.Execute.ContextFiles
import Arras4Core.Execute.Lifetimes
import Arras4Core.Execute.LoanLedger
import Arras4Core.Execute.LockOrder
import Arras4Core.Execute.MemoryCalls
import Arras4Core.Execute.MemoryLimit
import Arras4Core.Execute.MemoryLimitOrder
import Arras4Core.Execute.OomCondition
import Arras4Core.Execute.OomDescriptors
import Arras4Core.Execute.PackageResolve
import Arras4Core.Execute.TaskLimits
import Arras4Core.Execute.Termination
import Arras4Core.Log.AutoLogger
import Arras4Core.Message.Deferred
import Arras4Core.Message.MetadataObject
import Arras4Core.Message.Recording
import Arras4Core.Network.ByteCounters
import Arras4Core.Network.FrameBoundary
import Arras4Core.Network.HttpUpload
import Arras4Core.Network.MultiBufferQueue
import Arras4Core.Network.MultiBufferWrite
import Arras4Core.Network.RoundTrip
import Arras4Core.Routing.AddressUniqueness
import Arras4Core.Routing.ExplicitAddressing
import Arras4Core.Shared.ExecutionLimits
