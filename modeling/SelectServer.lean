import SelectServer.CLib.Strings
import SelectServer.CLib.Numbers
import SelectServer.CLib.Streams
import SelectServer.CLib.Lines
import SelectServer.CLib.Blocks
import SelectServer.CLib.Paths
import SelectServer.CLib.Reach
import SelectServer.Systems.Transition
import SelectServer.Systems.Ring
import SelectServer.Systems.Tally
import SelectServer.Systems.Streak
import SelectServer.Shared.Common
import SelectServer.Shared.Headers
import SelectServer.Shared.Messages
import SelectServer.Shared.Receive
import SelectServer.Shared.ReceiveSpec
import SelectServer.Shared.ReceiveProperties
import SelectServer.Shared.WellFormed
import SelectServer.Shared.Pipeline
import SelectServer.Server.HttpWrite
import SelectServer.Server.Containment
import SelectServer.Client.HttpClient
import SelectServer.Server.FileResponse
import SelectServer.Download
import SelectServer.ThreadPool.Pool
import SelectServer.ThreadPool.Queue
import SelectServer.ThreadPool.Run
import SelectServer.ThreadPool.Execution
import SelectServer.ThreadPool.Shutdown
import SelectServer.ThreadPool.Wait
import SelectServer.ThreadPool.Locking
import SelectServer.ThreadPool.CleanUp
import SelectServer.ThreadPool.Indices
import SelectServer.ThreadPool.Progress
import SelectServer.CLib.BigEndian
import SelectServer.Client.TestClient
import SelectServer.Shared.RoundTrip
import SelectServer.Shared.Serialization
import SelectServer.Shared.SentBodies
import SelectServer.Shared.HeaderReader
import SelectServer.Shared.RequestGrammar
import SelectServer.Shared.ContentLength
import SelectServer.Shared.PacketWrites
import SelectServer.Shared.Transfers
import SelectServer.Shared.HeaderLines
import SelectServer.Shared.FieldSyntax
import SelectServer.Shared.HeaderRemoval
import SelectServer.Shared.HeaderOwnership
import SelectServer.Shared.Floats
import SelectServer.Shared.PackFormat
import SelectServer.Server.Heartbeat
import SelectServer.Server.HttpTurns
import SelectServer.Server.Connections
import SelectServer.Server.Descriptors
import SelectServer.Server.ReadyDescriptors
import SelectServer.Systems.Sessions
import SelectServer.Server.Sessions
import SelectServer.Server.ServedClients
import SelectServer.Systems.Budget
import SelectServer.Systems.Datagrams
import SelectServer.Server.Ending
import SelectServer.Server.Failures
import SelectServer.Server.ResponseHeaders
import SelectServer.Server.WriteExits
import SelectServer.Server.FileLock
import SelectServer.Server.ResponseEnd
import SelectServer.Server.ReadLoop
import SelectServer.Server.Buffers
import SelectServer.Client.HeartbeatClient
import SelectServer.Client.HeartbeatRetries
import SelectServer.Client.SavedBody
import SelectServer.HeartbeatDecisions
import SelectServer.HeartbeatNetwork
import SelectServer.WebExchange
import SelectServer.WebServer
import SelectServer.Systems.Heap
import SelectServer.Shared.PacketHeap
import SelectServer.Shared.MessageHeap
import SelectServer.Server.HeaderHeap
import SelectServer.Server.Ledger
import SelectServer.Server.HttpLedger
import SelectServer.Client.ClientHeap
import SelectServer.Server.Allocations
import SelectServer.Arguments
