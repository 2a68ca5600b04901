import Akkon.ToMathlib.Fips180
import Akkon.Crypto.Hash
import Akkon.Crypto.Sha256
import Akkon.Crypto.Blocks
import Akkon.Network.Protocols.WebSocketHandler
import Akkon.Network.Protocols.DecodeSafety
import Akkon.Network.Protocols.Frame
import Akkon.Network.Protocols.EncodeFrame
import Akkon.Network.Protocols.DecodeFrame
import Akkon.ToMathlib.Fips180Sha1
import Akkon.Cpp.Lines
import Akkon.Network.Protocols.Sha1
import Akkon.ToMathlib.Base64
import Akkon.Network.Protocols.Handshake
import Akkon.ToMathlib.Program
import Akkon.ToMathlib.WeakestPre
import Akkon.ToMathlib.StepSystem
import Akkon.ToMathlib.FairRun
import Akkon.Index.BloomFilter
import Akkon.Index.BloomIndices
import Akkon.Index.QueryEngine
import Akkon.Index.History
import Akkon.ToMathlib.RoundRobin
import Akkon.Db.DataStorage
import Akkon.Db.Sharding
import Akkon.ToMathlib.Json
import Akkon.Main.Extract
import Akkon.Network.Protocols.HttpHandler
import Akkon.ToMathlib.FileTree
import Akkon.Main.DataHandler
import Akkon.Main.Service
import Akkon.Main.ExistsBatch
import Akkon.Main.LogCallback
import Akkon.Main.StoredData
import Akkon.Main.IndexAgreement
import Akkon.Main.ShortForm
import Akkon.Main.JsonLayout
import Akkon.Main.ArrayLayout
import Akkon.Main.Startup
import Akkon.Main.Reload
import Akkon.Main.SetRefinement
import Akkon.Main.ConcurrentInserts
import Akkon.ToMathlib.LockProgram
import Akkon.Main.Locking
import Akkon.Network.ThreadPool
import Akkon.Network.Server
import Akkon.Network.PollSet
import Akkon.Network.Resume
import Akkon.Main.Process
import Akkon.Main.Addressing
import Akkon.Main.WebSocketClients
import Akkon.Main.PollSet
import Akkon.Main.OneHandler
import Akkon.Main.ClientStream
import Akkon.Memory.ArenaAllocator
import Akkon.Memory.CheckAccess
import Akkon.Memory.LiveRegions
import Akkon.Memory.Canaries
import Akkon.Security.VulnerabilityPoll
import Akkon.Security.FetchStatus
import Akkon.Security.LocalAlarm
import Akkon.Construction.MasterDB
import Akkon.Construction.ImportScan
import Akkon.ToMathlib.SqlText
import Akkon.Construction.SqlStatements
import Akkon.Construction.Repair
import Akkon.Shell.ArgumentRegistry
import Akkon.Shell.ArgumentParser
import Akkon.Shell.Shell
import Akkon.Shell.CommandLine
import Akkon.Shell.Positions
import Akkon.Shell.Restart
import Akkon.Main.CommandLine
import Akkon.Main.Routes
import Akkon.Main.LogLines
import Akkon.Main.LifetimeCounter
import Akkon.Main.OneRelease
import Akkon.ToMathlib.HttpMessage
import Akkon.Main.HttpReplies
import Akkon.ToMathlib.Interference
import Akkon.Main.Interference
import Akkon.Main.ReadYourWrites
import Akkon.Main.LockdownFreeze
import Akkon.TestSuite.Host
import Akkon.TestSuite.TestFramework
import Akkon.TestSuite.Rules
import Akkon.TestSuite.Signals
import Akkon.TestSuite.ExitCodes
import Akkon.TestSuite.Cleanup
import Akkon.Monitor.Watchdog
import Akkon.ToMathlib.JsonObject
import Akkon.VulnServer.Server
import Akkon.VulnServer.Protocol
import Akkon.ToMathlib.Unwinding
import Akkon.ToMathlib.Binary64
import Akkon.Memory.MemoryManager
import Akkon.Monitor.HealthMonitor
import Akkon.Main.Broadcast
import Akkon.Main.Lives
import Akkon.ToMathlib.StrongFairness
import Akkon.Main.Progress
