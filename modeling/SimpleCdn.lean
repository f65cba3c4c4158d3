import SimpleCdn.Lib.Dict
import SimpleCdn.Lib.Effects
import SimpleCdn.Lib.Interleaving
import SimpleCdn.Lib.Text
import SimpleCdn.Dns.LatencyRouting
import SimpleCdn.Dns.Threads.LostUpdates
import SimpleCdn.Dns.Threads.SafeAnswers
import SimpleCdn.Dns.RoutingTable
import SimpleCdn.Dns.Server
import SimpleCdn.Dns.Summary
import SimpleCdn.Dns.Resolve
import SimpleCdn.Dns.PingRounds
import SimpleCdn.Dns.Answers
import SimpleCdn.Dns.Runs
import SimpleCdn.Replica.Ping
import SimpleCdn.PingExchange
import SimpleCdn.Dns.Messages
import SimpleCdn.Dns.ReplyLoops
import SimpleCdn.Dns.Responses
import SimpleCdn.Replica.Content
import SimpleCdn.Replica.Tasks
import SimpleCdn.Replica.Provenance
import SimpleCdn.Replica.Pages
import SimpleCdn.Dns.Threads.Alone
import SimpleCdn.Replica.Warmup
import SimpleCdn.Lib.Utf8
import SimpleCdn.Replica.Preloads
import SimpleCdn.Replica.Routes
import SimpleCdn.Replica.ProbeTargets
import SimpleCdn.PreloadList
import SimpleCdn.Dns.Traces
import SimpleCdn.Dns.Totals
import SimpleCdn.Dns.MeasurementRounds
import SimpleCdn.Dns.Geography
import SimpleCdn.Dns.RejectedRecords
import SimpleCdn.Replica.OriginBytes
import SimpleCdn.RunCdn
import SimpleCdn.MaxMindDb.Database
import SimpleCdn.Lib.Simulation
import SimpleCdn.GeoIp2.Coordinates
import SimpleCdn.Dns.Process
