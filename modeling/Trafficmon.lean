import Trafficmon.Lib.GoMap
import Trafficmon.Lib.GoTime
import Trafficmon.Lib.Netip
import Trafficmon.Lib.Run
import Trafficmon.Capture.Flow
import Trafficmon.Capture.Events
import Trafficmon.Capture.Pcap
import Trafficmon.Procinfo.Ebpf
import Trafficmon.Procinfo.EbpfInv
import Trafficmon.Procinfo.EbpfRings
import Trafficmon.Aggregate.Join
import Trafficmon.Aggregate.Sweep
import Trafficmon.Aggregate.Grace
import Trafficmon.Aggregate.Order
import Trafficmon.Receiver.Translate
import Trafficmon.Aggregate.Cumulative
import Trafficmon.Capture.Decode
import Trafficmon.Capture.DecodeMemory
import Trafficmon.Capture.Race
import Trafficmon.Lib.Limiter
import Trafficmon.Lib.Tally
import Trafficmon.Receiver.Metrics
import Trafficmon.Receiver.Tick
import Trafficmon.Receiver.Series
import Trafficmon.Receiver.Counts
import Trafficmon.Lib.Deltas
import Trafficmon.Receiver.Overflow
import Trafficmon.Procinfo.Poller
import Trafficmon.Receiver.Lifecycle
import Trafficmon.Capture.LogFeed
import Trafficmon.Receiver.Logs
import Trafficmon.Receiver.ForwardLogs
import Trafficmon.Dpi.HostnameCache
import Trafficmon.Capture.Inspect
import Trafficmon.Capture.InspectRun
import Trafficmon.Capture.Handle
import Trafficmon.Capture.Rates
import Trafficmon.Dns.Resolver
import Trafficmon.Dns.ResolverInv
import Trafficmon.Dns.ResolverRuns
import Trafficmon.Dpi.HelloSegments
import Trafficmon.Dpi.HostnameLru
import Trafficmon.Aggregate.Closed
import Trafficmon.Aggregate.RecordOrder
import Trafficmon.Aggregate.SharedSockets
import Trafficmon.Lib.ParseAddr
import Trafficmon.Tui.Coherence
import Trafficmon.Aggregate.EventRuns
import Trafficmon.Capture.CaptureRun
import Trafficmon.Capture.FlowTable
import Trafficmon.Capture.Framing
import Trafficmon.Lib.InPlace
import Trafficmon.Lib.NumText
import Trafficmon.Procinfo.EbpfNames
import Trafficmon.Procinfo.ProcNet
import Trafficmon.Receiver.SynAttempts
import Trafficmon.Tui.Columns
import Trafficmon.Tui.EventsCursor
import Trafficmon.Tui.TextFilter
import Trafficmon.Lib.Nearest
import Trafficmon.Lib.Runes
import Trafficmon.Tui.Cells
import Trafficmon.Tui.Windows
import Trafficmon.Capture.DnsReports
import Trafficmon.Capture.Inspectors
import Trafficmon.Lib.Layout
import Trafficmon.Lib.Ledger
import Trafficmon.Lib.Mealy
import Trafficmon.Lib.Text
import Trafficmon.Procinfo.Attach
import Trafficmon.Procinfo.Bootstrap
import Trafficmon.Procinfo.BpfPrograms
import Trafficmon.Procinfo.Linux
import Trafficmon.Procinfo.PollerRuns
import Trafficmon.Procinfo.Windows
import Trafficmon.Lib.Styled
import Trafficmon.Tui.Bodies
import Trafficmon.Tui.Frame
import Trafficmon.Capture.Sections
import Trafficmon.Receiver.Accounts
import Trafficmon.Receiver.LogAccounts
import Trafficmon.Tui.Shown
import Trafficmon.Capture.Iface
import Trafficmon.Tui.Human
