import DnsLigase.Cache.Download
import DnsLigase.Cache.Coherence
import DnsLigase.Cache.Versions
import DnsLigase.Cache.Order
import DnsLigase.Cache.Jobs
import DnsLigase.Cache.Lookups
import DnsLigase.Cache.Merge
import DnsLigase.Cache.Names
import DnsLigase.Cache.Paths
import DnsLigase.Cache.Persist
import DnsLigase.Cache.Plan
import DnsLigase.Theory.Transition
import DnsLigase.Dns.RoundTrip
import DnsLigase.Dns.Reencode
import DnsLigase.Dns.Layout
import DnsLigase.Dns.Opt
import DnsLigase.Dns.Expansion
import DnsLigase.Dns.Target
import DnsLigase.Dns.NewQuery
import DnsLigase.Dns.Walk
import DnsLigase.Dns.Prefix
import DnsLigase.Dns.Bounds
import DnsLigase.Blocklist.Policy
import DnsLigase.Blocklist.Sets
import DnsLigase.Blocklist.Folding
import DnsLigase.Blocklist.LocalNames
import DnsLigase.Blocklist.HostsLines
import DnsLigase.Blocklist.Cosmetic
import DnsLigase.Blocklist.Patterns
import DnsLigase.Upstream.Question
import DnsLigase.Upstream.Framing
import DnsLigase.Upstream.Cloaking
import DnsLigase.Upstream.Truncation
import DnsLigase.Upstream.FrontEnds
import DnsLigase.Upstream.Swaps
import DnsLigase.Upstream.Serve
import DnsLigase.Upstream.LaterQuestions
import DnsLigase.Upstream.LegalQueries
import DnsLigase.Upstream.Delivery
import DnsLigase.Upstream.Peers
import DnsLigase.Upstream.UdpPool
import DnsLigase.Upstream.Resolve
import DnsLigase.Upstream.TcpPool
import DnsLigase.Main.Rebuild
import DnsLigase.Main.Build
import DnsLigase.Main.Builders
import DnsLigase.Main.Reload
import DnsLigase.Main.Sources
import DnsLigase.Main.Whole
import DnsLigase.Main.Process
import DnsLigase.Main.StatsCmd
import DnsLigase.Main.Audit
import DnsLigase.Main.Trail
import DnsLigase.Journal.Entry
import DnsLigase.Journal.Stats
import DnsLigase.Journal.Sender
import DnsLigase.Journal.Timestamp
