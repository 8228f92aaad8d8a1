import DnsProxy.Basic
import DnsProxy.Lib.BigEndian
import DnsProxy.Lib.BitPrefix
import DnsProxy.Lib.Binary64
import DnsProxy.Lib.KeyedStore
import DnsProxy.Lib.Runs
import DnsProxy.Lib.SingleFlight
import DnsProxy.Receipt
import DnsProxy.Net
import DnsProxy.CacheKey
import DnsProxy.Platform
import DnsProxy.Cache
import DnsProxy.SubnetLookup
import DnsProxy.CacheAge
import DnsProxy.CacheTTL
import DnsProxy.Upstreams
import DnsProxy.ParallelExchange
import DnsProxy.LoadBalance
import DnsProxy.FastestAddr
import DnsProxy.Dns64
import DnsProxy.Proxy
import DnsProxy.Transparency
import DnsProxy.PendingKey
import DnsProxy.Pending
import DnsProxy.Request
import DnsProxy.System
import DnsProxy.Discipline
import DnsProxy.Isolation
import DnsProxy.ClientShape
import DnsProxy.ClientSubnet
import DnsProxy.CacheStores
import DnsProxy.Coalesced
import DnsProxy.AnswerPolicy
import DnsProxy.Dns64Synthesis
import DnsProxy.Admission
import DnsProxy.Lib.WhiteSpace
import DnsProxy.UpstreamsConfig
import DnsProxy.Routing
import DnsProxy.ConfigLines
import DnsProxy.Lib.EscapedText
import DnsProxy.Zones
import DnsProxy.Lib.NetIP
import DnsProxy.DoHServer
import DnsProxy.Transport
import DnsProxy.Delivery
import DnsProxy.Lib.Interleaving
import DnsProxy.Blocking
import DnsProxy.Respond
import DnsProxy.MalformedUDP
import DnsProxy.Lib.Permits
import DnsProxy.RequestsSema
import DnsProxy.Lib.Checked
import DnsProxy.DnsCrypt.Certificate
import DnsProxy.DnsCrypt.Encryption
import DnsProxy.DnsCrypt.Sizes
import DnsProxy.DnsCrypt.Handshake
import DnsProxy.Foreign
import DnsProxy.Replay
import DnsProxy.Lib.ByteStream
import DnsProxy.Framing
import DnsProxy.DoQServer
import DnsProxy.DoQStream
import DnsProxy.Lib.Custody
import DnsProxy.DoTPool
import DnsProxy.DoQConn
import DnsProxy.DoHClient
import DnsProxy.DnsCrypt.Lifecycle
import DnsProxy.Startup
import DnsProxy.Bootstrap
import DnsProxy.Lib.EventWindow
import DnsProxy.RateLimit
import DnsProxy.PrivateConfig
import DnsProxy.Lib.FirstBest
import DnsProxy.DnsCrypt.Dial
import DnsProxy.DnsCrypt.Generate
import DnsProxy.DnsCrypt.Encodings
import DnsProxy.Lib.StreamCipher
import DnsProxy.DnsCrypt.SecretBox
import DnsProxy.LatencyCache
import DnsProxy.Lib.Tasks
import DnsProxy.DnsCrypt.Refresh
import DnsProxy.Lib.WaitGroup
import DnsProxy.HTTPWork
import DnsProxy.DnsCrypt.Serving
import DnsProxy.DnsCrypt.Session
import DnsProxy.DnsCrypt.Exchange
import DnsProxy.DnsCrypt.Provision
import DnsProxy.Lib.FanIn
import DnsProxy.Lib.KeyLock
import DnsProxy.Lookups
import DnsProxy.BootstrapCalls
import DnsProxy.Dialing
import DnsProxy.TCPServer
import DnsProxy.Chained
import DnsProxy.Recursion
import DnsProxy.Completion
import DnsProxy.Answered
import DnsProxy.HostsFiles
