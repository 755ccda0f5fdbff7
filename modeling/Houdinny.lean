import Houdinny.Lib.Text
import Houdinny.Lib.Run
import Houdinny.Lib.Stream
import Houdinny.Lib.Source
import Houdinny.Lib.Endian
import Houdinny.Lib.Toml
import Houdinny.Error
import Houdinny.Config
import Houdinny.Transport
import Houdinny.Pool
import Houdinny.Router
import Houdinny.Router.Call
import Houdinny.Router.Fairness
import Houdinny.Router.Flips
import Houdinny.Picker
import Houdinny.Relay.Buffered
import Houdinny.Relay.Rotation
import Houdinny.Relay.Duplex
import Houdinny.Route
import Houdinny.Proxy.Parse
import Houdinny.Proxy.Handler
import Houdinny.Proxy.Transparency
import Houdinny.Proxy.Framing
import Houdinny.Startup
import Houdinny.Startup.Health
import Houdinny.Startup.Identity
import Houdinny.Startup.ProxyUrl
import Houdinny.Docker
import Houdinny.Docker.Addresses
import Houdinny.Docker.Start
import Houdinny.Startup.Strategy
import Houdinny.Import.Nord
import Houdinny.Relay.Independence
import Houdinny.Config.Append
import Houdinny.Docker.Loads
import Houdinny.Import.Append
import Houdinny.Relay.HalfClose
import Houdinny.Docker.Agreement
import Houdinny.Lib.Json
import Houdinny.Mcp
import Houdinny.Payment
import Houdinny.Payment.Calls
import Houdinny.Proxy.Authority
import Houdinny.Proxy.Grammar
import Houdinny.Proxy.Heads
import Houdinny.Proxy.Hop
import Houdinny.Proxy.Injection
import Houdinny.Proxy.Queries
import Houdinny.Proxy.Targets
import Houdinny.Proxy.Upstream
import Houdinny.Transport.Reply
import Houdinny.Anticorr
import Houdinny.Config.References
import Houdinny.Config.Dotenv
import Houdinny.Docker.Token
import Houdinny.Docker.Polling
import Houdinny.Import.Servers
import Houdinny.Mcp.Removal
import Houdinny.Relay.Accounting
import Houdinny.Relay.CarryOver
import Houdinny.Route.Numbers
import Houdinny.Proxy.Dispatch
import Houdinny.Lib.Program
import Houdinny.Proxy.Stepwise
import Houdinny.Proxy.Resume
import Houdinny.Proxy.Chain
import Houdinny.Proxy.Handshake
import Houdinny.Proxy.Discipline
import Houdinny.Proxy.Refinement
import Houdinny.Proxy.Connections
import Houdinny.Startup.Serving
import Houdinny.Docker.Stack
import Houdinny.Docker.Live
import Houdinny.Relay.Ledger
import Houdinny.Picker.Within
import Houdinny.Proxy.Balance
import Houdinny.Mcp.Revocation
import Houdinny.Import.Serving
import Houdinny.Transport.Calls
import Houdinny.Startup.Outbound
