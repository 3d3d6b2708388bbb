import FipsExitGate.Lib.Machine
import FipsExitGate.Lib.LastWriter
import FipsExitGate.Lib.Program
import FipsExitGate.Lib.Table
import FipsExitGate.Lib.Counter
import FipsExitGate.Lib.Digits
import FipsExitGate.Lib.ShiftRegister
import FipsExitGate.Lib.Decimal
import FipsExitGate.Lib.Nft
import FipsExitGate.Lib.Allocation
import FipsExitGate.Lib.AtomicFile
import FipsExitGate.Lib.Subnet
import FipsExitGate.Lib.Ownership
import FipsExitGate.Lib.Inet
import FipsExitGate.Lib.Memo
import FipsExitGate.Lib.Json
import FipsExitGate.Lib.Tally
import FipsExitGate.Lib.PrimeField
import FipsExitGate.Lib.RowLock
import FipsExitGate.Lib.TokenBucket
import FipsExitGate.Lib.Gf32
import FipsExitGate.Lib.Hex
import FipsExitGate.Lib.QueryEscape
import FipsExitGate.Lib.LinearCode
import FipsExitGate.Lib.TripleCheck
import FipsExitGate.Lib.Base64
import FipsExitGate.Lib.Ini
import FipsExitGate.Lib.Wakeup
import FipsExitGate.Fipsaddr.Strings
import FipsExitGate.Fipsaddr.ConvertBits
import FipsExitGate.Fipsaddr.Bech32
import FipsExitGate.Fipsaddr.Npub
import FipsExitGate.Fipsaddr.Sha256
import FipsExitGate.Fipsaddr.Address
import FipsExitGate.Fipsaddr.Curve
import FipsExitGate.Fipsaddr.Grammar
import FipsExitGate.Fipsaddr.Distance
import FipsExitGate.Store.Basic
import FipsExitGate.Store.Revisions
import FipsExitGate.Store.Deltas
import FipsExitGate.Store.Schema
import FipsExitGate.Store.Whitelist
import FipsExitGate.Store.Purchases
import FipsExitGate.Store.Usage
import FipsExitGate.Store.Wireguard
import FipsExitGate.Store.Ops
import FipsExitGate.Store.Frames
import FipsExitGate.Store.Methods
import FipsExitGate.Store.Readers
import FipsExitGate.Store.Spellings
import FipsExitGate.Whitelist.Moves
import FipsExitGate.Whitelist.Calls
import FipsExitGate.Whitelist.Attribution
import FipsExitGate.Whitelist.Consent
import FipsExitGate.Whitelist.GuestCap
import FipsExitGate.Whitelist.Peers
import FipsExitGate.Wireguard.AddressPlan
import FipsExitGate.Wireguard.Keys
import FipsExitGate.Purchases.Ledger
import FipsExitGate.Purchases.Lifecycle
import FipsExitGate.Purchases.Reconciler
import FipsExitGate.Purchases.Webhook
import FipsExitGate.Sync.DeltaConvergence
import FipsExitGate.Sync.Compaction
import FipsExitGate.Sync.InlineRevoke
import FipsExitGate.Sync.LongPoll
import FipsExitGate.Sync.Freshness
import FipsExitGate.Purchases.Homecoming
import FipsExitGate.Sync.RecomputeClock
import FipsExitGate.Usage.Idempotence
import FipsExitGate.Usage.Charging
import FipsExitGate.Usage.Rollup
import FipsExitGate.Usage.Billing
import FipsExitGate.Usage.LateTraffic
import FipsExitGate.Agent.Usage
import FipsExitGate.Agent.Metering
import FipsExitGate.Agent.ServiceMap
import FipsExitGate.Agent.StateFile
import FipsExitGate.Agent.Durability
import FipsExitGate.Agent.Revocation
import FipsExitGate.Agent.WgInterface
import FipsExitGate.Agent.WgSync
import FipsExitGate.Agent.Authz
import FipsExitGate.Sync.SetHash
import FipsExitGate.Sync.Fingerprint
import FipsExitGate.Agent.AddrText
import FipsExitGate.Sync.Drift
import FipsExitGate.Agent.SyncLoop
import FipsExitGate.Agent.GraceClock
import FipsExitGate.Agent.AcctSet
import FipsExitGate.Agent.AcctJson
import FipsExitGate.Agent.ReportSize
import FipsExitGate.Wireguard.ClientConfig
import FipsExitGate.Wireguard.PeerTable
import FipsExitGate.Dispatch.Socks
import FipsExitGate.Portal.Challenge
import FipsExitGate.Portal.Buy
import FipsExitGate.Portal.Login
import FipsExitGate.Portal.RateLimit
import FipsExitGate.Portal.CaptiveToken
import FipsExitGate.Portal.Session
import FipsExitGate.Captive.Redirect
import FipsExitGate.Gate.Render
import FipsExitGate.Gate.Catalog
import FipsExitGate.Gate.Chains
import FipsExitGate.Gate.Host
import FipsExitGate.Gate.Guard
import FipsExitGate.Nodes.Enrollment
