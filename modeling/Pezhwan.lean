import Pezhwan.Atomic.Program
import Pezhwan.Atomic.Pool
import Pezhwan.Atomic.Collection
import Pezhwan.Atomic.Focus
import Pezhwan.Runtime
import Pezhwan.Session.Lineage
import Pezhwan.Session.Protocol
import Pezhwan.Session.Conduct
import Pezhwan.Session.Family
import Pezhwan.Session.Logout
import Pezhwan.Auth.World
import Pezhwan.Auth.Services
import Pezhwan.Auth.Engine
import Pezhwan.Atomic.Frame
import Pezhwan.Session.Frame
import Pezhwan.Auth.Frame
import Pezhwan.Auth.Outcome
import Pezhwan.Auth.Disabled
import Pezhwan.Auth.Total
import Pezhwan.OAuth.Service
import Pezhwan.OAuth.Usable
import Pezhwan.Auth.Factors
import Pezhwan.Auth.Handle
import Pezhwan.Auth.Recovery
import Pezhwan.OAuth.Ledger
import Pezhwan.OAuth.Protocol
import Pezhwan.OAuth.Conduct
import Pezhwan.OAuth.Codes
import Pezhwan.OAuth.Refresh
import Pezhwan.Account.State
import Pezhwan.Atomic.After
import Pezhwan.Session.Liveness
import Pezhwan.Atomic.Trace
import Pezhwan.Audit.Service
import Pezhwan.Audit.Chain
import Pezhwan.Audit.Modes
import Pezhwan.Session.Cap
import Pezhwan.Auth.Roles
import Pezhwan.Auth.Watch
import Pezhwan.Auth.Versions
import Pezhwan.Auth.Lockout
import Pezhwan.Session.Aging
import Pezhwan.Auth.Aging
import Pezhwan.OAuth.Aging
import Pezhwan.OAuth.Revocation
import Pezhwan.Server.World
import Pezhwan.Server.Routers
import Pezhwan.Server.Tenancy
import Pezhwan.Server.Standing
import Pezhwan.Json.Text
import Pezhwan.Audit.Verifier
import Pezhwan.Audit.Agreement
import Pezhwan.Audit.Retention
import Pezhwan.Otp.Protocol
import Pezhwan.Atomic.Claim
import Pezhwan.Otp.Once
import Pezhwan.Otp.Budget
import Pezhwan.Atomic.Blind
import Pezhwan.Otp.Isolation
import Pezhwan.Atomic.Script
import Pezhwan.Mfa.Service
import Pezhwan.Mfa.Follow
import Pezhwan.Mfa.Backup
import Pezhwan.Mfa.Confirmed
import Pezhwan.Mfa.Lock
import Pezhwan.Atomic.Dict
import Pezhwan.Atomic.Effect
import Pezhwan.Atomic.Lease
import Pezhwan.Atomic.Meter
import Pezhwan.Atomic.Window
import Pezhwan.Auth.Reads
import Pezhwan.Auth.Revoked
import Pezhwan.CodeGrant.Bound
import Pezhwan.Events.Replay
import Pezhwan.Events.Versions
import Pezhwan.Federation.Resolution
import Pezhwan.Jwt.Mirror
import Pezhwan.Keys.Durable
import Pezhwan.Keys.Lifecycle
import Pezhwan.Keys.Outliving
import Pezhwan.Keys.Publication
import Pezhwan.Keys.Revocation
import Pezhwan.Keys.Rotation
import Pezhwan.Locking.Conduct
import Pezhwan.Locking.Exclusion
import Pezhwan.OAuth.ServiceClients
import Pezhwan.Policies.Overriding
import Pezhwan.RateLimit.Outage
import Pezhwan.Srp.Agreement
import Pezhwan.Tokens.Protocol
import Pezhwan.Tokens.Single
import Pezhwan.WebAuthn.Counter
import Pezhwan.Delivery.Circuit
import Pezhwan.Delivery.Manager
import Pezhwan.Regions.Window
import Pezhwan.Webhooks.Service
import Pezhwan.Quotas.Held
import Pezhwan.Jobs.Stranded
import Pezhwan.Jobs.Bounded
import Pezhwan.Scim.Runs
import Pezhwan.Migration.Passes
import Pezhwan.Migration.Restored
import Pezhwan.Deploy.Serial
import Pezhwan.Auth.Context
import Pezhwan.Session.Expiry
import Pezhwan.Plugins.Mirror
import Pezhwan.Websocket.Messages
import Pezhwan.Websocket.Registry
import Pezhwan.React.Coherent
import Pezhwan.Backup.Authentic
import Pezhwan.Backup.Faithful
import Pezhwan.Tokens.Rejected
import Pezhwan.Server.Patching
import Pezhwan.Redis.Stranded
import Pezhwan.Redis.Bounded
import Pezhwan.Federation.Saml
import Pezhwan.WebAuthn.Keys
import Pezhwan.WebAuthn.Attestation
import Pezhwan.Jwt.Ecdsa
import Pezhwan.Totp.Base32
import Pezhwan.Password.Policy
import Pezhwan.Logger.Redaction
import Pezhwan.Secrets.Names
import Pezhwan.Certificates.Service
import Pezhwan.CryptoKeys.Store
import Pezhwan.Scim.Paging
import Pezhwan.Server.Bootstrap
import Pezhwan.Websocket.Wire
import Pezhwan.Zk.Stark
import Pezhwan.Auth.MagicLink
import Pezhwan.Auth.Enumeration
import Pezhwan.Java.Rfc8259
import Pezhwan.Server.Listing
