import EdgeFabric.Api.Accounts
import EdgeFabric.Api.Fleet
import EdgeFabric.Api.Http
import EdgeFabric.Api.Middleware
import EdgeFabric.Api.Pagination
import EdgeFabric.Api.Router
import EdgeFabric.Api.Services
import EdgeFabric.Auth.Service
import EdgeFabric.Auth.Token
import EdgeFabric.Bgp
import EdgeFabric.Bgp.Monitor
import EdgeFabric.Bgp.Peers
import EdgeFabric.Cdn
import EdgeFabric.Cdn.OriginAddresses
import EdgeFabric.CdnServer.Admission
import EdgeFabric.CdnServer.Cache
import EdgeFabric.CdnServer.CacheKey
import EdgeFabric.CdnServer.Calls
import EdgeFabric.CdnServer.Compression
import EdgeFabric.CdnServer.Directives
import EdgeFabric.CdnServer.DiskCache
import EdgeFabric.CdnServer.DiskFaults
import EdgeFabric.CdnServer.DiskLimit
import EdgeFabric.CdnServer.Entries
import EdgeFabric.CdnServer.Evidence
import EdgeFabric.CdnServer.Freshness
import EdgeFabric.CdnServer.Guards
import EdgeFabric.CdnServer.HostRouting
import EdgeFabric.CdnServer.Http
import EdgeFabric.CdnServer.HybridCache
import EdgeFabric.CdnServer.Lifetimes
import EdgeFabric.CdnServer.Lru
import EdgeFabric.CdnServer.Proxy
import EdgeFabric.CdnServer.Purge
import EdgeFabric.CdnServer.Transparency
import EdgeFabric.CdnServer.Waf
import EdgeFabric.ConfigSync
import EdgeFabric.Dns
import EdgeFabric.Dns.Serial
import EdgeFabric.DnsServer.Answers
import EdgeFabric.DnsServer.Reconfiguration
import EdgeFabric.DnsServer.Server
import EdgeFabric.DnsServer.Transfer
import EdgeFabric.DnsServer.Zone
import EdgeFabric.DnsServer.ZoneChoice
import EdgeFabric.Domain
import EdgeFabric.Events
import EdgeFabric.Events.Webhooks
import EdgeFabric.Fleet
import EdgeFabric.Ha.Callbacks
import EdgeFabric.Ha.Election
import EdgeFabric.Ha.Leader
import EdgeFabric.HealthChecks
import EdgeFabric.Lib.AdvisoryLock
import EdgeFabric.Lib.Base64
import EdgeFabric.Lib.Batches
import EdgeFabric.Lib.Dict
import EdgeFabric.Lib.Digits
import EdgeFabric.Lib.DomainName
import EdgeFabric.Lib.Gcm
import EdgeFabric.Lib.Groups
import EdgeFabric.Lib.IP
import EdgeFabric.Lib.InsertionSort
import EdgeFabric.Lib.Interleave
import EdgeFabric.Lib.Keyset
import EdgeFabric.Lib.Lines
import EdgeFabric.Lib.LinkedList
import EdgeFabric.Lib.Machine
import EdgeFabric.Lib.Prog
import EdgeFabric.Lib.Session
import EdgeFabric.Lib.Shell
import EdgeFabric.Lib.Table
import EdgeFabric.Lib.Tally
import EdgeFabric.Lib.Text
import EdgeFabric.Lib.TokenBucket
import EdgeFabric.Lib.Trace
import EdgeFabric.Lib.Uuid
import EdgeFabric.Lib.Verdict
import EdgeFabric.Lib.Yields
import EdgeFabric.Networking.Mesh
import EdgeFabric.Networking.Rendering
import EdgeFabric.Networking.Service
import EdgeFabric.Networking.WireGuard
import EdgeFabric.NodeAgent
import EdgeFabric.Polling
import EdgeFabric.Provisioning.Enrollment
import EdgeFabric.Provisioning.Host
import EdgeFabric.Provisioning.Jobs
import EdgeFabric.Provisioning.KeyAccess
import EdgeFabric.Provisioning.LeastFree
import EdgeFabric.Provisioning.Lifecycle
import EdgeFabric.Provisioning.Operations
import EdgeFabric.Provisioning.Peers
import EdgeFabric.Provisioning.Pipeline
import EdgeFabric.Provisioning.PipelineLog
import EdgeFabric.Provisioning.Recovery
import EdgeFabric.Provisioning.Reverts
import EdgeFabric.Provisioning.Rotation
import EdgeFabric.Provisioning.Service
import EdgeFabric.Provisioning.SingleUse
import EdgeFabric.Provisioning.Steps
import EdgeFabric.Provisioning.Walk
import EdgeFabric.Provisioning.WireGuard
import EdgeFabric.Rbac
import EdgeFabric.Route
import EdgeFabric.Routing.Configs
import EdgeFabric.Routing.Delivery
import EdgeFabric.Routing.Forwarder
import EdgeFabric.Routing.IcmpTable
import EdgeFabric.Routing.OneReconcile
import EdgeFabric.Routing.ProbeRaces
import EdgeFabric.Routing.Running
import EdgeFabric.Secrets.Rotation
import EdgeFabric.Secrets.Store
import EdgeFabric.Security.ActiveSessions
import EdgeFabric.Security.AgentConfinement
import EdgeFabric.Security.ConfirmedSecrets
import EdgeFabric.Security.Escalation
import EdgeFabric.Security.HandlerIsolation
import EdgeFabric.Security.LeastPrivilege
import EdgeFabric.Security.Logins
import EdgeFabric.Security.NodeAccess
import EdgeFabric.Security.Ownership
import EdgeFabric.Security.StoredKeys
import EdgeFabric.Security.TenancyConsistency
import EdgeFabric.Security.TenantIsolation
import EdgeFabric.Security.TokenIntegrity
import EdgeFabric.Startup
import EdgeFabric.Store.Cursor
import EdgeFabric.Store.Fleet
import EdgeFabric.Store.Rows
import EdgeFabric.Store.Schema
import EdgeFabric.Store.Services
import EdgeFabric.Store.Tenancy
import EdgeFabric.Tenant
import EdgeFabric.User
import EdgeFabric.World
