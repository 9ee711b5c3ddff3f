/-
The entities of the control plane (`internal/domain`), field by field as the
source has them. A Go string type whose values come unchecked from requests
(a role, a node's or a user's status) stays an open string with named
constants; a type that only ever takes its constants is an inductive type.
-/
import Mathlib.Data.BitVec

namespace EdgeFabric

/-- `domain.ID`: a UUID, its sixteen bytes as one number. -/
abbrev ID := BitVec 128

instance ID.lawfulBEq : LawfulBEq ID := inferInstance

/-- A moment in time (`time.Time`), in nanoseconds since the epoch. -/
abbrev Time := Nat

def Time.unix (t : Time) : Nat := t / 1000000000

def Time.second : Time := 1000000000
def Time.hour : Time := 3600 * Time.second

/-- `domain.Role`: any string; the authorizer knows three of them. -/
abbrev Role := String

def Role.superUser : Role := "superuser"
def Role.admin : Role := "admin"
def Role.readOnly : Role := "readonly"

abbrev TenantStatus := String

def TenantStatus.active : TenantStatus := "active"
def TenantStatus.deleted : TenantStatus := "deleted"

structure Tenant where
  id : ID
  name : String
  slug : String
  status : TenantStatus
  settings : Option String
  createdAt : Time
  updatedAt : Time
  deriving DecidableEq, Repr

abbrev UserStatus := String

def UserStatus.active : UserStatus := "active"
def UserStatus.disabled : UserStatus := "disabled"

structure User where
  id : ID
  tenantID : Option ID
  email : String
  name : String
  passwordHash : String
  totpSecret : String
  totpEnabled : Bool
  role : Role
  status : UserStatus
  lastLoginAt : Option Time
  createdAt : Time
  updatedAt : Time
  deriving DecidableEq, Repr

structure APIKey where
  id : ID
  tenantID : ID
  userID : ID
  name : String
  keyHash : String
  keyPrefix : String
  role : Role
  expiresAt : Option Time
  lastUsedAt : Option Time
  createdAt : Time
  deriving DecidableEq, Repr

abbrev NodeStatus := String

def NodeStatus.pending : NodeStatus := "pending"
def NodeStatus.enrolling : NodeStatus := "enrolling"
def NodeStatus.online : NodeStatus := "online"
def NodeStatus.offline : NodeStatus := "offline"
def NodeStatus.error : NodeStatus := "error"
def NodeStatus.decommissioned : NodeStatus := "decommissioned"

inductive NodeCapability where
  | bgp | dns | cdn | route
  deriving DecidableEq, Repr

structure Node where
  id : ID
  tenantID : Option ID
  name : String
  hostname : String
  publicIP : String
  wireGuardIP : String
  wireGuardIPv6 : String
  status : NodeStatus
  region : String
  provider : String
  sshPort : Int
  sshUser : String
  sshKeyID : Option ID
  binaryVersion : String
  lastHeartbeat : Option Time
  lastConfigSync : Option Time
  capabilities : List NodeCapability
  metadata : Option String
  createdAt : Time
  updatedAt : Time
  deriving DecidableEq, Repr

structure NodeGroup where
  id : ID
  tenantID : ID
  name : String
  description : String
  createdAt : Time
  updatedAt : Time
  deriving DecidableEq, Repr

abbrev GatewayStatus := String

def GatewayStatus.pending : GatewayStatus := "pending"
def GatewayStatus.online : GatewayStatus := "online"

structure Gateway where
  id : ID
  tenantID : ID
  name : String
  publicIP : String
  wireGuardIP : String
  status : GatewayStatus
  enrollmentToken : String
  lastHeartbeat : Option Time
  lastConfigSync : Option Time
  metadata : Option String
  createdAt : Time
  updatedAt : Time
  deriving DecidableEq, Repr

inductive PeerOwnerType where
  | node | gateway | controller
  deriving DecidableEq, Repr

/-- The well-known owner of the controller's own peer record. -/
def controllerPeerID : ID := 1

structure WireGuardPeer where
  id : ID
  ownerType : PeerOwnerType
  ownerID : ID
  publicKey : String
  privateKey : String
  presharedKey : String
  allowedIPs : List String
  endpoint : String
  lastRotatedAt : Time
  createdAt : Time
  updatedAt : Time
  deriving DecidableEq, Repr

inductive EnrollmentTargetType where
  | node | gateway
  deriving DecidableEq, Repr

structure EnrollmentToken where
  id : ID
  tenantID : ID
  targetType : EnrollmentTargetType
  targetID : ID
  token : String
  expiresAt : Time
  usedAt : Option Time
  createdAt : Time
  deriving DecidableEq, Repr

structure SSHKey where
  id : ID
  name : String
  publicKey : String
  privateKey : String
  fingerprint : String
  createdAt : Time
  lastRotatedAt : Time
  deriving DecidableEq, Repr

/-! ## Services -/

abbrev DNSZoneStatus := String

def DNSZoneStatus.active : DNSZoneStatus := "active"

structure DNSZone where
  id : ID
  tenantID : ID
  name : String
  status : DNSZoneStatus
  serial : Nat
  ttl : Int
  nodeGroupID : Option ID
  transferAllowedIPs : List String
  createdAt : Time
  updatedAt : Time
  deriving DecidableEq, Repr

abbrev DNSRecordType := String

def DNSRecordType.a : DNSRecordType := "A"
def DNSRecordType.aaaa : DNSRecordType := "AAAA"
def DNSRecordType.cname : DNSRecordType := "CNAME"
def DNSRecordType.mx : DNSRecordType := "MX"
def DNSRecordType.txt : DNSRecordType := "TXT"
def DNSRecordType.ns : DNSRecordType := "NS"
def DNSRecordType.srv : DNSRecordType := "SRV"
def DNSRecordType.caa : DNSRecordType := "CAA"
def DNSRecordType.ptr : DNSRecordType := "PTR"

structure DNSRecord where
  id : ID
  zoneID : ID
  name : String
  type : DNSRecordType
  value : String
  ttl : Option Int
  priority : Option Int
  weight : Option Int
  port : Option Int
  createdAt : Time
  updatedAt : Time
  deriving DecidableEq, Repr

abbrev TLSMode := String
abbrev CDNSiteStatus := String

def CDNSiteStatus.active : CDNSiteStatus := "active"

structure CDNSite where
  id : ID
  tenantID : ID
  name : String
  domains : List String
  tlsMode : TLSMode
  tlsCertID : Option ID
  cacheEnabled : Bool
  cacheTTL : Int
  compressionEnabled : Bool
  rateLimitRPS : Option Int
  nodeGroupID : Option ID
  headerRules : Option String
  wafEnabled : Bool
  wafMode : String
  status : CDNSiteStatus
  createdAt : Time
  updatedAt : Time
  deriving DecidableEq, Repr

abbrev CDNOriginScheme := String
abbrev CDNOriginStatus := String

def CDNOriginStatus.unknown : CDNOriginStatus := "unknown"

structure HeaderRule where
  action : String
  header : String
  value : String
  deriving DecidableEq, Repr

structure CDNOrigin where
  id : ID
  siteID : ID
  address : String
  scheme : CDNOriginScheme
  weight : Int
  healthCheckPath : String
  healthCheckInterval : Option Int
  status : CDNOriginStatus
  createdAt : Time
  updatedAt : Time
  deriving DecidableEq, Repr

abbrev RouteProtocol := String

def RouteProtocol.tcp : RouteProtocol := "tcp"
def RouteProtocol.udp : RouteProtocol := "udp"
def RouteProtocol.icmp : RouteProtocol := "icmp"
def RouteProtocol.all : RouteProtocol := "all"

abbrev RouteStatus := String

def RouteStatus.active : RouteStatus := "active"

structure Route where
  id : ID
  tenantID : ID
  name : String
  protocol : RouteProtocol
  entryIP : String
  entryPort : Option Int
  gatewayID : ID
  destinationIP : String
  destinationPort : Option Int
  nodeGroupID : Option ID
  status : RouteStatus
  createdAt : Time
  updatedAt : Time
  deriving DecidableEq, Repr

abbrev BGPSessionStatus := String

def BGPSessionStatus.configured : BGPSessionStatus := "configured"

structure BGPSession where
  id : ID
  nodeID : ID
  peerASN : Nat
  peerAddress : String
  localASN : Nat
  status : BGPSessionStatus
  announcedPrefixes : List String
  importPolicy : String
  exportPolicy : String
  metadata : Option String
  createdAt : Time
  updatedAt : Time
  deriving DecidableEq, Repr

abbrev IPAllocationType := String
abbrev IPAllocationPurpose := String
abbrev IPAllocationStatus := String

def IPAllocationStatus.pending : IPAllocationStatus := "pending"

structure IPAllocation where
  id : ID
  tenantID : ID
  pfx : String
  type : IPAllocationType
  purpose : IPAllocationPurpose
  status : IPAllocationStatus
  createdAt : Time
  updatedAt : Time
  deriving DecidableEq, Repr

structure AuditEvent where
  id : ID
  tenantID : Option ID
  userID : Option ID
  apiKeyID : Option ID
  action : String
  resource : String
  details : Option String
  sourceIP : String
  timestamp : Time
  deriving DecidableEq, Repr

/-! ## Provisioning -/

inductive ProvisioningAction where
  | enroll | reprovision | upgrade | start | stop | restart | decommission
  deriving DecidableEq, Repr

def ProvisioningAction.text : ProvisioningAction → String
  | .enroll => "enroll"
  | .reprovision => "reprovision"
  | .upgrade => "upgrade"
  | .start => "start"
  | .stop => "stop"
  | .restart => "restart"
  | .decommission => "decommission"

inductive ProvisioningStatus where
  | pending | running | completed | failed
  deriving DecidableEq, Repr

inductive ProvisioningStep where
  | validateSSH | uploadBinary | writeConfig | installSystemd | startService | generateWGKeys
  | configureWireGuard | waitEnrollment | verifyOnline | stopService | cleanup | sendCommand
  | backupBinary | atomicSwap | rollback
  deriving DecidableEq, Repr

def ProvisioningStep.text : ProvisioningStep → String
  | .validateSSH => "validate_ssh"
  | .uploadBinary => "upload_binary"
  | .writeConfig => "write_config"
  | .installSystemd => "install_systemd"
  | .startService => "start_service"
  | .generateWGKeys => "generate_wg_keys"
  | .configureWireGuard => "configure_wireguard"
  | .waitEnrollment => "wait_enrollment"
  | .verifyOnline => "verify_online"
  | .stopService => "stop_service"
  | .cleanup => "cleanup"
  | .sendCommand => "send_command"
  | .backupBinary => "backup_binary"
  | .atomicSwap => "atomic_swap"
  | .rollback => "rollback"

inductive StepStatus where
  | success | failed
  deriving DecidableEq, Repr

structure StepResult where
  step : ProvisioningStep
  status : StepStatus
  output : String
  error : String
  startedAt : Time
  durationMs : Nat
  deriving DecidableEq, Repr

/-- One provisioning operation on a node. The recorded step results are kept as
the list that the source stores as JSON. -/
structure ProvisioningJob where
  id : ID
  nodeID : ID
  tenantID : Option ID
  action : ProvisioningAction
  status : ProvisioningStatus
  currentStep : Option ProvisioningStep
  steps : Option (List StepResult)
  error : String
  initiatedBy : ID
  startedAt : Option Time
  completedAt : Option Time
  createdAt : Time
  updatedAt : Time
  deriving DecidableEq, Repr

/-- The node statuses from which an action can be triggered (`ValidActionStates`). -/
def validActionStates : ProvisioningAction → List NodeStatus
  | .enroll => [.pending]
  | .start => [.offline, .error]
  | .stop => [.online]
  | .restart => [.online]
  | .upgrade => [.online, .offline]
  | .reprovision => [.online, .offline, .error]
  | .decommission => [.pending, .online, .offline, .error]

def isValidTransition (action : ProvisioningAction) (currentStatus : NodeStatus) : Bool :=
  (validActionStates action).contains currentStatus

end EdgeFabric
