import ProxyPanel.Lib.Calendar
import ProxyPanel.Lib.Json
import ProxyPanel.Lib.Table
import ProxyPanel.Lib.Uuid

/-!
# The database

One structure for each entity, under the names of its columns, and the `Db` that
holds their tables.  The primary key of every row is its `id`; the other unique
columns are checked where a row is inserted.
-/

namespace ProxyPanel

structure Node where
  id : Uuid
  name : String
  hostname : String
  address : String
  domain : Option String
  tokenHash : String
  coresAvailable : Json
  /-- The bits of a 32-bit float. -/
  usageCoefficient : BitVec 32
  status : String
  parentId : Option Uuid
  lastSeenAt : Option DateTime
  updatedAt : DateTime

structure NodeBinding where
  id : Uuid
  nodeId : Uuid
  protocolConfigId : Uuid
  overrideSettings : Option Json
  isActive : Bool

structure ProtocolConfig where
  id : Uuid
  name : String
  protocolType : String
  coreType : String
  listenPort : Int
  listenAddress : String
  settings : Json
  tlsSettings : Option Json
  updatedAt : DateTime

structure Client where
  id : Uuid
  userId : Uuid
  name : String
  email : Option String
  trafficLimitBytes : Int
  trafficUsedBytes : Int
  allTimeUsedBytes : Int
  expiryDate : Option DateTime
  resetDay : Option Int
  dataLimitResetStrategy : String
  lastTrafficResetTime : Option DateTime
  maxDevices : Option Int
  status : String
  onHoldExpireDurationSecs : Option Int
  onHoldTimeout : Option DateTime
  updatedAt : DateTime

structure ClientGroupBinding where
  id : Uuid
  clientId : Uuid
  groupId : Uuid

structure NodeBindingGroupBinding where
  id : Uuid
  nodeBindingId : Uuid
  groupId : Uuid

structure NodeGroup where
  id : Uuid
  name : String
  description : Option String
  labels : Option Json
  updatedAt : DateTime

structure Certificate where
  id : Uuid
  nodeId : Uuid
  domain : String
  status : String
  challengeType : String
  expiresAt : Option DateTime
  lastIssuedAt : Option DateTime
  lastError : Option String
  updatedAt : DateTime

structure RelayRule where
  id : Uuid
  nodeId : Uuid
  exitBindingId : Uuid
  relayClientId : Uuid
  name : String
  matchType : String
  matchConfig : Json
  enabled : Bool
  sortOrder : Int
  updatedAt : DateTime

structure CoreVersion where
  id : Uuid
  coreType : String
  version : String
  channel : String
  publishedAt : Option DateTime
  commitSha : Option String
  isActive : Bool

structure NodePendingUpdate where
  id : Uuid
  nodeId : Uuid
  coreType : String
  updateType : String
  updatedAt : DateTime

structure InboundHost where
  id : Uuid
  protocolConfigId : Uuid
  nodeId : Uuid
  remark : String
  address : String
  port : Int
  sni : Option String
  host : Option String
  path : Option String
  alpn : Option String
  fingerprint : Option String
  isActive : Bool

structure ClientOnlineSession where
  id : Uuid
  clientId : Uuid
  nodeId : Uuid
  ipAddress : String
  inboundTag : Option String
  connectedAt : DateTime
  lastActiveAt : DateTime

structure NodeUserUsageRecord where
  id : Uuid
  nodeId : Uuid
  clientId : Uuid
  hourBucket : DateTime
  uploadBytes : Int
  downloadBytes : Int
  rate : BitVec 32

/-- Traffic of an hour; `nodeId`, `protocolConfigId` and `clientId` may be null. -/
structure TrafficRecord where
  id : Uuid
  nodeId : Option Uuid
  protocolConfigId : Option Uuid
  clientId : Option Uuid
  hourBucket : DateTime
  uploadBytes : Int
  downloadBytes : Int

/-- Percentages and averages are the bits of 32-bit floats. -/
structure HostMetric where
  id : Uuid
  nodeId : Uuid
  timestamp : DateTime
  cpuPercent : BitVec 32
  memUsed : Int
  memTotal : Int
  diskUsed : Int
  diskTotal : Int
  netRx : Int
  netTx : Int
  loadAvg1 : BitVec 32
  loadAvg5 : BitVec 32
  loadAvg15 : BitVec 32

structure AgentLog where
  id : Uuid
  nodeId : Uuid
  level : String
  target : String
  message : String
  fields : Option Json
  createdAt : DateTime

structure ApiKey where
  id : Uuid
  name : String
  keyHash : String
  scopes : Json
  ipAllowlist : Option Json
  rateLimit : Option Int
  expiresAt : Option DateTime
  isActive : Bool
  updatedAt : DateTime

structure Subscription where
  id : Uuid
  clientId : Uuid
  token : String
  urlPath : String
  expireAt : Option DateTime
  isActive : Bool
  lastAccessedAt : Option DateTime

structure SubscriptionTemplate where
  id : String
  name : String
  format : String
  baseConfig : Option String
  filterRules : Option Json
  isEnabled : Bool
  isBuiltin : Bool := false
  customHeaders : Option Json := none

instance : HasKey Node Uuid := ⟨Node.id⟩
instance : HasKey NodeBinding Uuid := ⟨NodeBinding.id⟩
instance : HasKey ProtocolConfig Uuid := ⟨ProtocolConfig.id⟩
instance : HasKey Client Uuid := ⟨Client.id⟩
instance : HasKey ClientGroupBinding Uuid := ⟨ClientGroupBinding.id⟩
instance : HasKey NodeBindingGroupBinding Uuid := ⟨NodeBindingGroupBinding.id⟩
instance : HasKey NodeGroup Uuid := ⟨NodeGroup.id⟩
instance : HasKey Certificate Uuid := ⟨Certificate.id⟩
instance : HasKey RelayRule Uuid := ⟨RelayRule.id⟩
instance : HasKey CoreVersion Uuid := ⟨CoreVersion.id⟩
instance : HasKey NodePendingUpdate Uuid := ⟨NodePendingUpdate.id⟩
instance : HasKey InboundHost Uuid := ⟨InboundHost.id⟩
instance : HasKey ClientOnlineSession Uuid := ⟨ClientOnlineSession.id⟩
instance : HasKey NodeUserUsageRecord Uuid := ⟨NodeUserUsageRecord.id⟩
instance : HasKey TrafficRecord Uuid := ⟨TrafficRecord.id⟩
instance : HasKey HostMetric Uuid := ⟨HostMetric.id⟩
instance : HasKey AgentLog Uuid := ⟨AgentLog.id⟩
instance : HasKey ApiKey Uuid := ⟨ApiKey.id⟩
instance : HasKey Subscription Uuid := ⟨Subscription.id⟩
instance : HasKey SubscriptionTemplate String := ⟨SubscriptionTemplate.id⟩

/-- The tables.  The order of the rows is the order a query without `ORDER BY`
returns them in. -/
structure Db where
  nodes : Table Node := ∅
  nodeBindings : Table NodeBinding := ∅
  protocolConfigs : Table ProtocolConfig := ∅
  clients : Table Client := ∅
  clientGroupBindings : Table ClientGroupBinding := ∅
  nodeBindingGroupBindings : Table NodeBindingGroupBinding := ∅
  nodeGroups : Table NodeGroup := ∅
  certificates : Table Certificate := ∅
  relayRules : Table RelayRule := ∅
  coreVersions : Table CoreVersion := ∅
  nodePendingUpdates : Table NodePendingUpdate := ∅
  inboundHosts : Table InboundHost := ∅
  clientOnlineSessions : Table ClientOnlineSession := ∅
  nodeUserUsageRecords : Table NodeUserUsageRecord := ∅
  trafficRecords : Table TrafficRecord := ∅
  hostMetrics : Table HostMetric := ∅
  agentLogs : Table AgentLog := ∅
  apiKeys : Table ApiKey := ∅
  subscriptions : Table Subscription := ∅
  subscriptionTemplates : Table SubscriptionTemplate := ∅

instance : Inhabited Db := ⟨{}⟩

end ProxyPanel
