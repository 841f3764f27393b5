import ProxyPanel.Lib.Text
import ProxyPanel.Lib.Json
import ProxyPanel.Lib.Table
import ProxyPanel.Lib.Uuid
import ProxyPanel.Lib.Query
import ProxyPanel.Lib.Run
import ProxyPanel.Lib.Monitor
import ProxyPanel.Lib.Tally
import ProxyPanel.Lib.Ownership
import ProxyPanel.Common.Logging
import ProxyPanel.Common.Protocol
import ProxyPanel.Common.SettingsHelper
import ProxyPanel.Lib.Calendar
import ProxyPanel.Db.Entities
import ProxyPanel.Config.SingBox
import ProxyPanel.Config.Mihomo
import ProxyPanel.Core.ProcessManager
import ProxyPanel.Agent.Client
import ProxyPanel.Agent.Skip
import ProxyPanel.Agent.CoreBinaries
import ProxyPanel.Lib.Growth
import ProxyPanel.Agent.Reporter
import ProxyPanel.Agent.Delivery
import ProxyPanel.Agent.Upgrade
import ProxyPanel.Hub.RateLimiter
import ProxyPanel.Hub.RelayRules
import ProxyPanel.Hub.ProxyNodes
import ProxyPanel.Hub.Credentials
import ProxyPanel.Hub.RecordedVersions
import ProxyPanel.Hub.Scheduler
import ProxyPanel.Hub.Usage
import ProxyPanel.Hub.TrafficRecords
import ProxyPanel.Hub.AgentMessages
import ProxyPanel.Hub.CoreBinaries
import ProxyPanel.Hub.ResetCadence
import ProxyPanel.Hub.Identifiers
import ProxyPanel.Hub.PortConflicts
import ProxyPanel.Hub.SubscriptionAccess
import ProxyPanel.Hub.AgentService
import ProxyPanel.Hub.ClientTasks
import ProxyPanel.Hub.LostMarkers
import ProxyPanel.Hub.PendingCompleteness
import ProxyPanel.Hub.SystemUpdate
import ProxyPanel.Hub.RelayClosure
import ProxyPanel.Lib.IpAddr
import ProxyPanel.Hub.ApiKeys
import ProxyPanel.Hub.OrphanStops
import ProxyPanel.Hub.PartialUpdate
import ProxyPanel.Lib.History
import ProxyPanel.Hub.ApiKeyRevocation
import ProxyPanel.Hub.NodeGroups
import ProxyPanel.Hub.RelayCredentials
import ProxyPanel.Db.Upgrade
import ProxyPanel.Hub.PortAgreement
import ProxyPanel.Hub.CertificateVerification
import ProxyPanel.Hub.RealityInbound
import ProxyPanel.Hub.EffectiveSettings
import ProxyPanel.Hub.RealityHandshake
import ProxyPanel.Hub.BlockedNodes
import ProxyPanel.Hub.RowsApart
import ProxyPanel.Hub.TemplateChoice
import ProxyPanel.Hub.GroupAccess
import ProxyPanel.Hub.Templates
import ProxyPanel.Hub.CoreAttribution
import ProxyPanel.Hub.UsageAgreement
import ProxyPanel.Lib.Script
import ProxyPanel.Hub.Atomicity
import ProxyPanel.Hub.OnlineSessions
import ProxyPanel.Hub.Activation
import ProxyPanel.Hub.ReportedTraffic
import ProxyPanel.Lib.Interleave
import ProxyPanel.Hub.ActiveVersions
import ProxyPanel.Lib.Search
import ProxyPanel.Agent.Renewal
import ProxyPanel.Agent.BuildMarker
import ProxyPanel.Lib.Effects
import ProxyPanel.Cli.Upgrade
import ProxyPanel.Cli.StatusFile
import ProxyPanel.Hub.CertificateIssuance
import ProxyPanel.Core.Disconnects
import ProxyPanel.Hub.RateOneBilling
import ProxyPanel.Hub.RelayMatch
import ProxyPanel.Hub.Starvation
import ProxyPanel.Agent.BuildRecovery
import ProxyPanel.Agent.Snapshots
import ProxyPanel.Hub.TemplateFilter
import ProxyPanel.Hub.BothCores
import ProxyPanel.Subscription.Merge
import ProxyPanel.Lib.Base64
import ProxyPanel.Lib.Uri
import ProxyPanel.Subscription.ShareLink
import ProxyPanel.Subscription.Agreement
import ProxyPanel.Hub.HostOverride
import ProxyPanel.Hub.InstallCommand
import ProxyPanel.Common.LogMetadata
import ProxyPanel.Cli.UpgradeParts
import ProxyPanel.Cli.UpgradeAtomicity
import ProxyPanel.Cli.Backups
import ProxyPanel.Cli.Rollback
import ProxyPanel.Hub.ScheduledRounds
import ProxyPanel.Hub.PushPending
import ProxyPanel.Lib.Conveyor
import ProxyPanel.Hub.LogDelivery
import ProxyPanel.Lib.JsonText
import ProxyPanel.Lib.JsonCompact
import ProxyPanel.Lib.Splice
import ProxyPanel.Subscription.TemplateRendering
