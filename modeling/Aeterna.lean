import Aeterna.Access.PlatformAdmins
import Aeterna.Access.Revocation
import Aeterna.Access.SingleUse
import Aeterna.Access.TenantScope
import Aeterna.Backup.Cancellation
import Aeterna.Backup.DryRuns
import Aeterna.Backup.GovernanceExport
import Aeterna.Backup.Validation
import Aeterna.CodeSearch.Reindexing
import Aeterna.CodeSearch.Ring
import Aeterna.CodeSearch.Upstream
import Aeterna.Context.Fitting
import Aeterna.Context.Spending
import Aeterna.Device.Arrivals
import Aeterna.Device.Delivery
import Aeterna.Device.Drain
import Aeterna.Device.Pages
import Aeterna.Events.Consumer
import Aeterna.Events.Delivery
import Aeterna.Events.Streams
import Aeterna.Governance.Confirmation
import Aeterna.Governance.Mandatory
import Aeterna.Governance.MetaPolicies
import Aeterna.Governance.Suppressions
import Aeterna.Graph.Communities
import Aeterna.Graph.Deltas
import Aeterna.Graph.Digest
import Aeterna.Graph.Imports
import Aeterna.Graph.Logged
import Aeterna.Graph.PositionalIndex
import Aeterna.Graph.Related
import Aeterna.Graph.Restores
import Aeterna.Graph.ShortestPath
import Aeterna.Graph.Tenants
import Aeterna.Idp.Bridge
import Aeterna.Knowledge.Confinement
import Aeterna.Knowledge.Enriched
import Aeterna.Knowledge.PromotionOrigins
import Aeterna.Knowledge.PromotionVersions
import Aeterna.Memory.ColdArchives
import Aeterna.Memory.Compression
import Aeterna.Memory.Decay
import Aeterna.Memory.Invalidation
import Aeterna.Memory.LayerSearch
import Aeterna.Memory.Promotion
import Aeterna.Operations.Erasure
import Aeterna.Operations.Quota
import Aeterna.Operations.RemediationRuns
import Aeterna.Operations.VersionPurge
import Aeterna.Realtime.Conflicts
import Aeterna.Realtime.Rooms
import Aeterna.Settings.Precedence
import Aeterna.Sync.Concurrency
import Aeterna.Sync.DetectDelta
import Aeterna.Sync.Failures
import Aeterna.Sync.Resolution
import Aeterna.Sync.Staleness
import Aeterna.Sync.Summaries
import Aeterna.Tenancy.DiffPaths
import Aeterna.Tenancy.Drift
import Aeterna.Tenancy.Generations
import Aeterna.Tenancy.Grants
import Aeterna.Tenancy.Hierarchy
import Aeterna.Tenancy.ManifestHash
import Aeterna.Tenancy.References
import Aeterna.Tenancy.RoundTrip
import Aeterna.Tenancy.Unchanged
import Aeterna.Tenancy.UnitPolicies
import Aeterna.Tenancy.UnitTree
import Aeterna.Tenancy.WiringRuns
