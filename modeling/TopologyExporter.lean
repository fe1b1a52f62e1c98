import TopologyExporter.App.Accounting
import TopologyExporter.App.Backfill
import TopologyExporter.App.Inventory
import TopologyExporter.App.Links
import TopologyExporter.App.ModuleScope
import TopologyExporter.App.OtlpPushes
import TopologyExporter.App.Pusher
import TopologyExporter.App.Rediscover
import TopologyExporter.App.Resolution
import TopologyExporter.App.StaleWatchdog
import TopologyExporter.Discovery.BgpIndex
import TopologyExporter.Discovery.BgpOutcome
import TopologyExporter.Discovery.FdbRows
import TopologyExporter.Discovery.PoolLedger
import TopologyExporter.Discovery.Scope
import TopologyExporter.Federation.Boundary
import TopologyExporter.Federation.Deployment
import TopologyExporter.Federation.Handover
import TopologyExporter.Federation.Independence
import TopologyExporter.Federation.Replacement
import TopologyExporter.Federation.SecondPass
import TopologyExporter.Graph.Conflicts
import TopologyExporter.Graph.KeyDecode
import TopologyExporter.Graph.Lifetime
import TopologyExporter.Loglimit.Eviction
import TopologyExporter.Metrics.Boundary
import TopologyExporter.Yang.Render
