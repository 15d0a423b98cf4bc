import Dxgate.Lib.Residues
import Dxgate.Lib.Runs
import Dxgate.Lib.Search
import Dxgate.Lib.SortedMap
import Dxgate.Lib.Text
import Dxgate.Core.Validate
import Dxgate.Core.Conflicts
import Dxgate.Core.Routing
import Dxgate.Core.HostCase
import Dxgate.Xds.RouteMeaning
import Dxgate.Xds.Requests
import Dxgate.Xds.Staleness
import Dxgate.Xds.Replacement
import Dxgate.Xds.Redelivery
import Dxgate.Xds.Ordering
import Dxgate.Xds.Publication
import Dxgate.Xds.Coverage
import Dxgate.Xds.BringUp
import Dxgate.Xds.Recovery
import Dxgate.Xds.Wire
import Dxgate.Xds.Reconnect
import Dxgate.Xds.Endpoints
import Dxgate.Xds.InlineEndpoints
import Dxgate.Xds.EndpointOrder
import Dxgate.Proxy.Selection
import Dxgate.Proxy.HostHeader
import Dxgate.Proxy.MtlsCache
import Dxgate.Proxy.Picking
import Dxgate.Proxy.Balance
import Dxgate.Proxy.Machine
import Dxgate.Proxy.MtlsRuns
import Dxgate.Proxy.Snapshot
import Dxgate.App.Startup
import Dxgate.App.Readiness
import Dxgate.App.Downgrade
import Dxgate.App.Delivery
import Dxgate.App.Served
import Dxgate.App.Settling
import Dxgate.App.Admin
import Dxgate.App.EndToEnd
import Dxgate.App.Observed
import Dxgate.App.Steady
import Dxgate.App.Progress
import Dxgate.App.Convergence
