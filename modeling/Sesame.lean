import Sesame.Dag.SecretUse
import Sesame.XdsCache.ClientValidation
import Sesame.XdsCache.PermitInsecure
import Sesame.Dag.IncludeCycles
import Sesame.Status.AccessorRuns
import Sesame.Dag.RouteHosts
import Sesame.XdsCache.ClusterReferences
import Sesame.EventHandler
import Sesame.XdsCache.Snapshot
import Sesame.Xds.Stream
import Sesame.Dag.IngressOrder
import Sesame.Dag.RejectedRoots
import Sesame.Dag.RoutingPrefixes
import Sesame.Dag.SecureListeners
import Sesame.Dag.ServiceClusters
import Sesame.Dag.IngressBackends
import Sesame.Envoy.PathMatch
import Sesame.XdsCache.Timeouts
import Sesame.Envoy.CookieRewrite
import Sesame.Dag.HeaderConditions
import Sesame.Dag.DuplicateIncludes
import Sesame.Dag.HeaderVariables
import Sesame.Dag.ServiceVariables
import Sesame.Metrics
import Sesame.AccessLog
import Sesame.XdsCache.Misdirected
