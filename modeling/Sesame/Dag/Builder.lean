/-
# Building the DAG

`Builder.Build` runs the processors in order on an empty DAG. Which processors
there are and how they are configured is decided by the serve command: the
listener processor is always the last one.
-/

import Sesame.Dag.ExtensionProcessor
import Sesame.Dag.GatewayApiProcessor
import Sesame.Dag.IngressProcessor
import Sesame.Dag.ListenerProcessor
import Sesame.Dag.ProxyRuns

namespace Sesame.Dag

open Lib Api

/-- `dagBuilderConfig`, with the headers policies already translated; the names of
the cache are fields of the cache itself. -/
structure DagBuilderConfig where
  gatewayAPIConfigured : Bool := false
  disablePermitInsecure : Bool := false
  enableExternalNameService : Bool := false
  dnsLookupFamily : DNSLookupFamily := .unset
  requestHeadersPolicy : HeadersPolicy := {}
  responseHeadersPolicy : HeadersPolicy := {}
  applyHeaderPolicyToIngress : Bool := false
  clientCert : Option NamespacedName := none
  fallbackCert : Option NamespacedName := none

namespace DagBuilderConfig

variable (dbc : DagBuilderConfig)

/-- The Ingress processor of `getDAGBuilder`. -/
def ingressProcessor : IngressProcessor where
  enableExternalNameService := dbc.enableExternalNameService
  clientCertificate := dbc.clientCert
  requestHeadersPolicy :=
    some (if dbc.applyHeaderPolicyToIngress then dbc.requestHeadersPolicy else {})
  responseHeadersPolicy :=
    some (if dbc.applyHeaderPolicyToIngress then dbc.responseHeadersPolicy else {})

/-- The ExtensionService processor of `getDAGBuilder`. -/
def extensionServiceProcessor : ExtensionServiceProcessor where
  clientCertificate := dbc.clientCert

/-- The HTTPProxy processor of `getDAGBuilder`. -/
def httpProxyProcessor : HTTPProxyProcessor where
  enableExternalNameService := dbc.enableExternalNameService
  disablePermitInsecure := dbc.disablePermitInsecure
  fallbackCertificate := dbc.fallbackCert
  dnsLookupFamily := dbc.dnsLookupFamily
  clientCertificate := dbc.clientCert
  requestHeadersPolicy := some dbc.requestHeadersPolicy
  responseHeadersPolicy := some dbc.responseHeadersPolicy

/-- The Gateway API processor of `getDAGBuilder`. -/
def gatewayAPIProcessor : GatewayAPIProcessor where
  enableExternalNameService := dbc.enableExternalNameService

end DagBuilderConfig

namespace Builder

variable (lib : Stdlib) (ord : MapOrder) (dbc : DagBuilderConfig) (source : KubernetesCache)

variable {dag : DAG}

/-- The DAG before any processor has run. -/
def emptyDAG : DAG where
  statusCache :=
    { gatewayRef :=
        match source.gateway with
        | none => { ns := "", name := "" }
        | some gateway => namespacedNameOf gateway.toObjectMeta
      gatewayController := (source.gatewayclass.map (·.controllerName)).getD "" }

/-- The DAG after the processors that every configuration has: those for
Ingresses, ExtensionServices and HTTPProxies. -/
def beforeGateway : Except Panic DAG := do
  let dag ← IngressProcessor.run lib ord dbc.ingressProcessor source (emptyDAG source)
  let dag := ExtensionServiceProcessor.run lib ord dbc.extensionServiceProcessor source dag
  pure (HTTPProxyProcessor.run lib ord dbc.httpProxyProcessor source dag)

/-- The DAG after the processors before the listener processor. -/
def hosts : Except Panic DAG :=
  (beforeGateway lib ord dbc source).map fun dag =>
    if dbc.gatewayAPIConfigured then
      GatewayAPIProcessor.run lib ord dbc.gatewayAPIProcessor source dag
    else dag

def build : Except Panic DAG := (hosts lib ord dbc source).map (ListenerProcessor.run ord)

variable {lib ord dbc source}

/-- The first processors one by one. -/
theorem beforeGateway_eq (h : beforeGateway lib ord dbc source = .ok dag) :
    ∃ d, IngressProcessor.run lib ord dbc.ingressProcessor source (emptyDAG source) = .ok d ∧
      dag = HTTPProxyProcessor.run lib ord dbc.httpProxyProcessor source
        (ExtensionServiceProcessor.run lib ord dbc.extensionServiceProcessor source d) := by
  obtain ⟨d, hingress, hrest⟩ := bind_eq_ok.mp h
  cases hrest
  exact ⟨d, hingress, rfl⟩

theorem beforeGateway_listeners (h : beforeGateway lib ord dbc source = .ok dag) :
    dag.listeners = [] := by
  obtain ⟨d, hingress, rfl⟩ := beforeGateway_eq h
  have hframe : (ExtensionServiceProcessor.run lib ord dbc.extensionServiceProcessor source
      d).Frame (fun _ => True) (HTTPProxyProcessor.run lib ord dbc.httpProxyProcessor source
        (ExtensionServiceProcessor.run lib ord dbc.extensionServiceProcessor source d)) :=
    HTTPProxyProcessor.run_inv (fun _ _ same h => h.trans (same.frame _))
      (fun proxy vhost _ => HTTPProxyProcessor.closedUnderRoot_frame proxy vhost _ trivial)
      (DAG.Frame.refl _)
  rw [hframe.listeners, (ExtensionServiceProcessor.run_hosts d).1,
    (IngressProcessor.run_frame hingress).listeners]
  rfl

/-- No processor before the last one attaches a listener. -/
theorem hosts_listeners (h : hosts lib ord dbc source = .ok dag) : dag.listeners = [] := by
  obtain ⟨d, hbefore, rfl⟩ := map_eq_ok.mp h
  split
  · rw [(GatewayAPIProcessor.run_frame _).listeners, beforeGateway_listeners hbefore]
  · exact beforeGateway_listeners hbefore

theorem build_eq {root : DAG} (h : build lib ord dbc source = .ok root) :
    ∃ dag, hosts lib ord dbc source = .ok dag ∧ dag.listeners = [] ∧
      root = ListenerProcessor.run ord dag := by
  obtain ⟨dag, hdag, rfl⟩ := map_eq_ok.mp h
  exact ⟨dag, hdag, hosts_listeners hdag, rfl⟩

end Builder

/-- A Gateway with one HTTPS listener and one HTTPRoute without hostnames. -/
def redirectGateway (hostname : Option String) : KubernetesCache where
  secrets := byName (·.toObjectMeta) [certificate "n" "cert"]
  gatewayclass := some { name := "class", ns := "" }
  gateway := some
    { name := "gateway", ns := "n",
      listeners :=
        [{ name := "https", protocol := .https, hostname,
           tls := some
             { certificateRefs :=
                 [{ group := some "", kind := some "Secret", name := "cert" }] } }] }
  httproutes := byName (·.toObjectMeta)
    [{ name := "route", ns := "n",
       parentRefs :=
         [{ group := some gatewayGroupName, kind := some "Gateway", name := "gateway" }],
       rules := [{ matchRules := [{}], filters := [.requestRedirect (some {})] }] }]

end Sesame.Dag
