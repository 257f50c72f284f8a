/-
# The Gateway API processor

Every listener of the Gateway is checked and then offered the routes of the kinds
it accepts. A condition on a listener other than `Ready` makes it not ready.
-/

import Sesame.Dag.GatewayRoutes

namespace Sesame.Dag.GatewayAPIProcessor

open List
open Lib Api
open Status (GatewayStatusUpdate)

variable (lib : Stdlib) (ord : MapOrder) (p : GatewayAPIProcessor) (source : KubernetesCache)

/-! ## Listeners -/

def isSecretRef (certificateRef : SecretObjectReference) : Bool :=
  certificateRef.group = some "" && certificateRef.kind = some "Secret"

/-- The `Ready` condition of a listener that is not valid. -/
def notReady (gwAccessor : GatewayStatusUpdate) (listenerName message : String) :
    GatewayStatusUpdate :=
  gwAccessor.addListenerCondition listenerName "Ready" .false "Invalid" message

/-- The condition of a listener whose certificate reference is not valid. -/
def invalidCertificateRef (gwAccessor : GatewayStatusUpdate) (listenerName message : String) :
    GatewayStatusUpdate :=
  gwAccessor.addListenerCondition listenerName "ResolvedRefs" .false "InvalidCertificateRef"
    ("Spec.VirtualHost.TLS.CertificateRefs " ++ message)

/-- `validGatewayTLS`: the certificate, or none with the condition that says why. -/
def validGatewayTLS (gateway : Gateway) (listenerTLS : GatewayTLSConfig) (listenerName : String)
    (gwAccessor : GatewayStatusUpdate) : Option Secret × GatewayStatusUpdate :=
  match listenerTLS.certificateRefs with
  | [certificateRef] =>
    let name : NamespacedName :=
      { name := certificateRef.name, ns := certificateRef.ns.getD gateway.ns }
    if ¬ isSecretRef certificateRef then
      (none, invalidCertificateRef gwAccessor listenerName
        (lib.quote certificateRef.name ++ " must contain a reference to a core.Secret"))
    -- A secret in the namespace of the Gateway needs no policy.
    else if name.ns ≠ gateway.ns ∧ ¬ validCrossNamespaceRef ord source
        { group := gatewayGroupName, kind := "Gateway", ns := gateway.ns }
        { group := "", kind := "Secret", ns := name.ns, name := name.name } then
      (none, invalidCertificateRef gwAccessor listenerName
        (lib.quote certificateRef.name ++
          " namespace must match the Gateway's namespace or be covered by a ReferencePolicy"))
    else
      match source.lookupSecret name (validSecret lib) gateway.ns with
      | .error err =>
        (none, invalidCertificateRef gwAccessor listenerName
          (lib.quote certificateRef.name ++ " referent is invalid: " ++ err))
      | .ok listenerSecret => (some listenerSecret, gwAccessor)
  | _ =>
    (none, notReady gwAccessor listenerName
      "Listener.TLS.CertificateRefs must contain exactly one entry")

/-- The protocol part of `computeListener`: the certificate of the listener if it
terminates TLS, or an error if it takes no routes. -/
def listenerSecret (gateway : Gateway) (listener : GatewayListener)
    (gwAccessor : GatewayStatusUpdate) :
    Except GatewayStatusUpdate (Option Secret × GatewayStatusUpdate) :=
  let terminate (tls : GatewayTLSConfig) :=
    match validGatewayTLS lib ord source gateway tls listener.name gwAccessor with
    | (none, gwAccessor) => .error gwAccessor
    | (some sec, gwAccessor) => .ok (some sec, gwAccessor)
  let tlsRequired := notReady gwAccessor listener.name
    ("Listener.TLS is required when protocol is " ++ lib.quote listener.protocol.text ++ ".")
  match listener.protocol, listener.tls with
  | .https, none => .error tlsRequired
  | .https, some tls => terminate tls
  | .tls, none => .error tlsRequired
  | .tls, some tls =>
    match tls.mode with
    | none => .ok (none, gwAccessor)
    | some .terminate => terminate tls
    | some .passthrough =>
      if tls.certificateRefs = [] then .ok (none, gwAccessor)
      else
        .error (notReady gwAccessor listener.name
          ("Listener.TLS.CertificateRefs cannot be defined when TLS Mode is " ++
            lib.quote (TLSModeType.passthrough).text ++ "."))
  | .http, _ => .ok (none, gwAccessor)
  | .other name, _ =>
    .error (gwAccessor.addListenerCondition listener.name "Detached" .true "UnsupportedProtocol"
      ("Listener.Protocol " ++ lib.quote name ++ " is not supported."))

/-- The condition of a listener with a route kind that is not valid. -/
def invalidRouteKind (gwAccessor : GatewayStatusUpdate) (listenerName message : String) :
    GatewayStatusUpdate :=
  gwAccessor.addListenerCondition listenerName "ResolvedRefs" .false "InvalidRouteKinds" message

/-- The loop of `getListenerRouteKinds`. -/
def addRouteKind (listener : GatewayListener) (acc : List String × GatewayStatusUpdate)
    (routeKind : RouteGroupKind) : List String × GatewayStatusUpdate :=
  if routeKind.group.any (· ≠ gatewayGroupName) then
    (acc.1, invalidRouteKind acc.2 listener.name
      ("Group " ++ lib.quote (routeKind.group.getD "") ++ " is not supported, group must be " ++
        lib.quote gatewayGroupName))
  else if routeKind.kind ≠ "HTTPRoute" ∧ routeKind.kind ≠ "TLSRoute" then
    (acc.1, invalidRouteKind acc.2 listener.name
      ("Kind " ++ lib.quote routeKind.kind ++ " is not supported, kind must be " ++
        lib.quote "HTTPRoute" ++ " or " ++ lib.quote "TLSRoute"))
  else if routeKind.kind = "TLSRoute" ∧ listener.protocol ≠ .tls then
    (acc.1, invalidRouteKind acc.2 listener.name
      ("TLSRoutes are incompatible with listener protocol " ++ lib.quote listener.protocol.text))
  else (acc.1 ++ [routeKind.kind], acc.2)

def getListenerRouteKinds (listener : GatewayListener) (gwAccessor : GatewayStatusUpdate) :
    List String × GatewayStatusUpdate :=
  if listener.allowedKinds = [] then
    match listener.protocol with
    | .http | .https => (["HTTPRoute"], gwAccessor)
    | .tls => (["TLSRoute"], gwAccessor)
    | .other _ => ([], gwAccessor)
  else listener.allowedKinds.foldl (addRouteKind lib listener) ([], gwAccessor)

/-! ## Routes of a listener -/

/-- A label selector selects nothing in particular. -/
def selectorEmpty (selector : Option LabelSelector) : Bool :=
  match selector with
  | none => true
  | some selector => selector.matchLabels.entries = [] && selector.matchExpressions = []

/-- `namespaceMatches`; its error is only logged. A namespace that is not in the
cache counts as selected. -/
def namespaceMatches (gateway : Gateway) (namespaces : Option RouteNamespaces)
    (routeNamespace : String) : Bool :=
  match namespaces.bind (·.fromNamespaces) with
  | none | some .all => true
  | some .same => gateway.ns = routeNamespace
  | some .selector =>
    match namespaces.bind (·.selector), source.namespaces.lookup routeNamespace with
    | none, _ => false
    | some selector, ns =>
      if selectorEmpty (some selector) then false
      else
        match ns with
        | none => true
        | some ns =>
          match lib.labelSelectorAsSelector selector with
          | .error _ => false
          | .ok l => l ns.labels

def refersToGateway (gateway : Gateway) (routeNamespace : String) (ref : ParentRef) : Bool :=
  ref.group = some gatewayGroupName && ref.kind = some "Gateway" &&
    ref.ns.getD routeNamespace = gateway.ns && ref.name = gateway.name

/-- `routeSelectsGatewayListener`: the first reference to the Gateway decides. -/
def routeSelectsGatewayListener (gateway : Gateway) (listener : GatewayListener)
    (routeParentRefs : List ParentRef) (routeNamespace : String) : Bool :=
  match routeParentRefs.find? (refersToGateway gateway routeNamespace) with
  | none => false
  | some ref =>
    ref.sectionName = none || ref.sectionName = some "" || ref.sectionName = some listener.name

/-- The routes that a listener has attached so far, and the DAG. -/
structure Attached where
  dag : DAG
  attachedRoutes : Nat := 0

/-- Count a route that was programmed. -/
def Attached.add (acc : Attached) (result : Bool × DAG) : Attached :=
  { dag := result.2, attachedRoutes := acc.attachedRoutes + if result.1 then 1 else 0 }

def attachKind (gateway : Gateway) (listener : GatewayListener) (sec : Option Secret)
    (isGatewayValid : Bool) (acc : Attached) (routeKind : String × Nat) : Attached :=
  let site := "computeListener " ++ listener.name ++ " " ++ toString routeKind.2 ++ " "
  let selected (parentRefs : List ParentRef) (routeNamespace : String) : Bool :=
    namespaceMatches lib source gateway listener.allowedNamespaces routeNamespace &&
      routeSelectsGatewayListener gateway listener parentRefs routeNamespace
  if routeKind.1 = "HTTPRoute" then
    ((ord.values site source.httproutes).filter fun route =>
        selected route.parentRefs route.ns).foldl
      (fun acc route =>
        acc.add (computeHTTPRoute lib ord p source (site ++ route.ns ++ "/" ++ route.name ++ " ")
          acc.dag route sec listener.hostname isGatewayValid)) acc
  else if routeKind.1 = "TLSRoute" then
    ((ord.values site source.tlsroutes).filter fun route =>
        selected route.parentRefs route.ns).foldl
      (fun acc route =>
        acc.add (computeTLSRoute lib ord p source (site ++ route.ns ++ "/" ++ route.name ++ " ")
          acc.dag route sec listener.hostname isGatewayValid)) acc
  else acc

/-- The deferred part of `computeListener`: the `Ready` condition. -/
def setReady (gwAccessor : GatewayStatusUpdate) (listenerName : String) : GatewayStatusUpdate :=
  match (gwAccessor.listenerStatus.lookup listenerName).map (·.conditions) with
  | none | some [] =>
    gwAccessor.addListenerCondition listenerName "Ready" .true "Ready" "Valid listener"
  | some conditions =>
    if conditions.any fun cond => cond.type = "Ready" then gwAccessor
    else
      notReady gwAccessor listenerName "Invalid listener, see other listener conditions for details"

/-- The DAG and the status of the Gateway. -/
structure GatewayState where
  dag : DAG
  gwAccessor : GatewayStatusUpdate

def computeListener (gateway : Gateway) (isGatewayValid : Bool) (st : GatewayState)
    (listener : GatewayListener) : GatewayState :=
  match listenerSecret lib ord source gateway listener st.gwAccessor with
  | .error gwAccessor => { st with gwAccessor := setReady gwAccessor listener.name }
  | .ok (sec, gwAccessor) =>
    let (listenerRouteKinds, gwAccessor) := getListenerRouteKinds lib listener gwAccessor
    let gwAccessor := gwAccessor.setListenerSupportedKinds listener.name listenerRouteKinds
    let acc := listenerRouteKinds.zipIdx.foldl
      (attachKind lib ord p source gateway listener sec isGatewayValid) { dag := st.dag }
    let gwAccessor := gwAccessor.setListenerAttachedRoutes listener.name acc.attachedRoutes
    { dag := acc.dag, gwAccessor := setReady gwAccessor listener.name }

/-- `computeGatewayConditions`; the only error of a Gateway is about its addresses. -/
def computeGatewayConditions (gwAccessor : GatewayStatusUpdate) (isGatewayValid : Bool) :
    GatewayStatusUpdate :=
  if ¬ isGatewayValid then
    gwAccessor.addCondition "Ready" .false "Invalid"
      "Unsupported value for spec; Spec.Addresses is not supported"
  else if (ord.values "computeGatewayConditions" gwAccessor.listenerStatus).any fun ls =>
      ls.conditions.any fun cond => cond.type = "Ready" && cond.status = .false then
    gwAccessor.addCondition "Ready" .false "ListenersNotValid" "Listeners are not valid"
  else gwAccessor.addCondition "Ready" .true "Valid" "Valid Gateway"

def run (dag : DAG) : DAG :=
  match source.gateway, source.gatewayclass with
  | none, _ | _, none => dag
  | some gateway, some _ =>
    let gwAccessor := Status.Cache.gatewayStatusAccessor
      (namespacedNameOf gateway.toObjectMeta) gateway.generation gateway.statusConditions
    let isGatewayValid : Bool := gateway.addresses = []
    let st := gateway.listeners.foldl (computeListener lib ord p source gateway isGatewayValid)
      { dag, gwAccessor }
    let gwAccessor := computeGatewayConditions ord st.gwAccessor isGatewayValid
    { st.dag with statusCache := st.dag.statusCache.commitGateway gwAccessor }

/-! ## What a run writes -/

/-- A route in the cache has these hostnames. -/
def RouteHostnames (hostnames : List String) : Prop :=
  (∃ name route, source.httproutes.lookup name = some route ∧ route.hostnames = hostnames) ∨
    ∃ name route, source.tlsroutes.lookup name = some route ∧ route.hostnames = hostnames

/-- Some route of the Gateway has the host on some listener. -/
def UsesHost (host : String) : Prop :=
  ∃ gateway listener hostnames, source.gateway = some gateway ∧ listener ∈ gateway.listeners ∧
    RouteHostnames source hostnames ∧
    ((computeHosts lib hostnames listener.hostname).1.lookup host).isSome = true

variable {lib ord p source} {I : DAG → Prop}

/-- The routes of one kind keep what each of them keeps. -/
theorem attachKind_inv {gateway : Gateway} {listener : GatewayListener} {sec : Option Secret}
    {isGatewayValid : Bool} {acc : Attached} {routeKind : String × Nat}
    (hhttp : routeKind.1 = "HTTPRoute" → ∀ site d name route,
      source.httproutes.lookup name = some route →
      (namespaceMatches lib source gateway listener.allowedNamespaces route.ns &&
        routeSelectsGatewayListener gateway listener route.parentRefs route.ns) = true → I d →
      I (computeHTTPRoute lib ord p source site d route sec listener.hostname isGatewayValid).2)
    (htls : ∀ site d name route, source.tlsroutes.lookup name = some route → I d →
      I (computeTLSRoute lib ord p source site d route sec listener.hostname isGatewayValid).2)
    (hacc : I acc.dag) :
    I (attachKind lib ord p source gateway listener sec isGatewayValid acc routeKind).dag := by
  unfold attachKind
  dsimp only
  split
  · next hkind =>
    refine foldlRecOn _ _ (motive := fun acc : Attached => I acc.dag) hacc ?_
    intro acc hacc route hroute
    obtain ⟨hcached, htaken⟩ := mem_filter.mp hroute
    obtain ⟨name, hname⟩ := ord.mem_values.mp hcached
    exact hhttp hkind _ _ name route hname htaken hacc
  · split
    · refine foldlRecOn _ _ (motive := fun acc : Attached => I acc.dag) hacc ?_
      intro acc hacc route hroute
      obtain ⟨name, hname⟩ := ord.mem_values.mp (mem_of_mem_filter hroute)
      exact htls _ _ name route hname hacc
    · exact hacc

/-- A run keeps what the writes of the routes of the Gateway keep. -/
theorem run_inv_of_routes {R : Route → Prop} {C : Cluster → Prop}
    (h : ∀ listenerSecret, ClosedUnderRoutes listenerSecret (UsesHost lib source) R C I)
    (hhttp : ∀ name route, source.httproutes.lookup name = some route →
      HTTPRoutesIn lib ord p source R route)
    (htls : ∀ name route, source.tlsroutes.lookup name = some route →
      TLSClustersIn lib ord p source C route) {dag : DAG} (hdag : I dag) :
    I (run lib ord p source dag) := by
  unfold run
  split
  · exact hdag
  · exact hdag
  · next gateway _ hgateway _ =>
    apply (h none).commitGateway
    refine foldlRecOn _ _ (motive := fun st : GatewayState => I st.dag) hdag
      fun st hst listener hlistener => ?_
    have hhost : ∀ hostnames, RouteHostnames source hostnames → ∀ host,
        ((computeHosts lib hostnames listener.hostname).1.lookup host).isSome →
        UsesHost lib source host := fun hostnames hroute host hhost =>
      ⟨gateway, listener, hostnames, hgateway, hlistener, hroute, hhost⟩
    unfold computeListener
    split
    · exact hst
    · refine foldlRecOn _ _ (motive := fun acc : Attached => I acc.dag) hst
        fun acc hacc routeKind _ => attachKind_inv ?_ ?_ hacc
      · intro _ site d name route hname _
        exact (h _).computeHTTPRoute (hhost _ (.inl ⟨name, route, hname, rfl⟩))
          (hhttp name route hname)
      · intro site d name route hname
        exact (h _).computeTLSRoute (hhost _ (.inr ⟨name, route, hname, rfl⟩))
          (htls name route hname)

/-- A run keeps what the writes to the hosts of its routes keep. -/
theorem run_inv (h : ∀ listenerSecret, ClosedUnderRoutes listenerSecret
      (UsesHost lib source) (fun _ => True) (fun _ => True) I) {dag : DAG} (hdag : I dag) :
    I (run lib ord p source dag) :=
  run_inv_of_routes h (fun _ _ _ _ _ _ _ _ => trivial) (fun _ _ _ _ _ _ _ _ => trivial) hdag

theorem closedUnderRoutes_frame (H : String → Prop) (dag : DAG) (listenerSecret : Option Secret) :
    ClosedUnderRoutes listenerSecret H (fun _ => True) (fun _ => True) (dag.Frame H) where
  commitRoute _ _ h := h.status _
  commitGateway _ _ h := h.status _
  narrow _ _ h := h
  entry d host entry hhost _ h := by
    cases listenerSecret with
    | none => exact h.putVirtualHost hhost _
    | some sec => exact h.putSecureVirtualHost hhost _
  tcpProxy _ _ _ hhost _ h := h.putSecureVirtualHost hhost _

/-- A run writes the hosts of the routes of the Gateway only. -/
theorem run_frame (dag : DAG) : dag.Frame (UsesHost lib source) (run lib ord p source dag) :=
  run_inv (closedUnderRoutes_frame _ dag) (DAG.Frame.refl _)

/-- A run leaves the statuses of the HTTPProxies alone. -/
theorem run_proxyUpdates (dag : DAG) :
    (run lib ord p source dag).statusCache.proxyUpdates = dag.statusCache.proxyUpdates := by
  refine run_inv (I := fun d => d.statusCache.proxyUpdates = dag.statusCache.proxyUpdates)
    (fun listenerSecret => ?_) rfl
  constructor
  · intro d u h
    dsimp only [Status.Cache.commitRoute]
    split <;> exact h
  · intro d u h
    dsimp only [Status.Cache.commitGateway]
    split <;> exact h
  · exact fun _ _ h => h
  · intro d host entry _ _ h
    cases listenerSecret <;> exact h
  · exact fun _ _ _ _ _ h => h

end Sesame.Dag.GatewayAPIProcessor
