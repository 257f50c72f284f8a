/-
# Ingresses and the order of range loops

The Ingress processor ranges over the Ingresses twice: to set up secure hosts, and to add
routes to hosts. Every write replaces an earlier one: the certificate and the minimum TLS
version of a host, and the route of a host with the same match conditions. So the order
matters iff two Ingresses ask for different things in the same place, or a backend that
makes the run panic is met.
-/

import Sesame.Dag.IngressProcessor
import Sesame.Dag.OrderFree
import Sesame.Dag.RouteKeys

namespace Sesame.Dag

open List
open Lib Api

/-! ## Hosts up to storage -/

/-- What a host holds: its fields apart from the routes, and the routes by key. -/
def VirtualHost.contents (v : VirtualHost) : VirtualHost × (String → Option Route) :=
  ({ v with routes := ∅ }, v.routes.lookup)

/-- What a secure host holds. The certificate is the Kubernetes Secret; the object that it
was attached for does not count. -/
def SecureVirtualHost.contents (v : SecureVirtualHost) :
    SecureVirtualHost × (String → Option Route) × Option Api.Secret :=
  ({ v with routes := ∅, secret := none }, v.routes.lookup, v.secret.map (·.object))

/-- Graphs whose hosts hold the same. -/
structure DAG.Alike (a b : DAG) : Prop where
  plain : ∀ host, (a.virtualHosts.lookup host).map (·.contents) =
    (b.virtualHosts.lookup host).map (·.contents)
  secure : ∀ host, (a.secureVirtualHosts.lookup host).map (·.contents) =
    (b.secureVirtualHosts.lookup host).map (·.contents)

namespace IngressProcessor

variable {lib : Stdlib} {ord : MapOrder} {p : IngressProcessor} {source : KubernetesCache}

variable {routes routes' : List Route} {dag : DAG}

/-! ## What is left of many writes -/

/-- The host after the last of some certificates was written to it. -/
def secured (dag : DAG) (host : String) (last : Option CertificateWrite) :
    Option SecureVirtualHost :=
  match last with
  | none => dag.secureVirtualHosts.lookup host
  | some w =>
    some { dag.ensureSecureVirtualHost host with
      secret := some w.secret
      minTLSVersion := w.minTLSVersion }

theorem lookup_certificates (ws : List CertificateWrite) (dag : DAG) (host : String) :
    (ws.foldl CertificateWrite.apply dag).secureVirtualHosts.lookup host =
      secured dag host (ws.filter (·.host = host)).getLast? := by
  induction ws generalizing dag with
  | nil => rfl
  | cons w ws ih =>
    rw [foldl_cons, ih]
    by_cases hw : w.host = host
    · subst hw
      cases hlast : (ws.filter (·.host = w.host)).getLast? with
      | none => simp [secured, getLast?_cons, hlast, CertificateWrite.apply,
          DAG.putSecureVirtualHost]
      | some w' => simp [secured, getLast?_cons, hlast, CertificateWrite.apply,
          DAG.putSecureVirtualHost, DAG.ensureSecureVirtualHost, DAG.getSecureVirtualHost]
    · have hlookup : (CertificateWrite.apply dag w).secureVirtualHosts.lookup host =
          dag.secureVirtualHosts.lookup host := by
        simp [CertificateWrite.apply, DAG.putSecureVirtualHost, Ne.symm hw]
      simp [secured, hw, DAG.ensureSecureVirtualHost, DAG.getSecureVirtualHost, hlookup]

theorem virtualHosts_certificates (ws : List CertificateWrite) (dag : DAG) :
    (ws.foldl CertificateWrite.apply dag).virtualHosts = dag.virtualHosts := by
  induction ws generalizing dag with
  | nil => rfl
  | cons w ws ih => exact ih (CertificateWrite.apply dag w)

/-- The Ingress has routes in the plaintext hosts or the secure hosts of a name. -/
def GoesTo (secure : Bool) (host : String) (ing : Ingress) : Prop :=
  if secure then host ≠ "*" else Annotation.tlsRequired ing ∨ Annotation.httpAllowed ing
  deriving Decidable

/-- The routes that go to the hosts of a name. -/
def routesTo (secure : Bool) (host : String) (ws : List RouteWrite) : List Route :=
  (ws.filter fun w => GoesTo secure w.host w.ing ∧ w.host = host).map (·.route)

theorem RouteWrite.lookup_virtualHosts_apply (dag : DAG) (w : RouteWrite) (host : String) :
    (RouteWrite.apply dag w).virtualHosts.lookup host =
      if GoesTo false w.host w.ing ∧ w.host = host then
        some (((dag.virtualHosts.lookup host).getD { name := host }).addRoute w.route)
      else dag.virtualHosts.lookup host := by
  have hplain : (RouteWrite.apply dag w).virtualHosts =
      if GoesTo false w.host w.ing then
        dag.virtualHosts.insert w.host ((dag.ensureVirtualHost w.host).addRoute w.route)
      else dag.virtualHosts := by
    unfold RouteWrite.apply addIngressRoute
    dsimp only
    split <;> split_ifs <;> first | rfl | contradiction
  rw [hplain]
  by_cases hw : GoesTo false w.host w.ing
  · rw [if_pos hw, Map.lookup_insert_eq]
    by_cases hhost : w.host = host
    · subst hhost
      rw [if_pos rfl, if_pos ⟨hw, rfl⟩]
      rfl
    · rw [if_neg (Ne.symm hhost), if_neg fun h => hhost h.2]
  · rw [if_neg hw, if_neg fun h => hw h.1]

theorem RouteWrite.lookup_secureVirtualHosts_apply (dag : DAG) (w : RouteWrite) (host : String) :
    (RouteWrite.apply dag w).secureVirtualHosts.lookup host =
      if GoesTo true w.host w.ing ∧ w.host = host then
        (dag.secureVirtualHosts.lookup host).map (·.addRoute w.route)
      else dag.secureVirtualHosts.lookup host := by
  unfold RouteWrite.apply addIngressRoute
  extract_lets d
  have hsame : d.secureVirtualHosts = dag.secureVirtualHosts := by
    unfold d
    split_ifs <;> rfl
  rw [DAG.getSecureVirtualHost, hsame]
  by_cases hto : GoesTo true w.host w.ing ∧ w.host = host
  · obtain ⟨hstar, rfl⟩ := hto
    rw [if_pos ⟨hstar, rfl⟩]
    cases hsvh : dag.secureVirtualHosts.lookup w.host with
    | none => rw [Option.map_none, hsame, hsvh]
    | some svh =>
      dsimp only
      rw [if_pos (show w.host ≠ "*" from hstar)]
      exact AList.lookup_insert _
  · rw [if_neg hto]
    split
    · split_ifs with hstar
      · rw [DAG.putSecureVirtualHost, hsame, Map.lookup_insert_eq,
          if_neg fun h => hto ⟨hstar, h.symm⟩]
      · rw [hsame]
    · rw [hsame]

/-- A host that is added with the first route. -/
def addToHost (host : String) (v : Option VirtualHost) (routes : List Route) : Option VirtualHost :=
  routes.foldl (fun v r => some ((v.getD { name := host }).addRoute r)) v

theorem lookup_virtualHosts_routes (ws : List RouteWrite) (dag : DAG) (host : String) :
    (ws.foldl RouteWrite.apply dag).virtualHosts.lookup host =
      addToHost host (dag.virtualHosts.lookup host) (routesTo false host ws) := by
  induction ws generalizing dag with
  | nil => rfl
  | cons w ws ih =>
    rw [foldl_cons, ih, RouteWrite.lookup_virtualHosts_apply, routesTo, routesTo, filter_cons]
    by_cases hw : GoesTo false w.host w.ing ∧ w.host = host
    · rw [if_pos hw, if_pos (decide_eq_true hw)]
      rfl
    · rw [if_neg hw, if_neg (by simpa using hw)]

theorem lookup_secureVirtualHosts_routes (ws : List RouteWrite) (dag : DAG) (host : String) :
    (ws.foldl RouteWrite.apply dag).secureVirtualHosts.lookup host =
      (dag.secureVirtualHosts.lookup host).map fun svh =>
        (routesTo true host ws).foldl SecureVirtualHost.addRoute svh := by
  induction ws generalizing dag with
  | nil => simp [routesTo]
  | cons w ws ih =>
    rw [foldl_cons, ih, RouteWrite.lookup_secureVirtualHosts_apply, routesTo, routesTo, filter_cons]
    by_cases hw : GoesTo true w.host w.ing ∧ w.host = host
    · rw [if_pos hw, if_pos (decide_eq_true hw), Option.map_map]
      rfl
    · rw [if_neg hw, if_neg (by simpa using hw)]

/-! ## The last write of a key -/

/-- The last route with some match conditions. -/
def lastOfKey (key : String) (routes : List Route) : Option Route :=
  (routes.filter fun r => conditionsToString r = key).getLast?

/-- The route of a host with some match conditions. -/
def routeAt (v : Option VirtualHost) (key : String) : Option Route :=
  (v.map (·.contents)).bind (·.2 key)

theorem eq_nil_iff_lastOfKey : routes = [] ↔ ∀ key, lastOfKey key routes = none := by
  constructor
  · rintro rfl key
    rfl
  · intro h
    rw [eq_nil_iff_forall_not_mem]
    intro r hr
    have hnone := h (conditionsToString r)
    rw [lastOfKey, getLast?_eq_none_iff, filter_eq_nil_iff] at hnone
    exact hnone r hr (decide_eq_true rfl)

/-- What a host holds after routes were added depends on the last route of each key only. -/
theorem contents_addToHost (host : String) (v : Option VirtualHost) (routes : List Route) :
    (addToHost host v routes).map (·.contents) =
      if routes = [] then v.map (·.contents)
      else some ({ v.getD { name := host } with routes := ∅ }, fun key =>
        (lastOfKey key routes).or (routeAt v key)) := by
  have hsome : ∀ (routes : List Route) (v : VirtualHost),
      addToHost host (some v) routes = some (routes.foldl VirtualHost.addRoute v) := by
    intro routes
    induction routes with
    | nil => exact fun v => rfl
    | cons r rest ih => exact fun v => ih (v.addRoute r)
  cases routes with
  | nil => rfl
  | cons r rest =>
    have hadd : addToHost host v (r :: rest) =
        some ((r :: rest).foldl VirtualHost.addRoute (v.getD { name := host })) := hsome rest _
    rw [if_neg (cons_ne_nil r rest), hadd, Option.map_some, VirtualHost.contents]
    congr 2
    · rw [VirtualHost.foldl_addRoute]
    · funext key
      rw [VirtualHost.lookup_foldl_addRoute, ← lastOfKey]
      cases v <;> rfl

theorem addToHost_alike (host : String) (v : Option VirtualHost)
    (h : ∀ key, lastOfKey key routes = lastOfKey key routes') :
    (addToHost host v routes).map (·.contents) = (addToHost host v routes').map (·.contents) := by
  have hnil : routes = [] ↔ routes' = [] := by simp only [eq_nil_iff_lastOfKey, h]
  simp only [contents_addToHost, hnil, h]

theorem contents_foldl_addRoute (v : SecureVirtualHost) (routes : List Route) :
    (routes.foldl SecureVirtualHost.addRoute v).contents =
      (v.contents.1, fun key => (lastOfKey key routes).or (v.routes.lookup key),
        v.contents.2.2) := by
  rw [SecureVirtualHost.foldl_addRoute, SecureVirtualHost.contents]
  congr 1
  · rw [VirtualHost.foldl_addRoute]
    rfl
  · congr 1
    funext key
    exact VirtualHost.lookup_foldl_addRoute ..

/-! ## Two orders -/

variable (lib ord p source)

/-- The secret of the last TLS entry of an Ingress that lists the host and that it may use. -/
def lastSecret (host : String) (ing : Ingress) : Option Secret :=
  lastWrite (fun tls => if host ∈ tls.hosts then usableSecret lib ord source ing tls else none)
    ing.tls

/-- The last write of an Ingress to a secure host. -/
def lastCertificateWrite (host : String) (ing : Ingress) : Option CertificateWrite :=
  (lastSecret lib ord source host ing).map fun secret =>
    { host, secret, minTLSVersion := minimumVersion ing }

/-- The certificate and the minimum TLS version that an Ingress asks for a host. -/
def lastCertificate (host : String) (ing : Ingress) : Option (Api.Secret × TLSVersion) :=
  (lastSecret lib ord source host ing).map fun sec => (sec.object, minimumVersion ing)

/-- The last path of an Ingress that is served in a host under a path condition. -/
def lastPath (host : String) (c : PathMatchCondition) (ing : Ingress) : Option FoundPath :=
  lastWrite (fun f =>
    if stringOrDefault f.host "*" = host ∧ pathCondition lib f.path f.pathType = some c then some f
    else none) (servedPaths lib ord p source ing)

/-- The route with some match conditions that an Ingress writes last to a host. -/
def lastRoute (secure : Bool) (host key : String) (ing : Ingress) : Option Route :=
  lastOfKey key (routesTo secure host (routesOf lib ord p source ing))

variable {lib ord p source}

theorem lastWrite_lastCertificate (host : String) (xs : List Ingress) :
    lastWrite (lastCertificate lib ord source host) xs =
      (lastWrite (lastCertificateWrite lib ord source host) xs).map (·.certificate) := by
  rw [← lastWrite_map]
  congr 1
  funext ing
  rw [lastCertificate, lastCertificateWrite, Option.map_map]
  rfl

theorem getLast?_certificateWrites (host : String) (ing : Ingress) :
    ((certificateWrites lib ord source ing).filter (·.host = host)).getLast? =
      lastCertificateWrite lib ord source host ing := by
  rw [certificateWrites, filter_flatMap, Lib.getLast?_flatMap, lastCertificateWrite, lastSecret,
    ← lastWrite_map]
  congr 1
  funext tls
  rw [tlsWrites]
  cases usableSecret lib ord source ing tls with
  | none => simp
  | some sec =>
    have hhosts := filter_eq (l := tls.hosts) host
    simp [filter_map, Function.comp_def, hhosts, getLast?_replicate, count_eq_zero]

theorem lastOfKey_routesTo (secure : Bool) (host key : String) (ys : List Ingress) :
    lastOfKey key (routesTo secure host (ys.flatMap (routesOf lib ord p source))) =
      lastWrite (lastRoute lib ord p source secure host key) ys := by
  rw [routesTo, filter_flatMap, map_flatMap, lastOfKey, filter_flatMap, Lib.getLast?_flatMap]
  rfl

theorem lookup_virtualHosts_leftBy (dag : DAG) (xs ys : List Ingress) (host : String) :
    (leftBy lib ord p source dag xs ys).virtualHosts.lookup host =
      addToHost host (dag.virtualHosts.lookup host)
        (routesTo false host (ys.flatMap (routesOf lib ord p source))) := by
  rw [leftBy, lookup_virtualHosts_routes, virtualHosts_certificates]

theorem contents_secureVirtualHosts_leftBy (dag : DAG) (xs ys : List Ingress) (host : String) :
    ((leftBy lib ord p source dag xs ys).secureVirtualHosts.lookup host).map (·.contents) =
      ((secured dag host (lastWrite (lastCertificateWrite lib ord source host) xs)).map
        (·.contents)).map fun c => (c.1, fun key =>
          (lastWrite (lastRoute lib ord p source true host key) ys).or (c.2.1 key), c.2.2) := by
  have hlast : ((xs.flatMap (certificateWrites lib ord source)).filter (·.host = host)).getLast? =
      lastWrite (lastCertificateWrite lib ord source host) xs := by
    rw [filter_flatMap, Lib.getLast?_flatMap]
    simp only [getLast?_certificateWrites]
  rw [leftBy, lookup_secureVirtualHosts_routes, lookup_certificates, hlast, Option.map_map,
    Option.map_map]
  simp only [Function.comp_def, contents_foldl_addRoute, lastOfKey_routesTo]
  rfl

/-! ## Orders of the two loops -/

def ingressLoops : List String := ["computeSecureVirtualhosts", "computeIngresses"]

section SameExcept

variable {ord' : MapOrder} (h : MapOrder.SameExcept ingressLoops ord ord')

include h

theorem headersPolicyService_sameExcept (policy : Option HeadersPolicy)
    (headers : Map String String) :
    headersPolicyService lib ord' policy none headers =
      headersPolicyService lib ord policy none headers := by
  have hsites : ∀ site ∈ ingressLoops, site.toList.take 2 ≠ ['e', 's'] := by
    simp [ingressLoops]
  have hset : setDefaultHeader lib ord' headers = setDefaultHeader lib ord headers := by
    funext set entry
    simp only [setDefaultHeader, escapeHeaderValue_sameExcept h hsites]
  cases policy with
  | none => rfl
  | some defaults =>
    simp only [headersPolicyService, headersPolicyRoute, hset,
      h.range (show "headersPolicyService" ∉ ingressLoops by decide)]

theorem route_sameExcept : FoundPath.route lib ord' p = FoundPath.route lib ord p := by
  funext ing cert f
  simp only [FoundPath.route, route, headersPolicyService_sameExcept h]

theorem metPaths_sameExcept : metPaths lib ord' p source = metPaths lib ord p source := by
  funext ing rule
  simp only [metPaths, endsRule, FoundPath.valid, FoundPath.defaultHeaders,
    headersPolicyService_sameExcept h]

theorem routesOf_sameExcept : routesOf lib ord' p source = routesOf lib ord p source := by
  have hwrite : FoundPath.write lib ord' p = FoundPath.write lib ord p := by
    funext ing cert f
    simp only [FoundPath.write, route_sameExcept h]
  funext ing
  simp only [routesOf, servedPaths, metPaths_sameExcept h, hwrite]

omit h in
theorem certificateWrites_order :
    certificateWrites lib ord' source = certificateWrites lib ord source := by
  funext ing
  unfold certificateWrites tlsWrites usableSecret
  simp only [source.delegationPermitted_order ord' ord]

end SameExcept

/-- A run in another order of the two loops. -/
theorem run_eq_ok_of_sameExcept {ord' : MapOrder} (h : MapOrder.SameExcept ingressLoops ord ord')
    {dag' : DAG} :
    run lib ord' p source dag = .ok dag' ↔
      (∀ name ing, source.ingresses.lookup name = some ing → NamesServices lib ord p source ing) ∧
      dag' = leftBy lib ord p source dag
        (ord'.values "computeSecureVirtualhosts" source.ingresses)
        (ord'.values "computeIngresses" source.ingresses) := by
  rw [run_eq_ok, leftBy, leftBy, routesOf_sameExcept h,
    show certificateWrites lib ord' source = certificateWrites lib ord source from
      certificateWrites_order]
  simp only [NamesServices, metPaths_sameExcept h]

/-! ## Conflicts -/

/-- The cache holds the Ingress. -/
def InCache (source : KubernetesCache) (ing : Ingress) : Prop :=
  ∃ name, source.ingresses.lookup name = some ing

/-- All Ingresses that write a value write the same one. -/
def Consistent {β : Type} (source : KubernetesCache) (f : Ingress → Option β) : Prop :=
  ∀ ing, InCache source ing → ∀ b ∈ f ing, ∀ ing', InCache source ing' → ∀ b' ∈ f ing', b = b'

theorem consistent_iff {β : Type} {f : Ingress → Option β} (ord : MapOrder) (site : String) :
    Consistent source f ↔ WritesAgree f (ord.values site source.ingresses) := by
  simp only [Consistent, WritesAgree, InCache, ord.mem_values]

variable (lib ord source dag) in
/-- Some Ingress sets up a secure host of the name, or there is one. -/
def HasSecure (host : String) : Prop :=
  (dag.secureVirtualHosts.lookup host).isSome ∨
    ∃ ing, InCache source ing ∧ (lastCertificate lib ord source host ing).isSome

variable (lib ord p) in
/-- Two Ingresses ask for the same under one path condition. -/
structure SameRequest (ing ing' : Ingress) (f f' : FoundPath) : Prop where
  upgrade : Annotation.tlsRequired ing = Annotation.tlsRequired ing'
  websocket : f.path ∈ Annotation.websocketRoutes ing ↔ f'.path ∈ Annotation.websocketRoutes ing'
  timeouts : ingressTimeoutPolicy lib ing = ingressTimeoutPolicy lib ing'
  retries : ingressRetryPolicy lib ing = ingressRetryPolicy lib ing'
  service : f.service = f'.service
  requestHeaders : f.defaultHeaders lib ord p.requestHeadersPolicy ing =
    f'.defaultHeaders lib ord p.requestHeadersPolicy ing'
  responseHeaders : f.defaultHeaders lib ord p.responseHeadersPolicy ing =
    f'.defaultHeaders lib ord p.responseHeadersPolicy ing'

variable (lib ord p source) in
/-- All Ingresses that serve a path condition in the hosts of a name ask for the same there. -/
def RequestsAgree (secure : Bool) (host : String) : Prop :=
  ∀ c ing, InCache source ing → GoesTo secure host ing →
    ∀ f ∈ lastPath lib ord p source host c ing,
    ∀ ing', InCache source ing' → GoesTo secure host ing' →
      ∀ f' ∈ lastPath lib ord p source host c ing', SameRequest lib ord p ing ing' f f'

variable (lib ord p source dag) in
/-- No two Ingresses ask for different certificates, minimum TLS versions or routes in the
same place. -/
structure NoConflicts : Prop where
  certificates : ∀ host, Consistent source (lastCertificate lib ord source host)
  plain : ∀ host, RequestsAgree lib ord p source false host
  secure : ∀ host, HasSecure lib ord source dag host → RequestsAgree lib ord p source true host

theorem FoundPath.route_eq_some {ing : Ingress} {cert : Option Secret} {f : FoundPath} {r : Route}
    (h : f.route lib ord p ing cert = some r) :
    ∃ req resp c, f.defaultHeaders lib ord p.requestHeadersPolicy ing = .ok req ∧
      f.defaultHeaders lib ord p.responseHeadersPolicy ing = .ok resp ∧
      pathCondition lib f.path f.pathType = some c ∧
      r = { pathMatchCondition := c
            headerMatchConditions := hostConditions f.host
            httpsUpgrade := Annotation.tlsRequired ing
            websocket := f.path ∈ Annotation.websocketRoutes ing
            timeoutPolicy := ingressTimeoutPolicy lib ing
            retryPolicy := ingressRetryPolicy lib ing
            clusters :=
              [{ upstream := f.service, protocol := f.service.protocol, clientCertificate := cert,
                 requestHeadersPolicy := req, responseHeadersPolicy := resp }] } := by
  simp only [FoundPath.route, IngressProcessor.route, Option.bind_eq_bind, Option.bind_eq_some_iff,
    toOption_eq_some] at h
  obtain ⟨req, hreq, resp, hresp, c, hc, hr⟩ := h
  cases hr
  exact ⟨req, resp, c, hreq, hresp, hc, rfl⟩

/-- Routes under one path condition of a host are the same iff the Ingresses ask for the same. -/
theorem sameRequest_iff {ing ing' : Ingress} {cert : Option Secret} {f f' : FoundPath}
    {r r' : Route} (hhost : hostConditions f.host = hostConditions f'.host)
    (hpath : pathCondition lib f.path f.pathType = pathCondition lib f'.path f'.pathType)
    (hr : f.route lib ord p ing cert = some r) (hr' : f'.route lib ord p ing' cert = some r') :
    r = r' ↔ SameRequest lib ord p ing ing' f f' := by
  obtain ⟨req, resp, c, hreq, hresp, hc, rfl⟩ := FoundPath.route_eq_some hr
  obtain ⟨req', resp', c', hreq', hresp', hc', rfl⟩ := FoundPath.route_eq_some hr'
  obtain rfl : c = c' := Option.some.inj (hc.symm.trans (hpath.trans hc'))
  constructor
  · intro h
    have hcluster := head_eq_of_cons_eq (congrArg Route.clusters h)
    have hreqs : req = req' := congrArg Cluster.requestHeadersPolicy hcluster
    have hresps : resp = resp' := congrArg Cluster.responseHeadersPolicy hcluster
    exact
      { upgrade := congrArg Route.httpsUpgrade h
        websocket := decide_eq_decide.mp (congrArg Route.websocket h)
        timeouts := congrArg Route.timeoutPolicy h
        retries := congrArg Route.retryPolicy h
        service := congrArg Cluster.upstream hcluster
        requestHeaders := by rw [hreq, hreq', hreqs]
        responseHeaders := by rw [hresp, hresp', hresps] }
  · intro h
    obtain rfl : req = req' := Except.ok.inj (hreq.symm.trans (h.requestHeaders.trans hreq'))
    obtain rfl : resp = resp' := Except.ok.inj (hresp.symm.trans (h.responseHeaders.trans hresp'))
    rw [hhost, h.upgrade, h.timeouts, h.retries, h.service, decide_eq_decide.mpr h.websocket]

theorem hostConditions_default (host : String) :
    hostConditions (stringOrDefault host "*") = hostConditions host := by
  rw [stringOrDefault]
  split
  · next hempty => rw [hempty]; rfl
  · rfl

/-- The key of the routes under a path condition of a host. -/
def hostKey (host : String) (c : PathMatchCondition) : String :=
  conditionsToString { pathMatchCondition := c, headerMatchConditions := hostConditions host }

theorem hostKey_inj {host : String} {c c' : PathMatchCondition} :
    hostKey host c = hostKey host c' ↔ c = c' := by
  refine ⟨fun h => ?_, congrArg _⟩
  have hlist := congrArg String.toList h
  rw [hostKey, hostKey, conditionsToString_toList, conditionsToString_toList,
    append_cancel_right_eq, pathMatchCondition_toList, pathMatchCondition_toList] at hlist
  obtain ⟨hstart, hbody⟩ := start_append_inj hlist
  exact eq_of_start_body hstart hbody

theorem FoundPath.key {ing : Ingress} {cert : Option Secret} {f : FoundPath} {r : Route}
    (h : f.route lib ord p ing cert = some r) :
    ∃ c, pathCondition lib f.path f.pathType = some c ∧
      conditionsToString r = hostKey (stringOrDefault f.host "*") c := by
  obtain ⟨req, resp, c, -, -, hc, rfl⟩ := FoundPath.route_eq_some h
  refine ⟨c, hc, ?_⟩
  rw [hostKey, hostConditions_default]
  rfl

theorem exists_route_of_served {ing : Ingress} {f : FoundPath}
    (h : f ∈ servedPaths lib ord p source ing) (cert : Option Secret) :
    ∃ r, f.route lib ord p ing cert = some r := by
  obtain ⟨rule, -, hf⟩ := mem_flatMap.mp h
  obtain ⟨httppath, hmet, hfound⟩ := mem_filterMap.mp hf
  rw [metPaths] at hmet
  split at hmet
  · have hserved := mem_takeWhile_imp hmet
    rw [← Option.isSome_iff_exists, FoundPath.isSome_route]
    simpa [endsRule, hfound] using hserved
  · cases hmet

/-- The last route under a path condition is that of the last path. -/
theorem lastRoute_hostKey {secure : Bool} {host : String} {ing : Ingress}
    (hgoes : GoesTo secure host ing) (c : PathMatchCondition) :
    lastRoute lib ord p source secure host (hostKey host c) ing =
      (lastPath lib ord p source host c ing).bind
        (FoundPath.route lib ord p ing ((clientCertSecret lib p source).getD none)) := by
  rw [lastRoute, lastOfKey, routesTo, routesOf, filter_filterMap, map_filterMap,
    filter_filterMap, lastPath, ← lastWrite_bind, lastWrite]
  · congr 1
    refine filterMap_congr fun f hf => ?_
    obtain ⟨r, hr⟩ := exists_route_of_served hf ((clientCertSecret lib p source).getD none)
    obtain ⟨c', hc', hkey⟩ := FoundPath.key hr
    rw [FoundPath.write, hr]
    by_cases hhost : stringOrDefault f.host "*" = host
    · subst hhost
      by_cases hsame : c' = c <;> simp [hgoes, hkey, hostKey_inj, hc', hr, hsame]
    · simp [hhost]
  · intro f hf found hfound
    obtain rfl := Option.some.inj (Option.ite_none_right_eq_some.mp hfound).2
    exact Option.isSome_iff_exists.mpr (exists_route_of_served hf _)

/-- Every route of an Ingress in a host has the key of a path condition. -/
theorem exists_hostKey {secure : Bool} {host key : String} {ing : Ingress} {r : Route}
    (h : r ∈ lastRoute lib ord p source secure host key ing) :
    GoesTo secure host ing ∧ ∃ c, key = hostKey host c := by
  obtain ⟨hmem, hkey⟩ := mem_filter.mp (mem_of_getLast? h)
  obtain ⟨w, hw, rfl⟩ := mem_map.mp hmem
  obtain ⟨hw, hto⟩ := mem_filter.mp hw
  obtain ⟨f, -, hwrite⟩ := mem_filterMap.mp hw
  obtain ⟨r, hr, rfl⟩ := Option.map_eq_some_iff.mp hwrite
  obtain ⟨hgoes, rfl⟩ := of_decide_eq_true hto
  obtain ⟨c, -, hc⟩ := FoundPath.key hr
  exact ⟨hgoes, c, (of_decide_eq_true hkey).symm.trans hc⟩

theorem lastPath_eq_some {host : String} {c : PathMatchCondition} {ing : Ingress} {f : FoundPath}
    (h : f ∈ lastPath lib ord p source host c ing) :
    f ∈ servedPaths lib ord p source ing ∧ hostConditions f.host = hostConditions host ∧
      pathCondition lib f.path f.pathType = some c := by
  obtain ⟨served, hserved, hsome⟩ := exists_of_lastWrite h
  obtain ⟨⟨rfl, hpath⟩, hf⟩ := Option.ite_none_right_eq_some.mp hsome
  obtain rfl := Option.some.inj hf
  exact ⟨hserved, (hostConditions_default _).symm, hpath⟩

/-- What Ingresses ask for in a host is the same iff their last routes under every key are. -/
theorem requestsAgree_iff {secure : Bool} {host : String} :
    RequestsAgree lib ord p source secure host ↔
      ∀ key, Consistent source (lastRoute lib ord p source secure host key) := by
  constructor
  · intro h key ing hing r hr ing' hing' r' hr'
    obtain ⟨hgoes, c, rfl⟩ := exists_hostKey hr
    obtain ⟨hgoes', -⟩ := exists_hostKey hr'
    rw [lastRoute_hostKey hgoes] at hr
    rw [lastRoute_hostKey hgoes'] at hr'
    obtain ⟨f, hf, hr⟩ := Option.bind_eq_some_iff.mp hr
    obtain ⟨f', hf', hr'⟩ := Option.bind_eq_some_iff.mp hr'
    obtain ⟨-, hhost, hpath⟩ := lastPath_eq_some hf
    obtain ⟨-, hhost', hpath'⟩ := lastPath_eq_some hf'
    exact (sameRequest_iff (hhost.trans hhost'.symm) (hpath.trans hpath'.symm) hr hr').mpr
      (h c ing hing hgoes f hf ing' hing' hgoes' f' hf')
  · intro h c ing hing hgoes f hf ing' hing' hgoes' f' hf'
    obtain ⟨hserved, hhost, hpath⟩ := lastPath_eq_some hf
    obtain ⟨hserved', hhost', hpath'⟩ := lastPath_eq_some hf'
    obtain ⟨r, hr⟩ := exists_route_of_served hserved ((clientCertSecret lib p source).getD none)
    obtain ⟨r', hr'⟩ := exists_route_of_served hserved' ((clientCertSecret lib p source).getD none)
    rw [← sameRequest_iff (hhost.trans hhost'.symm) (hpath.trans hpath'.symm) hr hr']
    refine h (hostKey host c) ing hing r ?_ ing' hing' r' ?_
    · rw [lastRoute_hostKey hgoes]
      exact Option.bind_eq_some_iff.mpr ⟨f, hf, hr⟩
    · rw [lastRoute_hostKey hgoes']
      exact Option.bind_eq_some_iff.mpr ⟨f', hf', hr'⟩

theorem hasSecure_iff {host : String} (ord' : MapOrder) (site : String) :
    HasSecure lib ord source dag host ↔
      (secured dag host (lastWrite (lastCertificateWrite lib ord source host)
        (ord'.values site source.ingresses))).isSome := by
  have hsome : ∀ last, (secured dag host last).isSome ↔
      (dag.secureVirtualHosts.lookup host).isSome ∨ last.isSome := by
    rintro (_ | w) <;> simp [secured]
  rw [hsome, isSome_lastWrite]
  simp only [HasSecure, InCache, lastCertificate, lastCertificateWrite, Option.isSome_map,
    ord'.mem_values]

theorem contents_secured (dag : DAG) (host : String) {last last' : Option CertificateWrite}
    (h : last.map (·.certificate) = last'.map (·.certificate)) :
    (secured dag host last).map (·.contents) = (secured dag host last').map (·.contents) := by
  cases last with
  | none =>
    rw [Option.map_none, eq_comm, Option.map_eq_none_iff] at h
    rw [h]
  | some w =>
    cases last' with
    | none => cases h
    | some w' =>
      obtain ⟨hobject, hversion⟩ := Prod.mk.inj (Option.some.inj h)
      simp [secured, SecureVirtualHost.contents, hobject, hversion]

theorem NoConflicts.leftBy_alike (h : NoConflicts lib ord p source dag) (ord' : MapOrder) :
    (leftBy lib ord p source dag (ord.values "computeSecureVirtualhosts" source.ingresses)
      (ord.values "computeIngresses" source.ingresses)).Alike
    (leftBy lib ord p source dag (ord'.values "computeSecureVirtualhosts" source.ingresses)
      (ord'.values "computeIngresses" source.ingresses)) where
  plain host := by
    rw [lookup_virtualHosts_leftBy, lookup_virtualHosts_leftBy]
    refine addToHost_alike host _ fun key => ?_
    rw [lastOfKey_routesTo, lastOfKey_routesTo]
    exact ((consistent_iff ord' _).mp (requestsAgree_iff.mp (h.plain host) key)).lastWrite_perm
      (ord.values_perm ord' _ _)
  secure host := by
    have hlast := ((consistent_iff ord' "computeSecureVirtualhosts").mp
      (h.certificates host)).lastWrite_perm (ord.values_perm ord' _ _)
    rw [lastWrite_lastCertificate, lastWrite_lastCertificate] at hlast
    rw [contents_secureVirtualHosts_leftBy, contents_secureVirtualHosts_leftBy,
      contents_secured dag host hlast]
    cases hsvh : secured dag host (lastWrite (lastCertificateWrite lib ord source host)
        (ord'.values "computeSecureVirtualhosts" source.ingresses)) with
    | none => rfl
    | some svh =>
      have hagree := h.secure host ((hasSecure_iff ord' _).mpr (by rw [hsvh]; rfl))
      have hroutes := fun key => ((consistent_iff ord' "computeIngresses").mp
        (requestsAgree_iff.mp hagree key)).lastWrite_perm (ord.values_perm ord' _ _)
      simp only [hroutes]

/-- The certificate and the minimum TLS version of a host that has a certificate. -/
def certificateAt (dag : DAG) (host : String) : Option (Api.Secret × TLSVersion) :=
  ((dag.secureVirtualHosts.lookup host).map (·.contents)).bind fun c =>
    c.2.2.map (·, c.1.minTLSVersion)

theorem certificateAt_leftBy (dag : DAG) (xs ys : List Ingress) (host : String) :
    certificateAt (leftBy lib ord p source dag xs ys) host =
      (lastWrite (lastCertificate lib ord source host) xs).or (certificateAt dag host) := by
  rw [certificateAt, contents_secureVirtualHosts_leftBy, lastWrite_lastCertificate]
  cases lastWrite (lastCertificateWrite lib ord source host) xs with
  | none =>
    rw [secured, certificateAt]
    cases dag.secureVirtualHosts.lookup host <;> rfl
  | some w => rfl

theorem routeAt_leftBy (dag : DAG) (xs ys : List Ingress) (host key : String) :
    routeAt ((leftBy lib ord p source dag xs ys).virtualHosts.lookup host) key =
      (lastWrite (lastRoute lib ord p source false host key) ys).or
        (routeAt (dag.virtualHosts.lookup host) key) := by
  rw [lookup_virtualHosts_leftBy, routeAt, contents_addToHost, ← lastOfKey_routesTo]
  split
  · next hnil =>
    rw [hnil]
    rfl
  · rfl

/-- The route of a secure host with some match conditions. -/
def secureRouteAt (v : Option SecureVirtualHost) (key : String) : Option Route :=
  (v.map (·.contents)).bind (·.2.1 key)

theorem secureRouteAt_leftBy (dag : DAG) (xs ys : List Ingress) {host : String}
    {svh : SecureVirtualHost}
    (hsvh : secured dag host (lastWrite (lastCertificateWrite lib ord source host) xs) = some svh)
    (key : String) :
    secureRouteAt ((leftBy lib ord p source dag xs ys).secureVirtualHosts.lookup host) key =
      (lastWrite (lastRoute lib ord p source true host key) ys).or (svh.routes.lookup key) := by
  rw [secureRouteAt, contents_secureVirtualHosts_leftBy, hsvh]
  rfl

variable (lib ord p source dag) in
/-- A run ends in every order of the two loops over the Ingresses, and leaves the same. -/
def OrderIndependent : Prop :=
  ∃ d, run lib ord p source dag = .ok d ∧ ∀ ord', MapOrder.SameExcept ingressLoops ord ord' →
    ∃ d', run lib ord' p source dag = .ok d' ∧ d.Alike d'

/-- Rotating the loops of a run that depends on no order shows that no writes conflict. -/
theorem OrderIndependent.noConflicts (h : OrderIndependent lib ord p source dag) :
    NoConflicts lib ord p source dag := by
  obtain ⟨d, hd, halike⟩ := h
  obtain ⟨-, hd⟩ := run_eq_ok.mp hd
  have hrotated : ∀ site ∈ ingressLoops, ∀ k, d.Alike
      (leftBy lib ord p source dag
        ((ord.rotatedAt site k).values "computeSecureVirtualhosts" source.ingresses)
        ((ord.rotatedAt site k).values "computeIngresses" source.ingresses)) := by
    intro site hsite k
    have hord := ord.sameExcept_rotatedAt hsite k
    obtain ⟨d', hd', hsame⟩ := halike _ hord
    obtain ⟨-, rfl⟩ := (run_eq_ok_of_sameExcept hord).mp hd'
    exact hsame
  have hcertificates : ∀ k, d.Alike
      (leftBy lib ord p source dag
        ((ord.values "computeSecureVirtualhosts" source.ingresses).rotate k)
        (ord.values "computeIngresses" source.ingresses)) := by
    intro k
    have hk := hrotated "computeSecureVirtualhosts" (by decide) k
    rwa [ord.values_rotatedAt, ord.values_rotatedAt_of_ne (by decide)] at hk
  have hroutes : ∀ k, d.Alike
      (leftBy lib ord p source dag (ord.values "computeSecureVirtualhosts" source.ingresses)
        ((ord.values "computeIngresses" source.ingresses).rotate k)) := by
    intro k
    have hk := hrotated "computeIngresses" (by decide) k
    rwa [ord.values_rotatedAt, ord.values_rotatedAt_of_ne (by decide)] at hk
  subst hd
  refine ⟨fun host => ?_, fun host => requestsAgree_iff.mpr fun key => ?_,
    fun host hhas => requestsAgree_iff.mpr fun key => ?_⟩
  · refine (consistent_iff ord "computeSecureVirtualhosts").mpr
      (writesAgree_of_rotate (certificateAt dag host) fun k => ?_)
    rw [← certificateAt_leftBy, ← certificateAt_leftBy]
    rw [certificateAt, certificateAt, (hcertificates k).secure]
  · refine (consistent_iff ord "computeIngresses").mpr
      (writesAgree_of_rotate (routeAt (dag.virtualHosts.lookup host) key) fun k => ?_)
    rw [← routeAt_leftBy, ← routeAt_leftBy]
    rw [routeAt, routeAt, (hroutes k).plain]
  · obtain ⟨svh, hsvh⟩ := Option.isSome_iff_exists.mp
      ((hasSecure_iff ord "computeSecureVirtualhosts").mp hhas)
    refine (consistent_iff ord "computeIngresses").mpr
      (writesAgree_of_rotate (svh.routes.lookup key) fun k => ?_)
    rw [← secureRouteAt_leftBy dag _ _ hsvh, ← secureRouteAt_leftBy dag _ _ hsvh]
    rw [secureRouteAt, secureRouteAt, (hroutes k).secure]

/-- A run ends in every order of the two loops over the Ingresses and leaves the same iff all
backends that it looks at name Services and no two Ingresses conflict. -/
theorem orderIndependent_iff (lib : Stdlib) (ord : MapOrder) (p : IngressProcessor)
    (source : KubernetesCache) (dag : DAG) :
    OrderIndependent lib ord p source dag ↔
      (∀ name ing, source.ingresses.lookup name = some ing → NamesServices lib ord p source ing) ∧
        NoConflicts lib ord p source dag := by
  constructor
  · intro h
    refine ⟨?_, h.noConflicts⟩
    obtain ⟨d, hd, -⟩ := h
    exact (run_eq_ok.mp hd).1
  · rintro ⟨hservices, hnone⟩
    refine ⟨_, run_eq_ok.mpr ⟨hservices, rfl⟩, fun ord' hord => ?_⟩
    exact ⟨_, (run_eq_ok_of_sameExcept hord).mpr ⟨hservices, rfl⟩, hnone.leftBy_alike ord'⟩

/-- An Ingress that sends all paths of the host `h` to a service. -/
def toService (service : String) : Ingress where
  ns := "n"
  name := service
  rules := [{ host := "h", http := some [{ path := "/", backend := webBackend service }] }]

def sharedPathCache : KubernetesCache where
  ingresses := byName (·.toObjectMeta) [toService "s", toService "t"]
  services := byName (·.toObjectMeta) [webService "n" "s", webService "n" "t"]

/-- The services that a route of a plaintext host forwards to. -/
def upstreamsAt (dag : DAG) (host key : String) : Option (List String) :=
  (routeAt (dag.virtualHosts.lookup host) key).map fun r =>
    r.clusters.map (·.upstream.weighted.serviceName)

def allPaths : String := conditionsToString { pathMatchCondition := .pathPrefix "/" .string }

/-- The order decides which service the host forwards to. -/
theorem shared_path_order_matters :
    ¬ OrderIndependent .plain .storage {} sharedPathCache {} ∧
    (∃ d ∈ (run .plain .storage {} sharedPathCache {}).toOption,
      upstreamsAt d "h" allPaths = some ["s"]) ∧
    ∃ d ∈ (run .plain (.reversedAt "computeIngresses") {} sharedPathCache {}).toOption,
      upstreamsAt d "h" allPaths = some ["t"] := by
  have hforward : ∃ d ∈ (run .plain .storage {} sharedPathCache {}).toOption,
      upstreamsAt d "h" allPaths = some ["s"] := by decide +kernel
  have hbackward : ∃ d ∈ (run .plain (.reversedAt "computeIngresses") {} sharedPathCache
      {}).toOption, upstreamsAt d "h" allPaths = some ["t"] := by decide +kernel
  refine ⟨fun h => ?_, hforward, hbackward⟩
  obtain ⟨d, hd, hs⟩ := hforward
  obtain ⟨d', hd', ht⟩ := hbackward
  have hord : MapOrder.SameExcept ingressLoops .storage (.reversedAt "computeIngresses") :=
    MapOrder.sameExcept_reversedAt (by decide)
  obtain ⟨e, he, hall⟩ := h
  obtain ⟨e', he', halike⟩ := hall _ hord
  obtain rfl : d = e := Except.ok.inj ((toOption_eq_some.mp hd).symm.trans he)
  obtain rfl : d' = e' := Except.ok.inj ((toOption_eq_some.mp hd').symm.trans he')
  have hsame : upstreamsAt d "h" allPaths = upstreamsAt d' "h" allPaths := by
    rw [upstreamsAt, upstreamsAt, routeAt, routeAt, halike.plain]
  rw [hs, ht] at hsame
  exact absurd hsame (by decide)

end IngressProcessor

end Sesame.Dag
