/-
# The Ingress processor

Ingresses with a usable certificate make secure hosts, and every rule adds routes
to the plaintext host and to a secure host of the same name. A backend without
service is dereferenced, so a run can panic.
-/

import Sesame.Dag.Policy
import Sesame.Dag.Service

namespace Sesame.Dag

open List
open Lib Api

/-- The configuration of `IngressProcessor`. -/
structure IngressProcessor where
  clientCertificate : Option NamespacedName := none
  enableExternalNameService : Bool := false
  requestHeadersPolicy : Option HeadersPolicy := none
  responseHeadersPolicy : Option HeadersPolicy := none

namespace IngressProcessor

variable (lib : Stdlib) (ord : MapOrder) (p : IngressProcessor) (source : KubernetesCache)

variable {ing : Ingress} {I : DAG → Prop} {dag dag' : DAG}

/-! ## Secure hosts -/

/-- The minimum TLS version that an Ingress asks for. -/
def minimumVersion (ing : Ingress) : TLSVersion :=
  let version := Annotation.sesameAnnotation ing.toObjectMeta "tls-minimum-protocol-version"
  Annotation.minTLSVersion version .v12

/-- The secure host that an Ingress sets up. -/
def secureHost (ing : Ingress) (sec : Secret) (dag : DAG) (host : String) : DAG :=
  dag.putSecureVirtualHost host
    { dag.ensureSecureVirtualHost host with
      secret := some sec
      minTLSVersion := minimumVersion ing }

/-- The secret of a TLS entry of an Ingress, if the Ingress may use it. -/
def usableSecret (ing : Ingress) (tls : IngressTLS) : Option Secret :=
  let secretName := namespacedNameFrom tls.secretName ing.ns
  match source.lookupSecret secretName (validSecret lib) ing.ns with
  | .error _ => none
  | .ok sec => if source.delegationPermitted ord secretName ing.ns then some sec else none

/-- The secure hosts of one TLS entry of an Ingress. -/
def secureHosts (ing : Ingress) (dag : DAG) (tls : IngressTLS) : DAG :=
  match usableSecret lib ord source ing tls with
  | none => dag
  | some sec => tls.hosts.foldl (secureHost ing sec) dag

def computeSecureVirtualhosts (dag : DAG) : DAG :=
  (ord.values "computeSecureVirtualhosts" source.ingresses).foldl
    (fun dag ing => ing.tls.foldl (secureHosts lib ord source ing) dag) dag

/-! ## Routes -/

/-- The condition for a path of an Ingress, or none if it is not a regex. -/
def pathCondition (path : String) (pathType : PathType) : Option PathMatchCondition :=
  match pathType with
  | .prefixed =>
    if path = "/" then some (.pathPrefix path .string)
    else
      some (.pathPrefix (String.ofList ((path.toList.reverse.dropWhile (· = '/')).reverse))
        .segment)
  | .exact => some (.exact path)
  | .implementationSpecific =>
    if path.toList.any fun c => c ∈ ['^', '+', '*', '[', ']', '%'] then
      if (lib.regexpError path).isSome then none else some (.regex path)
    else some (.pathPrefix path .string)

def dynamicHeaders (ing : Ingress) (serviceName : String) (servicePort : Int32) :
    Map String String :=
  (((∅ : Map String String).insert "Sesame_NAMESPACE" ing.ns).insert "Sesame_SERVICE_NAME"
    serviceName).insert "Sesame_SERVICE_PORT" (toString servicePort.toInt)

/-- `IngressProcessor.route`; its error is only logged. -/
def route (ing : Ingress) (host path : String) (pathType : PathType) (service : Service)
    (clientCertSecret : Option Secret) (serviceName : String) (servicePort : Int32) :
    Option Route := do
  let headers := dynamicHeaders ing serviceName servicePort
  let reqHP ← (headersPolicyService lib ord p.requestHeadersPolicy none headers).toOption
  let respHP ← (headersPolicyService lib ord p.responseHeadersPolicy none headers).toOption
  let pathMatchCondition ← pathCondition lib path pathType
  pure
    { pathMatchCondition
      headerMatchConditions := hostConditions host
      httpsUpgrade := Annotation.tlsRequired ing
      websocket := path ∈ Annotation.websocketRoutes ing
      timeoutPolicy := ingressTimeoutPolicy lib ing
      retryPolicy := ingressRetryPolicy lib ing
      clusters :=
        [{ upstream := service, protocol := service.protocol,
           clientCertificate := clientCertSecret, requestHeadersPolicy := reqHP,
           responseHeadersPolicy := respHP }] }

def addIngressRoute (ing : Ingress) (host : String) (dag : DAG) (r : Route) : DAG :=
  let dag :=
    if Annotation.tlsRequired ing ∨ Annotation.httpAllowed ing then
      dag.putVirtualHost host ((dag.ensureVirtualHost host).addRoute r)
    else dag
  match dag.getSecureVirtualHost host with
  | some svh => if host ≠ "*" then dag.putSecureVirtualHost host (svh.addRoute r) else dag
  | none => dag

def backendPort (be : IngressServiceBackend) : IntOrString :=
  if be.port.name ≠ "" then .string be.port.name else .int be.port.number

/-- The loop of `computeIngressRule` over the paths. An invalid path ends it. -/
def computePaths (ing : Ingress) (rule : IngressRule) (clientCertSecret : Option Secret) :
    DAG → List HTTPIngressPath → Except Panic DAG
  | dag, [] => .ok dag
  | dag, httppath :: rest =>
    match httppath.backend.service with
    | none => .error .nilDereference
    | some be =>
      match ensureService lib source { ns := ing.ns, name := be.name } (backendPort be)
          p.enableExternalNameService with
      | .error _ => computePaths ing rule clientCertSecret dag rest
      | .ok s =>
        match route lib ord p ing rule.host (stringOrDefault httppath.path "/")
            (httppath.pathType.getD .implementationSpecific) s clientCertSecret be.name
            be.port.number with
        | none => .ok dag
        | some r =>
          computePaths ing rule clientCertSecret
            (addIngressRoute ing (stringOrDefault rule.host "*") dag r) rest

/-- What the clusters of Ingress routes present to their upstreams: nothing, or the
configured secret. It is none if that is not usable. -/
def clientCertSecret : Option (Option Secret) :=
  match p.clientCertificate with
  | none => some none
  | some name => (source.lookupSecret name (validSecret lib) name.ns).toOption.map some

def computeIngressRule (ing : Ingress) (dag : DAG) (rule : IngressRule) : Except Panic DAG :=
  match clientCertSecret lib p source with
  | none => .ok dag
  | some cert => computePaths lib ord p source ing rule cert dag (rule.http.getD [])

def defaultBackendRule (be : IngressBackend) : Except Panic IngressRule :=
  match be.service with
  | none => .error .nilDereference
  | some service => .ok { http := some [{ backend := { service := some service } }] }

def rulesFromSpec (ing : Ingress) : Except Panic (List IngressRule) :=
  match ing.defaultBackend with
  | none => .ok ing.rules
  | some be => (defaultBackendRule be).map (· :: ing.rules)

/-- The loop of `computeIngresses`. -/
def computeIngress (dag : DAG) (ing : Ingress) : Except Panic DAG := do
  let rules ← rulesFromSpec ing
  rules.foldlM (computeIngressRule lib ord p source ing) dag

def computeIngresses (dag : DAG) : Except Panic DAG :=
  (ord.values "computeIngresses" source.ingresses).foldlM (computeIngress lib ord p source) dag

def run (dag : DAG) : Except Panic DAG :=
  computeIngresses lib ord p source (computeSecureVirtualhosts lib ord source dag)

/-! ## What one Ingress writes -/

/-- A path of an Ingress whose Service is there. -/
structure FoundPath where
  host : String
  path : String
  pathType : PathType
  backend : IngressServiceBackend
  service : Service

/-- The path of a rule with its Service, if that is there. -/
def foundPath (ing : Ingress) (rule : IngressRule) (httppath : HTTPIngressPath) :
    Option FoundPath := do
  let backend ← httppath.backend.service
  let service ← (ensureService lib source { ns := ing.ns, name := backend.name }
    (backendPort backend) p.enableExternalNameService).toOption
  pure
    { host := rule.host
      path := stringOrDefault httppath.path "/"
      pathType := httppath.pathType.getD .implementationSpecific
      backend
      service }

/-- The route for it, unless its path or a default header is not valid. -/
def FoundPath.route (ing : Ingress) (cert : Option Secret) (f : FoundPath) : Option Route :=
  IngressProcessor.route lib ord p ing f.host f.path f.pathType f.service cert f.backend.name
    f.backend.port.number

/-- The default headers with the values for the backend of the path. -/
def FoundPath.defaultHeaders (policy : Option HeadersPolicy) (ing : Ingress) (f : FoundPath) :
    Except String (Option HeadersPolicy) :=
  headersPolicyService lib ord policy none (dynamicHeaders ing f.backend.name f.backend.port.number)

/-- The path and the default headers for it are valid. -/
def FoundPath.valid (ing : Ingress) (f : FoundPath) : Bool :=
  (f.defaultHeaders lib ord p.requestHeadersPolicy ing).isOk &&
    (f.defaultHeaders lib ord p.responseHeadersPolicy ing).isOk &&
    (pathCondition lib f.path f.pathType).isSome

/-- The path ends the rule: it has a Service, but the path or a default header is not valid. -/
def endsRule (ing : Ingress) (rule : IngressRule) (httppath : HTTPIngressPath) : Bool :=
  (foundPath lib p source ing rule httppath).any fun f => !f.valid lib ord p ing

/-- The paths of a rule in front of the first one that ends it. Without a usable client
certificate no path is looked at. -/
def metPaths (ing : Ingress) (rule : IngressRule) : List HTTPIngressPath :=
  if (clientCertSecret lib p source).isSome then
    (rule.http.getD []).takeWhile (!endsRule lib ord p source ing rule ·)
  else []

/-- All backends of the Ingress that are looked at name a Service. -/
def NamesServices (ing : Ingress) : Prop :=
  (∀ be ∈ ing.defaultBackend, be.service.isSome = true) ∧
    ∀ rule ∈ ing.rules, ∀ httppath ∈ metPaths lib ord p source ing rule,
      httppath.backend.service.isSome = true

/-- The rules of an Ingress, with that for the default backend. -/
def specRules (ing : Ingress) : List IngressRule := (rulesFromSpec ing).toOption.getD []

def servedPaths (ing : Ingress) : List FoundPath :=
  (specRules ing).flatMap fun rule =>
    (metPaths lib ord p source ing rule).filterMap (foundPath lib p source ing rule)

/-- A route that an Ingress adds to the hosts of a name. -/
structure RouteWrite where
  ing : Ingress
  host : String
  route : Route

/-- Add it. -/
def RouteWrite.apply (dag : DAG) (w : RouteWrite) : DAG := addIngressRoute w.ing w.host dag w.route

def FoundPath.write (ing : Ingress) (cert : Option Secret) (f : FoundPath) : Option RouteWrite :=
  (f.route lib ord p ing cert).map fun route => { ing, host := stringOrDefault f.host "*", route }

def routesOf (ing : Ingress) : List RouteWrite :=
  (servedPaths lib ord p source ing).filterMap
    (FoundPath.write lib ord p ing ((clientCertSecret lib p source).getD none))

/-- The certificate and the minimum TLS version that an Ingress writes to a secure
host. -/
structure CertificateWrite where
  host : String
  secret : Secret
  minTLSVersion : TLSVersion

/-- What is served of it. -/
def CertificateWrite.certificate (w : CertificateWrite) : Api.Secret × TLSVersion :=
  (w.secret.object, w.minTLSVersion)

/-- Write them. -/
def CertificateWrite.apply (dag : DAG) (w : CertificateWrite) : DAG :=
  dag.putSecureVirtualHost w.host
    { dag.ensureSecureVirtualHost w.host with
      secret := some w.secret
      minTLSVersion := w.minTLSVersion }

def tlsWrites (ing : Ingress) (tls : IngressTLS) : List CertificateWrite :=
  (usableSecret lib ord source ing tls).elim [] fun secret =>
    tls.hosts.map fun host => { host, secret, minTLSVersion := minimumVersion ing }

def certificateWrites (ing : Ingress) : List CertificateWrite :=
  ing.tls.flatMap (tlsWrites lib ord source ing)

/-- A route that is computed for a path of a rule. -/
def IsRouteOf (ing : Ingress) (rule : IngressRule) (r : Route) : Prop :=
  ∃ path pathType service cert serviceName servicePort,
    clientCertSecret lib p source = some cert ∧
    route lib ord p ing rule.host path pathType service cert serviceName servicePort = some r

/-- A certificate that a TLS entry of an Ingress may use. -/
def IsCertificateOf (ing : Ingress) (tls : IngressTLS) (sec : Secret) : Prop :=
  source.lookupSecret (namespacedNameFrom tls.secretName ing.ns) (validSecret lib) ing.ns =
      .ok sec ∧
    source.delegationPermitted ord (namespacedNameFrom tls.secretName ing.ns) ing.ns = true

/-! ## What a run writes -/

variable {lib ord p source}

/-- The one cluster of a route forwards to its service. -/
theorem route_upstream {host path : String} {pathType : PathType} {service : Service}
    {cert : Option Secret} {serviceName : String} {servicePort : Int32} {r : Route}
    (h : route lib ord p ing host path pathType service cert serviceName servicePort = some r) :
    ∀ c ∈ r.allClusters, c.upstream = service := by
  simp only [route, Option.bind_eq_bind, Option.bind_eq_some_iff] at h
  obtain ⟨reqHP, -, respHP, -, pathMatchCondition, -, h⟩ := h
  cases h
  intro c hc
  obtain rfl := mem_singleton.mp hc
  rfl

theorem FoundPath.isSome_route (ing : Ingress) (cert : Option Secret) (f : FoundPath) :
    (f.route lib ord p ing cert).isSome = f.valid lib ord p ing := by
  rw [FoundPath.route, IngressProcessor.route, FoundPath.valid, FoundPath.defaultHeaders,
    FoundPath.defaultHeaders]
  cases headersPolicyService lib ord p.requestHeadersPolicy none _ with
  | error err => rfl
  | ok req =>
    cases headersPolicyService lib ord p.responseHeadersPolicy none _ with
    | error err => rfl
    | ok resp => cases pathCondition lib f.path f.pathType <;> rfl

theorem mem_of_mem_metPaths {rule : IngressRule} {httppath : HTTPIngressPath}
    (h : httppath ∈ metPaths lib ord p source ing rule) : httppath ∈ rule.http.getD [] := by
  rw [metPaths] at h
  split at h
  · exact (takeWhile_sublist _).subset h
  · cases h

theorem usableSecret_eq_some {tls : IngressTLS} {sec : Secret} :
    usableSecret lib ord source ing tls = some sec ↔
      IsCertificateOf lib ord source ing tls sec := by
  unfold usableSecret IsCertificateOf
  dsimp only
  cases source.lookupSecret (namespacedNameFrom tls.secretName ing.ns) (validSecret lib) ing.ns with
  | error err => simp
  | ok found => simp [and_comm]

theorem foundPath_eq_some {rule : IngressRule} {httppath : HTTPIngressPath} {f : FoundPath}
    (h : foundPath lib p source ing rule httppath = some f) :
    f.host = rule.host ∧
      ensureService lib source { ns := ing.ns, name := f.backend.name } (backendPort f.backend)
        p.enableExternalNameService = .ok f.service := by
  simp only [foundPath, Option.bind_eq_bind, Option.bind_eq_some_iff, toOption_eq_some] at h
  obtain ⟨backend, -, service, hservice, hf⟩ := h
  cases hf
  exact ⟨rfl, hservice⟩

/-- The loop over paths adds the routes of those that are served, unless it meets a backend
without service. -/
theorem computePaths_eq_ok {rule : IngressRule} {cert : Option Secret}
    {paths : List HTTPIngressPath} :
    computePaths lib ord p source ing rule cert dag paths = .ok dag' ↔
      (∀ httppath ∈ paths.takeWhile (!endsRule lib ord p source ing rule ·),
        httppath.backend.service.isSome = true) ∧
      dag' = (((paths.takeWhile (!endsRule lib ord p source ing rule ·)).filterMap
        (foundPath lib p source ing rule)).filterMap (FoundPath.write lib ord p ing cert)).foldl
          RouteWrite.apply dag := by
  induction paths generalizing dag with
  | nil => simpa [computePaths] using eq_comm
  | cons httppath rest ih =>
    rw [computePaths, takeWhile_cons, endsRule]
    cases hbe : httppath.backend.service with
    | none => simp [foundPath, hbe]
    | some be =>
      dsimp only
      cases hs : ensureService lib source { ns := ing.ns, name := be.name } (backendPort be)
          p.enableExternalNameService with
      | error err =>
        have hnone : foundPath lib p source ing rule httppath = none := by
          simp [foundPath, hbe, hs, Except.toOption]
        simp [hnone, hbe, ih]
      | ok s =>
        let f : FoundPath :=
          { host := rule.host, path := stringOrDefault httppath.path "/",
            pathType := httppath.pathType.getD .implementationSpecific, backend := be,
            service := s }
        have hfound : foundPath lib p source ing rule httppath = some f := by
          simp [foundPath, hbe, hs, Except.toOption, f]
        have hends : (f.route lib ord p ing cert).isSome = f.valid lib ord p ing :=
          f.isSome_route ing cert
        dsimp only
        rw [hfound]
        cases hr : f.route lib ord p ing cert with
        | none =>
          rw [hr] at hends
          rw [show route lib ord p ing rule.host _ _ s cert be.name _ = none from hr]
          simpa [← hends] using eq_comm
        | some r =>
          rw [hr] at hends
          rw [show route lib ord p ing rule.host _ _ s cert be.name _ = some r from hr]
          have hwrite : f.write lib ord p ing cert =
              some { ing, host := stringOrDefault rule.host "*", route := r } := by
            rw [FoundPath.write, hr]
            rfl
          simp [← hends, hfound, hwrite, hbe, ih, RouteWrite.apply]

theorem computeIngressRule_eq_ok (dag : DAG) (rule : IngressRule) (dag' : DAG) :
    computeIngressRule lib ord p source ing dag rule = .ok dag' ↔
      (∀ httppath ∈ metPaths lib ord p source ing rule, httppath.backend.service.isSome = true) ∧
      dag' = (((metPaths lib ord p source ing rule).filterMap
        (foundPath lib p source ing rule)).filterMap
          (FoundPath.write lib ord p ing ((clientCertSecret lib p source).getD none))).foldl
            RouteWrite.apply dag := by
  rw [computeIngressRule, metPaths]
  cases clientCertSecret lib p source with
  | none => simpa using eq_comm
  | some cert => exact computePaths_eq_ok

theorem rulesFromSpec_eq_ok {rules : List IngressRule} :
    rulesFromSpec ing = .ok rules ↔
      (∀ be ∈ ing.defaultBackend, be.service.isSome = true) ∧ rules = specRules ing := by
  rw [specRules, rulesFromSpec]
  cases ing.defaultBackend with
  | none => simpa [Except.toOption] using eq_comm
  | some be =>
    cases hservice : be.service with
    | none => simp [defaultBackendRule, hservice, Except.map]
    | some service =>
      simpa [defaultBackendRule, hservice, Except.map, Except.toOption] using eq_comm

/-- The rule for a default backend names a Service. -/
theorem namesServices_iff : NamesServices lib ord p source ing ↔
    (∀ be ∈ ing.defaultBackend, be.service.isSome = true) ∧
      ∀ rule ∈ specRules ing, ∀ httppath ∈ metPaths lib ord p source ing rule,
        httppath.backend.service.isSome = true := by
  rw [NamesServices, specRules, rulesFromSpec]
  cases ing.defaultBackend with
  | none => rfl
  | some be =>
    cases hservice : be.service with
    | none => simp [hservice]
    | some service =>
      have hdefault : ∀ httppath ∈ metPaths lib ord p source ing
          { http := some [{ backend := { service := some service } }] },
          httppath.backend.service.isSome = true := by
        intro httppath hmet
        obtain rfl := mem_singleton.mp (mem_of_mem_metPaths hmet)
        rfl
      simp only [defaultBackendRule, hservice, Except.map, Except.toOption, Option.getD_some,
        forall_mem_cons]
      tauto

theorem computeIngress_eq_ok (dag : DAG) (ing : Ingress) (dag' : DAG) :
    computeIngress lib ord p source dag ing = .ok dag' ↔
      NamesServices lib ord p source ing ∧
        dag' = (routesOf lib ord p source ing).foldl RouteWrite.apply dag := by
  rw [computeIngress, bind_eq_ok, routesOf, servedPaths, filterMap_flatMap,
    foldl_flatMap, namesServices_iff]
  simp only [rulesFromSpec_eq_ok, foldlM_eq_ok_iff computeIngressRule_eq_ok]
  constructor
  · rintro ⟨_, ⟨hdefault, rfl⟩, hrules, rfl⟩
    exact ⟨⟨hdefault, hrules⟩, rfl⟩
  · rintro ⟨⟨hdefault, hrules⟩, rfl⟩
    exact ⟨_, ⟨hdefault, rfl⟩, hrules, rfl⟩

theorem computeSecureVirtualhosts_eq (dag : DAG) :
    computeSecureVirtualhosts lib ord source dag =
      ((ord.values "computeSecureVirtualhosts" source.ingresses).flatMap
        (certificateWrites lib ord source)).foldl CertificateWrite.apply dag := by
  unfold computeSecureVirtualhosts
  rw [foldl_flatMap]
  congr 1
  funext dag ing
  rw [certificateWrites, foldl_flatMap]
  congr 1
  funext dag tls
  rw [secureHosts, tlsWrites]
  cases usableSecret lib ord source ing tls with
  | none => rfl
  | some sec =>
    dsimp only [Option.elim]
    rw [foldl_map]
    rfl

variable (lib ord p source) in
/-- What is left if the loops go over these lists. -/
def leftBy (dag : DAG) (xs ys : List Ingress) : DAG :=
  (ys.flatMap (routesOf lib ord p source)).foldl RouteWrite.apply
    ((xs.flatMap (certificateWrites lib ord source)).foldl CertificateWrite.apply dag)

/-- A run writes all certificates, and then all routes. It ends if all backends that it
looks at name Services. -/
theorem run_eq_ok :
    run lib ord p source dag = .ok dag' ↔
      (∀ name ing, source.ingresses.lookup name = some ing → NamesServices lib ord p source ing) ∧
      dag' = leftBy lib ord p source dag
        (ord.values "computeSecureVirtualhosts" source.ingresses)
        (ord.values "computeIngresses" source.ingresses) := by
  rw [run, computeIngresses, foldlM_eq_ok_iff computeIngress_eq_ok,
    computeSecureVirtualhosts_eq, leftBy, ← foldl_flatMap]
  refine and_congr_left fun _ => ?_
  simp only [ord.mem_values]
  exact ⟨fun h name ing hname => h ing ⟨name, hname⟩, fun h ing ⟨name, hname⟩ => h name ing hname⟩

/-- A route that an Ingress adds for a rule. -/
structure RouteWrite.IsFor (lib : Stdlib) (ord : MapOrder) (p : IngressProcessor)
    (source : KubernetesCache) (ing : Ingress) (rule : IngressRule) (w : RouteWrite) : Prop where
  host : w.host = stringOrDefault rule.host "*"
  route : IsRouteOf lib ord p source ing rule w.route
  upstream : ∀ c ∈ w.route.allClusters, ∃ name port,
    ensureService lib source { ns := ing.ns, name } port p.enableExternalNameService =
      .ok c.upstream

/-- The routes that an Ingress adds are those of its rules, and forward to Services of its
namespace. -/
theorem routesOf_isFor {w : RouteWrite} (hw : w ∈ routesOf lib ord p source ing) :
    ∃ rules rule, rulesFromSpec ing = .ok rules ∧ rule ∈ rules ∧
      w.IsFor lib ord p source ing rule := by
  obtain ⟨f, hf, hwrite⟩ := mem_filterMap.mp hw
  obtain ⟨rule, hrule, hf⟩ := mem_flatMap.mp hf
  obtain ⟨httppath, hmet, hfound⟩ := mem_filterMap.mp hf
  obtain ⟨r, hr, rfl⟩ := Option.map_eq_some_iff.mp hwrite
  obtain ⟨hhost, hservice⟩ := foundPath_eq_some hfound
  have hcert : ∃ cert, clientCertSecret lib p source = some cert := by
    rw [metPaths] at hmet
    split at hmet
    · next hsome => exact Option.isSome_iff_exists.mp hsome
    · cases hmet
  obtain ⟨cert, hcert⟩ := hcert
  rw [hcert, Option.getD_some, FoundPath.route, hhost] at hr
  cases hrules : rulesFromSpec ing with
  | error e =>
    rw [specRules, hrules] at hrule
    cases hrule
  | ok rules =>
    rw [specRules, hrules] at hrule
    refine ⟨rules, rule, rfl, hrule, congrArg (stringOrDefault · "*") hhost,
      ⟨_, _, _, cert, _, _, hcert, hr⟩, fun c hc => ?_⟩
    rw [route_upstream hr c hc]
    exact ⟨_, _, hservice⟩

/-- The certificates that an Ingress writes are those of its TLS entries. -/
theorem mem_certificateWrites {w : CertificateWrite}
    (hw : w ∈ certificateWrites lib ord source ing) :
    ∃ tls ∈ ing.tls, IsCertificateOf lib ord source ing tls w.secret ∧ w.host ∈ tls.hosts := by
  obtain ⟨tls, htls, hw⟩ := mem_flatMap.mp hw
  rw [tlsWrites] at hw
  cases hsec : usableSecret lib ord source ing tls with
  | none =>
    rw [hsec] at hw
    cases hw
  | some sec =>
    rw [hsec] at hw
    obtain ⟨host, hhost, rfl⟩ := mem_map.mp hw
    exact ⟨tls, htls, usableSecret_eq_some.mp hsec, hhost⟩

/-- Adding a route keeps what adding it to the plaintext host and to a secure host that is
there keeps. -/
theorem RouteWrite.apply_inv {w : RouteWrite}
    (hplain : ∀ d, I d →
      I (d.putVirtualHost w.host ((d.ensureVirtualHost w.host).addRoute w.route)))
    (hsecure : ∀ d svh, d.secureVirtualHosts.lookup w.host = some svh → I d →
      I (d.putSecureVirtualHost w.host (svh.addRoute w.route))) (hdag : I dag) :
    I (w.apply dag) := by
  have hfirst : I (if Annotation.tlsRequired w.ing ∨ Annotation.httpAllowed w.ing then
      dag.putVirtualHost w.host ((dag.ensureVirtualHost w.host).addRoute w.route) else dag) := by
    split
    · exact hplain dag hdag
    · exact hdag
  unfold apply addIngressRoute
  dsimp only
  split
  · next svh hsvh =>
    split
    · exact hsecure _ svh hsvh hfirst
    · exact hfirst
  · exact hfirst

/-- A run of the processor only writes the certificates and adds the routes of Ingresses. -/
theorem run_inv (hcertificate : ∀ name ing, source.ingresses.lookup name = some ing →
      ∀ w ∈ certificateWrites lib ord source ing, ∀ dag, I dag → I (w.apply dag))
    (hroute : ∀ name ing, source.ingresses.lookup name = some ing →
      ∀ w ∈ routesOf lib ord p source ing, ∀ dag, I dag → I (w.apply dag)) (hdag : I dag)
    (hrun : run lib ord p source dag = .ok dag') : I dag' := by
  obtain ⟨-, rfl⟩ := run_eq_ok.mp hrun
  refine foldlRecOn _ _ (foldlRecOn _ _ hdag ?_) ?_
  · intro dag hdag w hw
    obtain ⟨ing, hing, hw⟩ := mem_flatMap.mp hw
    obtain ⟨name, hname⟩ := ord.mem_values.mp hing
    exact hcertificate name ing hname w hw dag hdag
  · intro dag hdag w hw
    obtain ⟨ing, hing, hw⟩ := mem_flatMap.mp hw
    obtain ⟨name, hname⟩ := ord.mem_values.mp hing
    exact hroute name ing hname w hw dag hdag

/-- Some Ingress has the host in a TLS entry or a rule. -/
def UsesHost (source : KubernetesCache) (host : String) : Prop :=
  ∃ name ing, source.ingresses.lookup name = some ing ∧
    ((∃ tls ∈ ing.tls, host ∈ tls.hosts) ∨
      ∃ rules, rulesFromSpec ing = .ok rules ∧ ∃ rule ∈ rules, stringOrDefault rule.host "*" = host)

/-- A run writes the hosts of Ingresses only. -/
theorem run_frame (hrun : run lib ord p source dag = .ok dag') :
    dag.Frame (UsesHost source) dag' := by
  refine run_inv ?_ ?_ (DAG.Frame.refl _) hrun
  · intro name ing hname w hw d hd
    obtain ⟨tls, htls, -, hhost⟩ := mem_certificateWrites hw
    exact hd.putSecureVirtualHost ⟨name, ing, hname, .inl ⟨tls, htls, hhost⟩⟩ _
  · intro name ing hname w hw d hd
    obtain ⟨rules, rule, hrules, hrule, hfor⟩ := routesOf_isFor hw
    have hhost : UsesHost source w.host :=
      ⟨name, ing, hname, .inr ⟨rules, hrules, rule, hrule, hfor.host.symm⟩⟩
    exact RouteWrite.apply_inv (fun d hd => hd.putVirtualHost hhost _)
      (fun d svh _ hd => hd.putSecureVirtualHost hhost _) hd

end IngressProcessor

end Sesame.Dag
