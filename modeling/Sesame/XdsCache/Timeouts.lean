/-
# Timeouts in routes

Envoy rejects a route configuration with a negative timeout, and all plaintext hosts share
one. A duration reaches a route as text, from a field of an HTTPProxy whose schema leaves no
room for a sign or from an annotation of an Ingress, which has no schema. `timeout.Parse`
reads either and `envoy.Timeout` passes on what was read; neither looks at the sign.
-/

import Sesame.XdsCache.Route

namespace Sesame

open List
open Lib Api Dag Envoy

variable {ing : Ingress} {r : Route}

/-! ## Durations as text -/

/-- `time.ParseDuration` reads the text as a negative duration. -/
def NegativeDuration (lib : Stdlib) (text : String) : Prop :=
  ∃ d, lib.parseDuration text = .ok d ∧ d < 0

/-- A text that `time.ParseDuration` reads as a negative duration starts with a minus sign. -/
def Stdlib.NegativeBySign (lib : Stdlib) : Prop :=
  ∀ text, NegativeDuration lib text → text.toList.head? = some '-'

/-- One amount of the pattern of a duration: digits, which may have a fraction, and a unit. -/
def IsAmount (w : List Char) : Prop :=
  ∃ whole fraction unit, (∀ c ∈ whole, c.isDigit = true) ∧
    (fraction = [] ∨ ∃ digits, (∀ c ∈ digits, c.isDigit = true) ∧ fraction = '.' :: digits) ∧
    unit ∈ ["h", "m", "s", "ms", "us", "µs", "ns"] ∧ w = whole ++ fraction ++ unit.toList

/-- The pattern of the schema for an optional duration. -/
def SchemaDuration (text : String) : Prop :=
  text = "" ∨ text = "infinity" ∨ text = "infinite" ∨
    ∃ amounts : List (List Char), amounts ≠ [] ∧ (∀ w ∈ amounts, IsAmount w) ∧
      text.toList = amounts.flatten

/-- The durations of the routes of all HTTPProxies conform to the schema. -/
def Dag.KubernetesCache.DurationsConform (kc : KubernetesCache) : Prop :=
  ∀ name proxy, kc.httpproxies.lookup name = some proxy → ∀ spec ∈ proxy.routes,
    (∀ tp ∈ spec.timeoutPolicy, SchemaDuration tp.response ∧ SchemaDuration tp.idle) ∧
      ∀ rp ∈ spec.retryPolicy, SchemaDuration rp.perTryTimeout

variable {lib : Stdlib} {ord : MapOrder} {source : KubernetesCache} {action : RouteAction}
  {authService : Option ExtensionCluster} {text host : String}

theorem IsAmount.head_ne {w : List Char} (h : IsAmount w) : ∃ c, w.head? = some c ∧ c ≠ '-' := by
  obtain ⟨whole, fraction, unit, hwhole, hfraction, hunit, rfl⟩ := h
  cases whole with
  | cons c rest =>
    refine ⟨c, rfl, ?_⟩
    rintro rfl
    exact absurd (hwhole '-' mem_cons_self) (by decide)
  | nil =>
    rcases hfraction with rfl | ⟨digits, -, rfl⟩
    · simp only [mem_cons, not_mem_nil, or_false] at hunit
      rcases hunit with rfl | rfl | rfl | rfl | rfl | rfl | rfl <;>
        exact ⟨_, rfl, by decide⟩
    · exact ⟨'.', rfl, by decide⟩

/-- No text of the schema is read as a negative duration. -/
theorem SchemaDuration.not_negative (hlib : lib.NegativeBySign) (h : SchemaDuration text) :
    ¬ NegativeDuration lib text := by
  intro hnegative
  have hhead := hlib text hnegative
  rcases h with rfl | rfl | rfl | ⟨amounts, hne, hamounts, htext⟩
  · cases hhead
  · exact absurd hhead (by decide)
  · exact absurd hhead (by decide)
  · cases amounts with
    | nil => exact hne rfl
    | cons w rest =>
      obtain ⟨c, hc, hsign⟩ := (hamounts w mem_cons_self).head_ne
      rw [htext, flatten_cons, head?_append, hc] at hhead
      exact hsign (Option.some.inj hhead)

/-! ## Settings -/

namespace Envoy

/-- A timeout that Envoy accepts: it is absent or not negative. -/
def Accepted (t : Option Int64) : Prop := ∀ d ∈ t, 0 ≤ d

theorem accepted_default : Accepted (timeout {}) := by
  intro d hd
  cases hd

theorem accepted_disabled : Accepted (timeout Timeout.disabledSetting) := by
  intro d hd
  cases hd
  decide

theorem accepted_durationSetting {d : Int64} :
    Accepted (timeout (Timeout.durationSetting d)) ↔ ¬ d < 0 := by
  rw [Timeout.durationSetting]
  split
  · next hzero =>
    rw [hzero]
    exact iff_of_true accepted_default (by decide)
  · rw [Int64.not_lt]
    exact ⟨fun h => h d rfl, fun h d' hd' => Option.some.inj hd' ▸ h⟩

/-- A text that `timeout.Parse` reads is an accepted timeout iff it is not read as a negative
duration. -/
theorem accepted_parse_iff (hlib : lib.NegativeBySign) {s : Timeout.Setting}
    (h : Timeout.parse lib text = .ok s) : Accepted (timeout s) ↔ ¬ NegativeDuration lib text := by
  unfold Timeout.parse at h
  split at h
  · next hempty =>
    cases h
    exact iff_of_true accepted_default (SchemaDuration.not_negative hlib (.inl hempty))
  split at h
  · next hinfinite =>
    cases h
    refine iff_of_true accepted_disabled (SchemaDuration.not_negative hlib ?_)
    exact .inr (hinfinite.imp_right Or.inl)
  unfold Timeout.parseText at h
  split at h
  · cases h
  · next d hd =>
    cases h
    rw [accepted_durationSetting, NegativeDuration, hd]
    simp

/-- The setting for an annotation: the default if it cannot be read. -/
def settingOf (lib : Stdlib) (text : String) : Timeout.Setting :=
  (Timeout.parse lib text).toOption.getD {}

/-- A text that is neither a duration nor one of the two words for no timeout. -/
def Unreadable (lib : Stdlib) (text : String) : Prop :=
  text ≠ "infinity" ∧ text ≠ "infinite" ∧ ∀ d, lib.parseDuration text ≠ .ok d

theorem timeout_settingOf_of_unreadable (h : Unreadable lib text) :
    timeout (settingOf lib text) = none := by
  obtain ⟨hinfinity, hinfinite, hduration⟩ := h
  rw [settingOf, Timeout.parse]
  by_cases hempty : text = ""
  · rw [if_pos hempty]
    rfl
  · rw [if_neg hempty, if_neg (not_or.mpr ⟨hinfinity, hinfinite⟩), Timeout.parseText]
    cases hparse : lib.parseDuration text with
    | error err => rfl
    | ok d => exact absurd hparse (hduration d)

theorem accepted_settingOf_iff (hlib : lib.NegativeBySign) (text : String) :
    Accepted (timeout (settingOf lib text)) ↔ ¬ NegativeDuration lib text := by
  cases hparse : Timeout.parse lib text with
  | ok s =>
    rw [settingOf, hparse]
    exact accepted_parse_iff hlib hparse
  | error err =>
    have hnone : ¬ NegativeDuration lib text := by
      rintro ⟨d, hd, -⟩
      unfold Timeout.parse at hparse
      split at hparse
      · cases hparse
      · split at hparse
        · cases hparse
        · rw [Timeout.parseText, hd] at hparse
          cases hparse
    rw [settingOf, hparse]
    exact iff_of_true accepted_default hnone

/-- The timeouts of an action that forwards. -/
structure RouteAction.TimeoutsAccepted (action : RouteAction) : Prop where
  response : Accepted action.timeout
  idle : Accepted action.idleTimeout
  perTry : ∀ rp ∈ action.retryPolicy, Accepted rp.perTryTimeout

/-- Envoy accepts the timeouts of a route. -/
def EnvoyRoute.TimeoutsAccepted (er : EnvoyRoute) : Prop :=
  ∀ action, er.action = .route action → action.TimeoutsAccepted

theorem routeRoute_of_buildRoute {r : Dag.Route} {vhostName : String} {secure : Bool}
    (h : (buildRoute lib ord r vhostName secure authService).action = .route action) :
    action = routeRoute lib ord r := by
  unfold buildRoute at h
  split at h
  · cases h
  split at h
  · cases h
  · split at h
    · cases h
    · cases h
      rfl

/-- An action with the default timeouts. -/
theorem timeoutsAccepted_default {r : Dag.Route} (htimeouts : r.timeoutPolicy = {})
    (hretries : r.retryPolicy = none) : (routeRoute lib ord r).TimeoutsAccepted where
  response := by
    rw [routeRoute, htimeouts]
    exact accepted_default
  idle := by
    rw [routeRoute, htimeouts]
    exact accepted_default
  perTry := by
    rw [routeRoute, retryPolicy, hretries]
    intro rp hrp
    cases hrp

end Envoy

/-! ## Ingresses -/

/-- The text that `ingressTimeoutPolicy` reads. -/
def responseTimeoutText (ing : Ingress) : String :=
  if Annotation.sesameAnnotation ing.toObjectMeta "response-timeout" = "" then
    Annotation.sesameAnnotation ing.toObjectMeta "request-timeout"
  else Annotation.sesameAnnotation ing.toObjectMeta "response-timeout"

/-- The text that `PerTryTimeout` reads. -/
def perTryTimeoutText (ing : Ingress) : String :=
  Annotation.sesameAnnotation ing.toObjectMeta "per-try-timeout"

/-- An annotation of the Ingress that is in use is read as a negative duration: the one for
responses, or the one for retries if there is a condition for retries. -/
def NegativeTimeouts (lib : Stdlib) (ing : Ingress) : Prop :=
  NegativeDuration lib (responseTimeoutText ing) ∨
    Annotation.sesameAnnotation ing.toObjectMeta "retry-on" ≠ "" ∧
      NegativeDuration lib (perTryTimeoutText ing)

theorem ingressTimeoutPolicy_eq (ing : Ingress) :
    ingressTimeoutPolicy lib ing =
      { responseTimeout := settingOf lib (responseTimeoutText ing) } := by
  unfold ingressTimeoutPolicy
  dsimp only
  rw [← responseTimeoutText]
  split
  · next hempty =>
    rw [hempty]
    rfl
  · unfold timeoutPolicy settingOf
    dsimp only
    cases Timeout.parse lib (responseTimeoutText ing) <;> rfl

/-- The timeout for retries on a route of an Ingress. -/
theorem forall_retryPolicy_ingress_iff (hr : r.retryPolicy = ingressRetryPolicy lib ing)
    {P : Option Int64 → Prop} :
    (∀ rp ∈ Envoy.retryPolicy r, P rp.perTryTimeout) ↔
      (¬ Annotation.sesameAnnotation ing.toObjectMeta "retry-on" = "" →
        P (timeout (settingOf lib (perTryTimeoutText ing)))) := by
  rw [Envoy.retryPolicy, hr, ingressRetryPolicy, Annotation.perTryTimeout, ← perTryTimeoutText,
    settingOf]
  by_cases hretry : Annotation.sesameAnnotation ing.toObjectMeta "retry-on" = ""
  · simp [hretry]
  · cases Timeout.parse lib (perTryTimeoutText ing) <;>
      simp [hretry, Except.toOption]

/-- The timeouts of the routes of an Ingress. -/
theorem Dag.IngressProcessor.IsRouteOf.timeouts {p : IngressProcessor} {rule : IngressRule}
    (h : IngressProcessor.IsRouteOf lib ord p source ing rule r) :
    r.timeoutPolicy = ingressTimeoutPolicy lib ing ∧
      r.retryPolicy = ingressRetryPolicy lib ing := by
  obtain ⟨path, pathType, service, cert, serviceName, servicePort, -, hroute⟩ := h
  unfold IngressProcessor.route at hroute
  simp only [Option.bind_eq_bind, Option.bind_eq_some_iff] at hroute
  obtain ⟨reqHP, -, respHP, -, pathMatchCondition, -, hr⟩ := hroute
  cases hr
  exact ⟨rfl, rfl⟩

/-- Envoy accepts the timeouts of an action with the policies of an Ingress iff no annotation
in use is read as a negative duration. -/
theorem timeoutsAccepted_ingress_iff (hlib : lib.NegativeBySign)
    (htimeouts : r.timeoutPolicy = ingressTimeoutPolicy lib ing)
    (hretries : r.retryPolicy = ingressRetryPolicy lib ing) :
    (routeRoute lib ord r).TimeoutsAccepted ↔ ¬ NegativeTimeouts lib ing := by
  have hresponse : Accepted (routeRoute lib ord r).timeout ↔
      ¬ NegativeDuration lib (responseTimeoutText ing) := by
    rw [routeRoute, htimeouts, ingressTimeoutPolicy_eq]
    exact accepted_settingOf_iff hlib _
  have hidle : Accepted (routeRoute lib ord r).idleTimeout := by
    rw [routeRoute, htimeouts, ingressTimeoutPolicy_eq]
    exact accepted_default
  have hperTry : (∀ rp ∈ (routeRoute lib ord r).retryPolicy, Accepted rp.perTryTimeout) ↔
      ¬ (¬ Annotation.sesameAnnotation ing.toObjectMeta "retry-on" = "" ∧
        NegativeDuration lib (perTryTimeoutText ing)) := by
    rw [not_and, ← accepted_settingOf_iff hlib]
    exact forall_retryPolicy_ingress_iff hretries
  rw [NegativeTimeouts, not_or, ← hresponse, ← hperTry]
  exact ⟨fun h => ⟨h.response, h.perTry⟩, fun h => ⟨h.1, hidle, h.2⟩⟩

/-! ## HTTPProxies -/

theorem accepted_timeoutPolicy (hlib : lib.NegativeBySign) {tp : Option Api.TimeoutPolicy}
    (hschema : ∀ tp' ∈ tp, SchemaDuration tp'.response ∧ SchemaDuration tp'.idle)
    {policy : Dag.TimeoutPolicy} (h : timeoutPolicy lib tp = .ok policy) :
    Accepted (timeout policy.responseTimeout) ∧ Accepted (timeout policy.idleTimeout) := by
  cases tp with
  | none =>
    cases h
    exact ⟨accepted_default, accepted_default⟩
  | some tp =>
    obtain ⟨hresponse, hidle⟩ := hschema tp rfl
    unfold timeoutPolicy at h
    dsimp only at h
    split at h
    · cases h
    rename_i hparse
    split at h
    · cases h
    · next hparse' =>
      cases h
      exact ⟨(accepted_parse_iff hlib hparse).mpr (hresponse.not_negative hlib),
        (accepted_parse_iff hlib hparse').mpr (hidle.not_negative hlib)⟩

theorem accepted_retryPolicy (hlib : lib.NegativeBySign) {rp : Option Api.RetryPolicy}
    (hschema : ∀ rp' ∈ rp, SchemaDuration rp'.perTryTimeout)
    (hr : r.retryPolicy = Dag.retryPolicy lib rp) :
    ∀ erp ∈ Envoy.retryPolicy r, Accepted erp.perTryTimeout := by
  intro erp herp
  cases rp with
  | none =>
    rw [Envoy.retryPolicy, hr] at herp
    cases herp
  | some rp =>
    rw [Envoy.retryPolicy, hr] at herp
    simp only [Dag.retryPolicy, Option.map_some] at herp
    split at herp
    · cases herp
    cases herp
    dsimp only
    split
    · next d hd =>
      rw [accepted_durationSetting]
      intro hneg
      exact (hschema rp rfl).not_negative hlib ⟨d, hd, hneg⟩
    · exact accepted_default

/-- Envoy accepts the timeouts of the routes of HTTPProxies that conform to the schema. -/
theorem timeoutsAccepted_proxy (hlib : lib.NegativeBySign) {routeOrd : MapOrder}
    {p : HTTPProxyProcessor} (hschema : source.DurationsConform)
    {extensions : List ExtensionCluster}
    (h : HTTPProxyProcessor.Puts lib ord p source extensions host r) :
    (routeRoute lib routeOrd r).TimeoutsAccepted := by
  obtain ⟨proxy, vhost, hroot, -, -, hr⟩ := h
  refine HTTPProxyProcessor.computeRoutes_inv
    (P := fun r => (routeRoute lib routeOrd r).TimeoutsAccepted) ⟨?_, ?_, ?_⟩ _ _ _ _ .start r hr
  · intro pos spec r hpos hspec hr
    obtain ⟨name, hname⟩ := hpos.cached hroot.cached
    obtain ⟨htp, hrp⟩ := hschema name pos.proxy hname spec hspec
    obtain ⟨_, base, clusters, mirrorPolicy, hbase, rfl⟩ := hr.eq_finishRoute
    obtain ⟨hresponse, hidle⟩ := accepted_timeoutPolicy hlib htp hbase.timeouts
    exact ⟨hresponse, hidle, accepted_retryPolicy hlib hrp hbase.retries⟩
  · intro pos inc _ _ _
    exact timeoutsAccepted_default rfl rfl
  · intro r routingPrefix m hr _ _ _ rewrite _
    exact ⟨⟨hr.response, hr.idle, hr.perTry⟩, ⟨hr.response, hr.idle, hr.perTry⟩⟩

/-! ## Routes of the Gateway API -/

theorem timeoutsAccepted_gateway {routeOrd : MapOrder} {p : GatewayAPIProcessor}
    (h : GatewayAPIProcessor.Puts lib ord p source host r) :
    (routeRoute lib routeOrd r).TimeoutsAccepted := by
  obtain ⟨-, name, route, rule, u, -, -, r₀, hr₀, hosts, rfl⟩ := h
  have hnarrowed : ∀ r' : Route, r'.timeoutPolicy = {} ∧ r'.retryPolicy = none →
      (hosts.foldl (fun r host => GatewayAPIProcessor.narrowToHost host r) r').timeoutPolicy = {} ∧
        (hosts.foldl (fun r host => GatewayAPIProcessor.narrowToHost host r) r').retryPolicy =
          none := by
    intro r' hr'
    refine foldlRecOn hosts _ (motive := fun r : Route =>
      r.timeoutPolicy = {} ∧ r.retryPolicy = none) hr' ?_
    intro r hr host _
    rw [GatewayAPIProcessor.narrowToHost]
    split <;> exact hr
  have hrule : r₀.timeoutPolicy = {} ∧ r₀.retryPolicy = none := by
    unfold GatewayAPIProcessor.ruleRoutes at hr₀
    dsimp only at hr₀
    split at hr₀
    · obtain ⟨mc, -, rfl⟩ := mem_map.mp hr₀
      exact ⟨rfl, rfl⟩
    · unfold GatewayAPIProcessor.clusterRoutes at hr₀
      split at hr₀
      · cases hr₀
      · obtain ⟨mc, -, rfl⟩ := mem_map.mp hr₀
        exact ⟨rfl, rfl⟩
  exact timeoutsAccepted_default (hnarrowed r₀ hrule).1 (hnarrowed r₀ hrule).2

/-! ## Route configurations -/

namespace XdsCache

variable {ord routeOrd : MapOrder} {dbc : DagBuilderConfig} {source : KubernetesCache} {root : DAG}

variable (lib ord routeOrd dbc source) in
/-- A route of a configuration that forwards and was built for an Ingress in the cache. -/
def BuiltForIngress (ing : Ingress) (er : EnvoyRoute) : Prop :=
  (∃ name, source.ingresses.lookup name = some ing) ∧ (∃ action, er.action = .route action) ∧
    ∃ rule r host secure authService,
      IngressProcessor.IsRouteOf lib ord dbc.ingressProcessor source ing rule r ∧
      buildRoute lib routeOrd (sortHeaders r) host secure authService = er

theorem forwards_eq {secure : Bool} {er : EnvoyRoute}
    (hbuilt : buildRoute lib routeOrd (sortHeaders r) host secure authService = er)
    (haction : er.action = .route action) : action = routeRoute lib routeOrd (sortHeaders r) := by
  rw [← hbuilt] at haction
  exact routeRoute_of_buildRoute haction

/-- An annotation that cannot be read gives a route of the Ingress the default. -/
theorem default_of_unreadable {er : EnvoyRoute}
    (h : BuiltForIngress lib ord routeOrd dbc source ing er) (haction : er.action = .route action) :
    (Unreadable lib (responseTimeoutText ing) → action.timeout = none) ∧
      (Unreadable lib (perTryTimeoutText ing) →
        ∀ rp ∈ action.retryPolicy, rp.perTryTimeout = none) := by
  obtain ⟨-, -, rule, r, host, secure, authService, hr, hbuilt⟩ := h
  obtain ⟨htimeouts, hretries⟩ := hr.timeouts
  rw [forwards_eq hbuilt haction]
  constructor
  · intro hunreadable
    have htimeout := timeout_settingOf_of_unreadable hunreadable
    rw [routeRoute, sortHeaders, htimeouts, ingressTimeoutPolicy_eq]
    exact htimeout
  · intro hunreadable
    have hretry : (sortHeaders r).retryPolicy = ingressRetryPolicy lib ing := hretries
    exact (forall_retryPolicy_ingress_iff (P := (· = none)) hretry).mpr
      fun _ => timeout_settingOf_of_unreadable hunreadable

/-- Envoy accepts the timeouts of a generated route iff the route does not forward for an
Ingress with an annotation in use that is read as a negative duration. An annotation that
cannot be read gives the routes of its Ingress the default and changes no other route. -/
theorem timeouts_accepted_iff (hlib : lib.NegativeBySign) (hschema : source.DurationsConform)
    (hbuild : Builder.build lib ord dbc source = .ok root) (config : String)
    (evh : EnvoyVirtualHost)
    (hevh : evh ∈ RouteCache.hostsOf (RouteCache.onChange lib routeOrd root) config)
    (er : EnvoyRoute) (her : er ∈ evh.routes) :
    (er.TimeoutsAccepted ↔ ∀ ing, BuiltForIngress lib ord routeOrd dbc source ing er →
      ¬ NegativeTimeouts lib ing) ∧
    ∀ ing, BuiltForIngress lib ord routeOrd dbc source ing er →
      ∀ action, er.action = .route action →
        (Unreadable lib (responseTimeoutText ing) → action.timeout = none) ∧
        (Unreadable lib (perTryTimeoutText ing) →
          ∀ rp ∈ action.retryPolicy, rp.perTryTimeout = none) := by
  refine ⟨⟨?_, ?_⟩, fun ing hing action haction => default_of_unreadable hing haction⟩
  · rintro haccepted ing ⟨-, ⟨action, haction⟩, rule, r, host, secure, authService, hr, hbuilt⟩
    obtain ⟨htimeouts, hretries⟩ := hr.timeouts
    have hroute := haccepted action haction
    rw [forwards_eq hbuilt haction] at hroute
    exact (timeoutsAccepted_ingress_iff (r := sortHeaders r) hlib htimeouts hretries).mp hroute
  · intro hingresses action haction
    obtain ⟨host, r, secure, authService, hr, hbuilt⟩ := RouteCache.exists_hasRoute hbuild hevh her
    have haction' := forwards_eq hbuilt haction
    suffices h : (routeRoute lib routeOrd r).TimeoutsAccepted by
      rw [haction']
      exact ⟨h.response, h.idle, h.perTry⟩
    rcases Builder.puts_of_hasRoute hbuild hr with hingress | ⟨extensions, hproxy⟩ | hgateway
    · obtain ⟨name, ing, rules, rule, hing, -, -, -, hroute⟩ := hingress
      obtain ⟨htimeouts, hretries⟩ := hroute.timeouts
      rw [timeoutsAccepted_ingress_iff hlib htimeouts hretries]
      exact hingresses ing ⟨⟨name, hing⟩, ⟨action, haction⟩, rule, r, host, secure, authService,
        hroute, hbuilt⟩
    · exact timeoutsAccepted_proxy hlib hschema hproxy
    · exact timeoutsAccepted_gateway hgateway

/-- Library functions that read two durations, of one second and of minus one second. -/
def signedLib : Stdlib :=
  { Stdlib.plain with
    parseDuration := fun text =>
      if text = "1s" then .ok 1000000000
      else if text = "-1s" then .ok (-1000000000)
      else .error "invalid duration" }

/-- The Ingress `n/i` for the host `h` and the service `s`, with an annotation for the timeout
of responses. -/
def annotatedIngress (text : String) : Ingress where
  ns := "n"
  name := "i"
  annotations := (∅ : Map String String).insert "projectsesame.io/response-timeout" text
  rules := [{ host := "h", http := some [{ path := "/", backend := webBackend "s" }] }]

/-- The root `n/p` for the host `g` and the service `s`, with a timeout of one second. -/
def timedProxy : HTTPProxy where
  name := "p"
  ns := "n"
  virtualHost := some { fqdn := "g" }
  routes :=
    [{ services := [{ name := "s", port := 80 }], timeoutPolicy := some { response := "1s" } }]

/-- A cache with the Ingress, the root and the service. -/
def annotatedCache (text : String) : KubernetesCache where
  ingresses := byName (·.toObjectMeta) [annotatedIngress text]
  httpproxies := (∅ : Map NamespacedName HTTPProxy).insert ⟨"n", "p"⟩ timedProxy
  services := byName (·.toObjectMeta) [webService "n" "s"]

def annotatedDAG (text : String) : DAG :=
  match Builder.build signedLib .storage {} (annotatedCache text) with
  | .ok dag => dag
  | .error _ => {}

/-- The negative annotation of the Ingress reaches the configuration that the Ingress shares
with the root. -/
theorem negative_annotation_passed_on :
    Builder.build signedLib MapOrder.storage {} (annotatedCache "-1s") = .ok (annotatedDAG "-1s") ∧
      ∃ evh ∈ RouteCache.hostsOf
          (RouteCache.onChange signedLib MapOrder.storage (annotatedDAG "-1s")) envoyHTTPListener,
        ∃ er ∈ evh.routes, ¬ er.TimeoutsAccepted := by
  refine ⟨rfl, ?_⟩
  have hnegative : ∃ evh ∈ RouteCache.hostsOf
      (RouteCache.onChange signedLib MapOrder.storage (annotatedDAG "-1s")) envoyHTTPListener,
      ∃ er ∈ evh.routes, (match er.action with
        | .route action => decide (action.timeout = some (-1000000000))
        | _ => false) = true := by
    decide +kernel
  obtain ⟨evh, hevh, er, her, htimeout⟩ := hnegative
  refine ⟨evh, hevh, er, her, fun haccepted => ?_⟩
  cases haction : er.action with
  | route action =>
    rw [haction] at htimeout
    have hresponse := (haccepted action haction).response
    rw [of_decide_eq_true htimeout] at hresponse
    exact absurd (hresponse _ rfl) (by decide)
  | redirect action =>
    rw [haction] at htimeout
    cases htimeout
  | directResponse status =>
    rw [haction] at htimeout
    cases htimeout

theorem signedLib_negativeBySign : signedLib.NegativeBySign := by
  rintro text ⟨d, hd, hneg⟩
  simp only [signedLib] at hd
  split at hd
  · cases hd
    exact absurd hneg (by decide)
  · split at hd
    · next hminus =>
      rw [hminus]
      rfl
    · cases hd

theorem annotatedCache_durationsConform (text : String) :
    (annotatedCache text).DurationsConform := by
  intro name proxy hname spec hspec
  have hproxy : proxy = timedProxy := by
    rw [annotatedCache, Map.lookup_insert_eq] at hname
    split at hname
    · exact (Option.some.inj hname).symm
    · cases hname
  subst hproxy
  obtain rfl := mem_singleton.mp hspec
  constructor
  · intro tp htp
    obtain rfl := Option.some.inj htp
    have hamount : IsAmount ['1', 's'] :=
      ⟨['1'], [], "s", forall_mem_singleton.mpr rfl, .inl rfl, by decide, by decide⟩
    exact ⟨.inr (.inr (.inr ⟨[['1', 's']], cons_ne_nil _ _, by simpa using hamount, by decide⟩)),
      .inl rfl⟩
  · intro rp hrp
    cases hrp

/-- With an annotation of one second Envoy accepts every route. -/
theorem positive_annotation_accepted :
    Builder.build signedLib .storage {} (annotatedCache "1s") = .ok (annotatedDAG "1s") ∧
      ∀ config, ∀ evh ∈ RouteCache.hostsOf
        (RouteCache.onChange signedLib .storage (annotatedDAG "1s")) config,
        ∀ er ∈ evh.routes, er.TimeoutsAccepted := by
  have hbuild : Builder.build signedLib .storage {} (annotatedCache "1s") =
      .ok (annotatedDAG "1s") := rfl
  refine ⟨hbuild, fun config evh hevh er her => ?_⟩
  rw [(timeouts_accepted_iff signedLib_negativeBySign (annotatedCache_durationsConform "1s") hbuild
    config evh hevh er her).1]
  rintro ing ⟨⟨name, hname⟩, -⟩
  have hing : ∀ name ing, (annotatedCache "1s").ingresses.lookup name = some ing →
      ing = annotatedIngress "1s" := Map.forall_lookup_insert rfl nofun
  obtain rfl := hing name ing hname
  rintro (hresponse | ⟨hretry, -⟩)
  · exact absurd (signedLib_negativeBySign _ hresponse) (by decide)
  · exact hretry (by decide)

end XdsCache

end Sesame
