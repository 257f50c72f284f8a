/-
# What the processors put into hosts

A host carries the name that it is stored under and routes. A secure host may also carry
certificates, a validation of clients, a TCP proxy and an authorization. `Contents` says
what hosts may carry, and `DAG.Within` that no host of a DAG carries anything else.

Every processor keeps `Within` for all contents that have what it adds itself, so a
property of the parts that the processors add is a property of all hosts.
-/

import Sesame.Dag.RootLog
import Sesame.Dag.RouteRuns
import Sesame.Dag.SecureSetUp

namespace Sesame.Dag

open List
open Lib Api

/-! ## Contents -/

/-- What the hosts of a DAG may carry. -/
structure Contents where
  /-- The name of a host that is stored under a name. -/
  name : String → String → Prop := fun _ _ => True
  /-- The routes of the hosts of a name. -/
  route : String → Route → Prop := fun _ _ => True
  certificate : Secret → Prop := fun _ => True
  fallback : Secret → Prop := fun _ => True
  clients : PeerValidationContext → Prop := fun _ => True
  tcpCluster : Cluster → Prop := fun _ => True
  authorization : ExtensionCluster → Prop := fun _ => True

/-- A host that is stored under a name carries what it may. -/
structure VirtualHost.Within (c : Contents) (host : String) (v : VirtualHost) : Prop where
  name : c.name host v.name
  routes : ∀ key r, v.routes.lookup key = some r → c.route host r

/-- A secure host that is stored under a name carries what it may. -/
structure SecureVirtualHost.Within (c : Contents) (host : String) (s : SecureVirtualHost) :
    Prop where
  plain : s.toVirtualHost.Within c host
  certificate : ∀ sec, s.secret = some sec → c.certificate sec
  fallback : ∀ sec, s.fallbackCertificate = some sec → c.fallback sec
  clients : ∀ dv, s.downstreamValidation = some dv → c.clients dv
  tcpProxy : ∀ clusters, s.tcpProxy = some clusters → ∀ cluster ∈ clusters, c.tcpCluster cluster
  authorization : ∀ ext, s.authorizationService = some ext → c.authorization ext

/-- All hosts carry what they may. -/
structure DAG.Within (c : Contents) (d : DAG) : Prop where
  hosts : ∀ host v, d.virtualHosts.lookup host = some v → v.Within c host
  secureHosts : ∀ host s, d.secureVirtualHosts.lookup host = some s → s.Within c host

/-- A route of the plaintext or of the secure host of a name. -/
def DAG.HasRoute (dag : DAG) (host : String) (r : Route) : Prop :=
  (∃ v key, dag.virtualHosts.lookup host = some v ∧ v.routes.lookup key = some r) ∨
    ∃ s key, dag.secureVirtualHosts.lookup host = some s ∧ s.routes.lookup key = some r

variable {c : Contents} {host : String} {r : Route} {S : String → Route → Prop} {v : VirtualHost}
  {dag : DAG} {source : KubernetesCache}

/-! ### Writes -/

theorem VirtualHost.Within.insert (hv : v.Within c host) (hr : c.route host r) (key : String) :
    VirtualHost.Within c host { v with routes := v.routes.insert key r } where
  name := hv.name
  routes := Map.forall_lookup_insert hr hv.routes

theorem VirtualHost.Within.policies (hv : v.Within c host) (cp : Option CORSPolicy)
    (rlp : Option RateLimitPolicy) :
    VirtualHost.Within c host { v with corsPolicy := cp, rateLimitPolicy := rlp } :=
  ⟨hv.name, hv.routes⟩

theorem VirtualHost.Within.addRoutes (hv : v.Within c host) {routes : List Route}
    (hroutes : ∀ r ∈ routes, c.route host r) :
    (HTTPProxyProcessor.addRoutes v routes).Within c host :=
  foldlRecOn routes _ hv fun _ hv r hr => hv.insert (hroutes r hr) _

namespace DAG.Within

variable {d : DAG}

/-- All routes of the hosts are among those that they may have. -/
theorem of_hasRoute (h : ∀ host r, d.HasRoute host r → S host r) : d.Within { route := S } where
  hosts host v hv := ⟨trivial, fun key r hr => h host r (.inl ⟨v, key, hv, hr⟩)⟩
  secureHosts host s hs :=
    ⟨⟨trivial, fun key r hr => h host r (.inr ⟨s, key, hs, hr⟩)⟩, fun _ _ => trivial,
      fun _ _ => trivial, fun _ _ => trivial, fun _ _ _ _ => trivial, fun _ _ => trivial⟩

variable (h : d.Within c)

include h

theorem hasRoute (hr : d.HasRoute host r) : c.route host r := by
  rcases hr with ⟨v, key, hv, hr⟩ | ⟨s, key, hs, hr⟩
  · exact (h.hosts host v hv).routes key r hr
  · exact (h.secureHosts host s hs).plain.routes key r hr

theorem sameHosts {d' : DAG} (same : d.SameHosts d') : d'.Within c := by
  obtain ⟨statusCache, rfl⟩ := same
  exact ⟨h.hosts, h.secureHosts⟩

theorem ensureVirtualHost (hname : c.name host host) :
    (d.ensureVirtualHost host).Within c host := by
  rw [DAG.ensureVirtualHost, DAG.getVirtualHost]
  cases hv : d.virtualHosts.lookup host with
  | none => exact ⟨hname, fun key r hr => by cases hr⟩
  | some v => exact h.hosts host v hv

theorem ensureSecureVirtualHost (hname : c.name host host) :
    (d.ensureSecureVirtualHost host).Within c host := by
  rw [DAG.ensureSecureVirtualHost, DAG.getSecureVirtualHost]
  cases hs : d.secureVirtualHosts.lookup host with
  | none =>
    refine ⟨⟨hname, fun key r hr => by cases hr⟩, ?_, ?_, ?_, ?_, ?_⟩
    all_goals
      intro _ hnone
      cases hnone
  | some s => exact h.secureHosts host s hs

theorem putVirtualHost (hv : v.Within c host) : (d.putVirtualHost host v).Within c where
  hosts := Map.forall_lookup_insert hv h.hosts
  secureHosts := h.secureHosts

theorem putSecureVirtualHost {s : SecureVirtualHost} (hs : s.Within c host) :
    (d.putSecureVirtualHost host s).Within c where
  hosts := h.hosts
  secureHosts := Map.forall_lookup_insert hs h.secureHosts

end DAG.Within

/-! ## What the processors add -/

variable (lib : Stdlib) (ord : MapOrder)

namespace IngressProcessor

variable (p : IngressProcessor) (source : KubernetesCache)

/-- The routes that a run puts into the host of a name. -/
def Puts (host : String) (r : Route) : Prop :=
  ∃ name ing rules rule, source.ingresses.lookup name = some ing ∧
    rulesFromSpec ing = .ok rules ∧ rule ∈ rules ∧ host = stringOrDefault rule.host "*" ∧
    IsRouteOf lib ord p source ing rule r

/-- The contents have what a run adds. -/
structure Adds (c : Contents) : Prop where
  name : ∀ host, c.name host host
  certificate : ∀ name ing, source.ingresses.lookup name = some ing → ∀ tls ∈ ing.tls,
    ∀ sec, IsCertificateOf lib ord source ing tls sec → c.certificate sec
  route : ∀ name ing, source.ingresses.lookup name = some ing →
    ∀ w ∈ routesOf lib ord p source ing, c.route w.host w.route

variable {lib ord p source}

theorem puts_of_mem_routesOf {name : NamespacedName} {ing : Ingress}
    (hing : source.ingresses.lookup name = some ing) {w : RouteWrite}
    (hw : w ∈ routesOf lib ord p source ing) : Puts lib ord p source w.host w.route := by
  obtain ⟨rules, rule, hrules, hrule, hfor⟩ := routesOf_isFor hw
  exact ⟨name, ing, rules, rule, hing, hrules, hrule, hfor.host, hfor.route⟩

theorem adds_routes (h : ∀ host r, Puts lib ord p source host r → S host r) :
    Adds lib ord p source { route := S } :=
  ⟨fun _ => trivial, fun _ _ _ _ _ _ _ => trivial,
    fun _ _ hing _ hw => h _ _ (puts_of_mem_routesOf hing hw)⟩

theorem run_within (hadds : Adds lib ord p source c) {dag' : DAG} (hdag : dag.Within c)
    (hrun : run lib ord p source dag = .ok dag') : dag'.Within c := by
  refine run_inv ?_ ?_ hdag hrun
  · intro name ing hing w hw d hd
    obtain ⟨tls, htls, hcert, -⟩ := mem_certificateWrites hw
    refine hd.putSecureVirtualHost { hd.ensureSecureVirtualHost (hadds.name w.host) with
      certificate := fun sec hsec => ?_ }
    cases hsec
    exact hadds.certificate name ing hing tls htls w.secret hcert
  · intro name ing hing w hw d hd
    have hroute := hadds.route name ing hing w hw
    refine RouteWrite.apply_inv (fun d hd => ?_) (fun d svh hsvh hd => ?_) hd
    · exact hd.putVirtualHost ((hd.ensureVirtualHost (hadds.name w.host)).insert hroute _)
    · have hsvh' := hd.secureHosts _ svh hsvh
      exact hd.putSecureVirtualHost { hsvh' with plain := hsvh'.plain.insert hroute _ }

end IngressProcessor

theorem ExtensionServiceProcessor.run_within {lib : Stdlib} {ord : MapOrder}
    {p : ExtensionServiceProcessor} (hdag : dag.Within c) :
    (run lib ord p source dag).Within c := by
  obtain ⟨-, hplain, hsecure⟩ := @run_hosts lib ord p source dag
  refine ⟨?_, ?_⟩
  · rw [hplain]
    exact hdag.hosts
  · rw [hsecure]
    exact hdag.secureHosts

namespace HTTPProxyProcessor

variable (p : HTTPProxyProcessor) (source : KubernetesCache) (extensions : List ExtensionCluster)

/-- The checks that a root makes before it puts its routes into its hosts succeed: those of
its TLS part and of its TCP proxy, and those of the policies of its virtual host. -/
structure PassesChecks (lib : Stdlib) (ord : MapOrder) (p : HTTPProxyProcessor)
    (source : KubernetesCache) (extensions : List ExtensionCluster) (proxy : HTTPProxy)
    (vhost : VirtualHostSpec) : Prop where
  secured : ∃ s, beforeRoutes lib ord p source extensions proxy vhost = .ok s
  cors : ∃ cp, toCORSPolicy lib vhost.corsPolicy = .ok cp
  limits : ∃ rlp, rateLimitPolicy lib ord vhost.rateLimitPolicy = .ok rlp

/-- The routes that a run puts into the host of a name, if it starts with these extension
clusters. -/
def Puts (host : String) (r : Route) : Prop :=
  ∃ proxy vhost, IsComputedRoot source proxy vhost ∧ host = vhost.fqdn ∧
    PassesChecks lib ord p source extensions proxy vhost ∧
    r ∈ routesOf lib ord p source proxy vhost

/-- The validation of clients that a root attaches: it has a certificate, and no fallback
certificate is asked for. -/
def Validates (dv : PeerValidationContext) : Prop :=
  ∃ proxy vhost tls sec cv, IsComputedRoot source proxy vhost ∧ vhost.tls = some tls ∧
    IsCertificateOf lib ord source proxy tls sec ∧ tls.enableFallbackCertificate = false ∧
    tls.clientValidation = some cv ∧ HasClientCA lib source proxy cv dv

/-- The contents have what a run adds that starts with these extension clusters. -/
structure Adds (c : Contents) : Prop where
  name : ∀ host, c.name host host
  certificate : ∀ proxy tls sec, IsCertificateOf lib ord source proxy tls sec → c.certificate sec
  fallback : ∀ ns name sec, source.lookupSecret name (validSecret lib) ns = .ok sec →
    source.delegationPermitted ord name ns = true → c.fallback sec
  clients : ∀ dv, Validates lib ord source dv → c.clients dv
  authorization : ∀ ext ∈ extensions, c.authorization ext
  tcpCluster : ∀ name proxy, source.httpproxies.lookup name = some proxy →
    ∀ clusters, IsTCPProxyOf lib p source proxy clusters → ∀ cluster ∈ clusters,
      c.tcpCluster cluster
  route : ∀ host r, Puts lib ord p source extensions host r → c.route host r

variable {lib ord p source extensions}

theorem adds_routes (h : ∀ host r, Puts lib ord p source extensions host r → S host r) :
    Adds lib ord p source extensions { route := S } :=
  ⟨fun _ => trivial, fun _ _ _ _ => trivial, fun _ _ _ _ _ => trivial, fun _ _ => trivial,
    fun _ _ => trivial, fun _ _ _ _ _ _ _ => trivial, h⟩

variable {proxy : HTTPProxy} {vhost : VirtualHostSpec}

/-- The routes of the host of a root are its own. -/
theorem Puts.mem_routesOf {name : NamespacedName}
    (h : Puts lib ord p source extensions vhost.fqdn r)
    (hcached : source.httpproxies.lookup name = some proxy)
    (hvhost : proxy.virtualHost = some vhost) : r ∈ routesOf lib ord p source proxy vhost := by
  obtain ⟨proxy', vhost', hroot, hfqdn, -, hr⟩ := h
  obtain ⟨name', hname'⟩ := hroot.cached
  obtain rfl : name' = name := hroot.sole name' name proxy' proxy hname' hcached
    ⟨vhost', hroot.root, rfl⟩ ⟨vhost, hvhost, congrArg lowerName hfqdn⟩
  obtain rfl : proxy' = proxy := Option.some.inj (hname'.symm.trans hcached)
  obtain rfl : vhost' = vhost := Option.some.inj (hroot.root.symm.trans hvhost)
  exact hr

theorem passesChecks_of_computeRoot {st : State} (hext : st.dag.extensionClusters = extensions)
    {s : ProxyState} (h : computeRoot lib ord p source proxy vhost (startOf st proxy) = .ok s) :
    PassesChecks lib ord p source extensions proxy vhost := by
  have hlogged : Logged _ _ (computeRoot lib ord p source proxy vhost (startOf st proxy)) _ _ :=
    computeRoot_logged keptByRecording_any trivial hext
  have hagree := hlogged.agree
  rw [h, computeRoot_blankStart] at hagree
  cases hbefore : beforeRoutes lib ord p source extensions proxy vhost with
  | error s₁ =>
    rw [hbefore] at hagree
    exact hagree.elim
  | ok s₁ =>
    rw [hbefore, ok_bind] at hagree
    have houtcome : RoutesOutcome _ _ _ _ _ _ (attachRoutes lib ord p source proxy vhost s₁) :=
      attachRoutes_outcome proxy vhost s₁
    cases hroutes : attachRoutes lib ord p source proxy vhost s₁ with
    | error s₂ =>
      rw [hroutes] at hagree
      exact hagree.elim
    | ok s₂ =>
      rw [hroutes] at houtcome
      cases houtcome with
      | plaintext cors limits _ _ => exact ⟨⟨s₁, hbefore⟩, ⟨_, cors⟩, ⟨_, limits⟩⟩
      | both cors limits _ _ => exact ⟨⟨s₁, hbefore⟩, ⟨_, cors⟩, ⟨_, limits⟩⟩

theorem closedUnderSetUp_within (hadds : Adds lib ord p source extensions c)
    (hroot : IsComputedRoot source proxy vhost) :
    ClosedUnderSetUp lib ord p source proxy vhost
      fun d => d.extensionClusters = extensions ∧ d.Within c where
  same d d' same h := ⟨(same.frame fun _ => False).extensionClusters.trans h.1, h.2.sameHosts same⟩
  tls d tls sec vc htls hcert h := by
    refine ⟨h.1, h.2.putSecureVirtualHost (setUpSecureHost_inv ?_ ?_ ?_ ?_)⟩
    · refine { h.2.ensureSecureVirtualHost (hadds.name vhost.fqdn) with
        certificate := fun sec' hsec' => ?_ }
      cases hsec'
      exact hadds.certificate proxy tls sec hcert
    · intro s name sec hfound hpermitted hs
      refine { hs with fallback := fun sec' hsec' => ?_ }
      cases hsec'
      exact hadds.fallback _ name sec hfound hpermitted
    · intro s cv dv hfallback hcv hca hs
      refine { hs with clients := fun dv' hdv' => ?_ }
      cases hdv'
      exact hadds.clients dv ⟨proxy, vhost, tls, sec, cv, hroot, htls, hcert, hfallback, hcv, hca⟩
    · intro s ext failOpen timeout body hext hs
      refine { hs with authorization := fun ext' hext' => ?_ }
      cases hext'
      exact hadds.authorization ext (h.1 ▸ hext)
  tcp d clusters hclusters h := by
    obtain ⟨name, hname⟩ := hroot.cached
    refine ⟨h.1, h.2.putSecureVirtualHost
      { h.2.ensureSecureVirtualHost (hadds.name vhost.fqdn) with
        tcpProxy := fun clusters' hclusters' => ?_ }⟩
    cases hclusters'
    exact hadds.tcpCluster name proxy hname clusters hclusters

theorem computeRoot_within (hadds : Adds lib ord p source extensions c)
    (hroot : IsComputedRoot source proxy vhost) {st : State}
    (hst : st.dag.extensionClusters = extensions ∧ st.dag.Within c) :
    (computeRoot lib ord p source proxy vhost
      (startOf st proxy)).final.state.dag.extensionClusters = extensions ∧
      DAG.Within c
        (computeRoot lib ord p source proxy vhost (startOf st proxy)).final.state.dag := by
  have hsetUp := closedUnderSetUp_within hadds hroot
  have hputs : ∀ s, computeRoot lib ord p source proxy vhost (startOf st proxy) = .ok s →
      ∀ r ∈ routesOf lib ord p source proxy vhost, c.route vhost.fqdn r :=
    fun s hs r hr => hadds.route _ r
      ⟨proxy, vhost, hroot, rfl, passesChecks_of_computeRoot hst.1 hs, hr⟩
  rw [computeRoot, checkRoot_of_accepted hroot.accepted, ok_bind] at hputs ⊢
  have htls := hsetUp.after_tls (startOf st proxy) hst
  cases hs₁ : attachTLS lib ord p source proxy vhost (startOf st proxy) with
  | error s₁ => rwa [hs₁] at htls
  | ok s₁ =>
    rw [hs₁] at htls hputs
    rw [ok_bind] at hputs ⊢
    have htcp := hsetUp.after_tcpProxy s₁ htls
    cases hs₂ : attachTCPProxy lib p source proxy vhost s₁ with
    | error s₂ => rwa [hs₂] at htcp
    | ok s₂ =>
      rw [hs₂] at htcp hputs
      rw [ok_bind] at hputs ⊢
      have hext : s₂.state.dag.extensionClusters = extensions := htcp.1
      have hs : s₂.state.dag.Within c := htcp.2
      have hroutes : rootRoutes lib ord p source proxy vhost s₂ =
          routesOf lib ord p source proxy vhost := computeRoutes_routes_eq ..
      have houtcome : RoutesOutcome _ _ _ _ _ _ (attachRoutes lib ord p source proxy vhost s₂) :=
        attachRoutes_outcome proxy vhost s₂
      rw [hroutes] at houtcome
      generalize attachRoutes lib ord p source proxy vhost s₂ = result at houtcome hputs ⊢
      have hname := hadds.name vhost.fqdn
      have hplain := (hs.ensureVirtualHost hname).policies
      cases houtcome with
      | noCORS _ same => exact hsetUp.same _ _ same ⟨hext, hs.putVirtualHost (hplain _ _)⟩
      | noLimits _ _ same => exact hsetUp.same _ _ same ⟨hext, hs.putVirtualHost (hplain _ _)⟩
      | plaintext _ _ _ same =>
        exact hsetUp.same _ _ same ⟨hext, hs.putVirtualHost ((hplain _ _).addRoutes (hputs _ rfl))⟩
      | both _ _ _ same =>
        have hsecure := hs.ensureSecureVirtualHost hname
        refine hsetUp.same _ _ same ⟨hext, (hs.putVirtualHost
          ((hplain _ _).addRoutes (hputs _ rfl))).putSecureVirtualHost ?_⟩
        rw [securedHost, addSecureRoutes_eq]
        exact { hsecure with
          plain := (hsecure.plain.policies _ _).addRoutes (hputs _ rfl) }

theorem run_within (hadds : Adds lib ord p source dag.extensionClusters c) (hdag : dag.Within c) :
    (run lib ord p source dag).Within c := by
  have hrun : (run lib ord p source dag).extensionClusters = dag.extensionClusters ∧
      (run lib ord p source dag).Within c :=
    run_inv_of_roots (I := fun d => d.extensionClusters = dag.extensionClusters ∧ d.Within c)
      (fun d d' same h => ⟨(same.frame fun _ => False).extensionClusters.trans h.1,
        h.2.sameHosts same⟩)
      (fun _ _ hroot _ hst => computeRoot_within hadds hroot hst) ⟨rfl, hdag⟩
  exact hrun.2

end HTTPProxyProcessor

namespace GatewayAPIProcessor

variable (p : GatewayAPIProcessor) (source : KubernetesCache)

/-- A route of a rule of an HTTPRoute, narrowed to hosts. -/
def IsRouteOf (r : Route) : Prop :=
  ∃ name route rule u, source.httproutes.lookup name = some route ∧ rule ∈ route.rules ∧
    ∃ r₀ ∈ (ruleRoutes lib ord p source route.ns rule u).1, ∃ hosts : List String,
      r = hosts.foldl (fun r host => narrowToHost host r) r₀

/-- The routes that a run puts into the host of a name. -/
def Puts (host : String) (r : Route) : Prop :=
  UsesHost lib source host ∧ IsRouteOf lib ord p source r

/-- The contents have what a run adds. The certificates are those of listeners. -/
structure Adds (c : Contents) : Prop where
  name : ∀ host, c.name host host
  certificate : ∀ sec, c.certificate sec
  tcpCluster : ∀ name route, source.tlsroutes.lookup name = some route →
    TLSClustersIn lib ord p source c.tcpCluster route
  route : ∀ host r, Puts lib ord p source host r → c.route host r

variable {lib ord p source}

theorem closedUnderRoutes_within (hadds : Adds lib ord p source c)
    (listenerSecret : Option Secret) :
    ClosedUnderRoutes listenerSecret (UsesHost lib source) (IsRouteOf lib ord p source) c.tcpCluster
      (DAG.Within c) where
  commitRoute _ _ h := ⟨h.hosts, h.secureHosts⟩
  commitGateway _ _ h := ⟨h.hosts, h.secureHosts⟩
  narrow host r hr := by
    obtain ⟨name, route, rule, u, hname, hrule, r₀, hr₀, hosts, rfl⟩ := hr
    refine ⟨name, route, rule, u, hname, hrule, r₀, hr₀, hosts ++ [host], ?_⟩
    rw [foldl_append, foldl_cons, foldl_nil]
  entry d host entry hhost hentry h := by
    have hroute := hadds.route host entry.2 ⟨hhost, hentry⟩
    cases listenerSecret with
    | none => exact h.putVirtualHost ((h.ensureVirtualHost (hadds.name host)).insert hroute _)
    | some sec =>
      have hsvh := h.ensureSecureVirtualHost (hadds.name host)
      exact h.putSecureVirtualHost { hsvh with
        plain := hsvh.plain.insert hroute entry.1, certificate := fun _ _ => hadds.certificate _ }
  tcpProxy d clusters host _ hclusters h := by
    refine h.putSecureVirtualHost { h.ensureSecureVirtualHost (hadds.name host) with
      certificate := fun _ _ => hadds.certificate _, tcpProxy := fun clusters' hclusters' => ?_ }
    cases hclusters'
    exact hclusters

theorem run_within (hadds : Adds lib ord p source c) (hdag : dag.Within c) :
    (run lib ord p source dag).Within c :=
  run_inv_of_routes (closedUnderRoutes_within hadds)
    (fun name route hname rule hrule u r hr => ⟨name, route, rule, u, hname, hrule, r, hr, [], rfl⟩)
    hadds.tcpCluster hdag

end GatewayAPIProcessor

/-! ## Built DAGs -/

namespace Builder

variable {lib ord} {dbc : DagBuilderConfig} {source : KubernetesCache} {dag root : DAG}

theorem beforeGateway_within (hbefore : beforeGateway lib ord dbc source = .ok dag)
    (hingress : IngressProcessor.Adds lib ord dbc.ingressProcessor source c)
    (hproxy :
      HTTPProxyProcessor.Adds lib ord dbc.httpProxyProcessor source dag.extensionClusters c) :
    dag.Within c := by
  obtain ⟨d, hrun, rfl⟩ := beforeGateway_eq hbefore
  rw [HTTPProxyProcessor.run_extensionClusters] at hproxy
  apply HTTPProxyProcessor.run_within hproxy
  apply ExtensionServiceProcessor.run_within
  refine IngressProcessor.run_within hingress ⟨?_, ?_⟩ hrun
  · intro _ _ h
    cases h
  · intro _ _ h
    cases h

/-- The extension clusters before the Gateway processor are those of the ExtensionServices. -/
theorem beforeGateway_extensions (hbefore : beforeGateway lib ord dbc source = .ok dag) :
    ∀ e ∈ dag.extensionClusters, ∃ name ext, source.extensions.lookup name = some ext ∧
      ExtensionServiceProcessor.Adds lib ord dbc.extensionServiceProcessor source ext e := by
  obtain ⟨d, hrun, rfl⟩ := beforeGateway_eq hbefore
  rw [HTTPProxyProcessor.run_extensionClusters]
  exact ExtensionServiceProcessor.run_extensionClusters
    (IngressProcessor.run_frame hrun).extensionClusters

/-- The processors after the first three add hosts and listeners only. -/
theorem exists_beforeGateway (hbuild : build lib ord dbc source = .ok root) :
    ∃ d, beforeGateway lib ord dbc source = .ok d ∧
      root.extensionClusters = d.extensionClusters ∧
      (GatewayAPIProcessor.Adds lib ord dbc.gatewayAPIProcessor source c → d.Within c →
        root.Within c) := by
  obtain ⟨dag, hhosts, -, rfl⟩ := build_eq hbuild
  obtain ⟨d, hbefore, rfl⟩ := map_eq_ok.mp hhosts
  refine ⟨d, hbefore, ?_⟩
  rw [ListenerProcessor.run_eq]
  split
  · exact ⟨(GatewayAPIProcessor.run_frame d).extensionClusters, fun hadds hd =>
      have hrun := GatewayAPIProcessor.run_within hadds hd
      ⟨hrun.hosts, hrun.secureHosts⟩⟩
  · exact ⟨rfl, fun _ hd => ⟨hd.hosts, hd.secureHosts⟩⟩

theorem build_extensions (hbuild : build lib ord dbc source = .ok root) :
    ∀ e ∈ root.extensionClusters, ∃ name ext, source.extensions.lookup name = some ext ∧
      ExtensionServiceProcessor.Adds lib ord dbc.extensionServiceProcessor source ext e := by
  obtain ⟨d, hbefore, hextensions, -⟩ := exists_beforeGateway (c := {}) hbuild
  rw [hextensions]
  exact beforeGateway_extensions hbefore

/-- The hosts of a built DAG carry what the processors add and nothing else. -/
theorem build_within (hbuild : build lib ord dbc source = .ok root)
    (hingress : IngressProcessor.Adds lib ord dbc.ingressProcessor source c)
    (hproxy :
      HTTPProxyProcessor.Adds lib ord dbc.httpProxyProcessor source root.extensionClusters c)
    (hgateway : GatewayAPIProcessor.Adds lib ord dbc.gatewayAPIProcessor source c) :
    root.Within c := by
  obtain ⟨d, hbefore, hextensions, hrest⟩ := exists_beforeGateway hbuild
  rw [hextensions] at hproxy
  exact hrest hgateway (beforeGateway_within hbefore hingress hproxy)

variable (lib ord) in
/-- The routes that the processors put into the host of a name. -/
def Puts (dbc : DagBuilderConfig) (source : KubernetesCache) (host : String) (r : Route) : Prop :=
  IngressProcessor.Puts lib ord dbc.ingressProcessor source host r ∨
    (∃ extensions,
      HTTPProxyProcessor.Puts lib ord dbc.httpProxyProcessor source extensions host r) ∨
    GatewayAPIProcessor.Puts lib ord dbc.gatewayAPIProcessor source host r

/-- A built DAG has no other routes. -/
theorem puts_of_hasRoute (hbuild : build lib ord dbc source = .ok root)
    (hr : root.HasRoute host r) : Puts lib ord dbc source host r := by
  refine DAG.Within.hasRoute (c := { route := Puts lib ord dbc source }) ?_ hr
  apply build_within hbuild
  · exact IngressProcessor.adds_routes fun _ _ h => .inl h
  · exact HTTPProxyProcessor.adds_routes fun _ _ h => .inr (.inl ⟨_, h⟩)
  · exact ⟨fun _ => trivial, fun _ => trivial, fun _ _ _ _ _ _ _ _ => trivial,
      fun _ _ h => .inr (.inr h)⟩

end Builder

/-- Every host is stored under its own name. -/
structure DAG.HostsNamed (d : DAG) : Prop where
  hosts : ∀ host v, d.virtualHosts.lookup host = some v → v.name = host
  secureHosts : ∀ host s, d.secureVirtualHosts.lookup host = some s → s.name = host

/-- In a built DAG every host is stored under its own name. -/
theorem Builder.build_hostsNamed {lib : Stdlib} {ord : MapOrder} {dbc : DagBuilderConfig}
    {root : DAG} (hbuild : Builder.build lib ord dbc source = .ok root) : root.HostsNamed := by
  have hwithin : root.Within { name := fun host name => name = host } := by
    apply build_within hbuild
    · exact ⟨fun _ => rfl, fun _ _ _ _ _ _ _ => trivial, fun _ _ _ _ _ => trivial⟩
    · exact ⟨fun _ => rfl, fun _ _ _ _ => trivial, fun _ _ _ _ _ => trivial, fun _ _ => trivial,
        fun _ _ => trivial, fun _ _ _ _ _ _ _ => trivial, fun _ _ _ => trivial⟩
    · exact ⟨fun _ => rfl, fun _ => trivial, fun _ _ _ _ _ _ _ _ => trivial, fun _ _ _ => trivial⟩
  exact ⟨fun host v hv => (hwithin.hosts host v hv).name,
    fun host s hs => (hwithin.secureHosts host s hs).plain.name⟩

end Sesame.Dag
