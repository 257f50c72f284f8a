/-
# Listeners for TLS

A listener for HTTPS or TLS is meant to serve its routes with its certificate. But
whether the routes of a listener go to the secure hosts is decided by the secret
alone, and a listener for TLS that passes connections through, or whose mode is not
set, has none. If such a listener accepts HTTPRoutes, they go to the plaintext hosts.
-/

import Sesame.Dag.ListenerRoutes

namespace Sesame.Dag

open List
open Lib Api

theorem DAG.ensureSecureVirtualHost_putSecureVirtualHost (d : DAG) (host other : String)
    (svh : SecureVirtualHost) :
    (d.putSecureVirtualHost host svh).ensureSecureVirtualHost other =
      if other = host then svh else d.ensureSecureVirtualHost other := by
  rw [DAG.ensureSecureVirtualHost, DAG.getSecureVirtualHost, DAG.putSecureVirtualHost,
    Map.lookup_insert_eq]
  by_cases hhost : other = host
  · rw [if_pos hhost, if_pos hhost, Option.getD_some]
  · rw [if_neg hhost, if_neg hhost]
    rfl

namespace GatewayAPIProcessor

variable (lib : Stdlib) (ord : MapOrder) (p : GatewayAPIProcessor) (source : KubernetesCache)
  (gateway : Gateway) (listener : GatewayListener)

/-! ## What is served with a certificate -/

/-- The certificate of a listener: the secret that its TLS settings refer to, if the
reference is valid. -/
def listenerCertificate : Option Secret :=
  listener.tls.bind fun tls =>
    (validGatewayTLS lib ord source gateway tls listener.name (blankStatus gateway)).1

/-- From `dag` to `dag'` the plaintext hosts are left alone, and every secure host that
was given routes has the certificate. -/
structure ServedSecurely (certificate : Option Secret) (dag dag' : DAG) : Prop where
  plaintext : dag'.virtualHosts = dag.virtualHosts
  secure : ∀ host,
    (dag'.ensureSecureVirtualHost host).routes = (dag.ensureSecureVirtualHost host).routes ∨
      ∃ sec, certificate = some sec ∧ (dag'.ensureSecureVirtualHost host).secret = some sec

namespace ServedSecurely

variable {certificate : Option Secret} {dag d d' : DAG} {listenerSecret : Option Secret}

theorem refl (certificate : Option Secret) (dag : DAG) : ServedSecurely certificate dag dag :=
  ⟨rfl, fun _ => .inl rfl⟩

theorem sameHosts (h : ServedSecurely certificate dag d) (hsame : d.SameHosts d') :
    ServedSecurely certificate dag d' := by
  obtain ⟨statusCache, rfl⟩ := hsame
  exact ⟨h.plaintext, h.secure⟩

theorem storeEntry {sec : Secret} (h : ServedSecurely (some sec) dag d) (host : String)
    (entry : String × Route) :
    ServedSecurely (some sec) dag (storeEntry (some sec) host d entry) where
  plaintext := h.plaintext
  secure other := by
    rw [GatewayAPIProcessor.storeEntry, DAG.ensureSecureVirtualHost_putSecureVirtualHost]
    by_cases hhost : other = host
    · rw [if_pos hhost]
      exact .inr ⟨sec, rfl, rfl⟩
    · rw [if_neg hhost]
      exact h.secure other

theorem storeTCPProxy (hsecret : listenerSecret = none ∨ listenerSecret = certificate)
    (h : ServedSecurely certificate dag d) (clusters : List Cluster) (host : String) :
    ServedSecurely certificate dag (storeTCPProxy listenerSecret clusters d host) where
  plaintext := h.plaintext
  secure other := by
    rw [GatewayAPIProcessor.storeTCPProxy, DAG.ensureSecureVirtualHost_putSecureVirtualHost]
    by_cases hhost : other = host
    · rw [if_pos hhost, ← hhost]
      -- The routes of the host stay as they are, and so does the certificate they have.
      rcases h.secure other with hroutes | ⟨sec, hcertificate, hsec⟩
      · exact .inl hroutes
      · refine .inr ⟨sec, hcertificate, ?_⟩
        rcases hsecret with hnone | hown
        · rw [hnone, Option.none_or, hsec]
        · rw [hown, hcertificate, Option.some_or]
    · rw [if_neg hhost]
      exact h.secure other

/-- Routes with a certificate and all TCP proxies keep it. -/
theorem closedUnderRoutes (dag : DAG)
    (hsecret : listenerSecret = none ∨ listenerSecret = certificate) :
    ClosedUnderRoutes listenerSecret (fun _ => True) (fun _ => listenerSecret ≠ none)
      (fun _ => True) (ServedSecurely certificate dag) where
  commitRoute _ _ h := h.sameHosts ⟨_, rfl⟩
  commitGateway _ _ h := h.sameHosts ⟨_, rfl⟩
  narrow _ _ h := h
  entry d host entry _ hsome h := by
    obtain rfl := hsecret.resolve_left hsome
    obtain ⟨sec, rfl⟩ := Option.ne_none_iff_exists'.mp hsome
    exact h.storeEntry host entry
  tcpProxy d clusters host _ _ h := h.storeTCPProxy hsecret clusters host

end ServedSecurely

/-! ## Routes without a certificate -/

/-- A listener for TLS that has no certificate to present. -/
structure WithoutCertificate (listener : GatewayListener) : Prop where
  protocol : listener.protocol = .tls
  mode : ∃ tls, listener.tls = some tls ∧
    (tls.mode = none ∨ tls.mode = some .passthrough ∧ tls.certificateRefs = [])

/-- An HTTPRoute that the listener takes and that has hosts and rules with routes. -/
structure AddsEntries (route : HTTPRoute) : Prop where
  cached : ∃ name, source.httproutes.lookup name = some route
  taken : takesRoute lib source gateway listener route.parentRefs route.ns = true
  hosts : (routeHosts lib route listener.hostname).keys ≠ []
  rules : ∃ rule ∈ route.rules, ¬ YieldsNoRoute rule

/-- A listener for TLS without a certificate accepts an HTTPRoute. -/
structure ServesPlaintext (isGatewayValid : Bool) : Prop where
  withoutCertificate : WithoutCertificate listener
  accepted : "HTTPRoute" ∈ (getListenerRouteKinds lib listener (blankStatus gateway)).1
  valid : isGatewayValid = true
  route : ∃ route, AddsEntries lib source gateway listener route

variable {lib ord p source gateway listener}

/-- The secret that `computeListener` uses is the certificate, unless there is none to
present. -/
theorem listenerSecret_certificate
    (hprotocol : listener.protocol = .https ∨ listener.protocol = .tls)
    {u v : Status.GatewayStatusUpdate} {sec : Option Secret}
    (h : listenerSecret lib ord source gateway listener u = .ok (sec, v)) :
    (∃ s, sec = some s ∧ listenerCertificate lib ord source gateway listener = some s) ∨
      sec = none ∧ WithoutCertificate listener := by
  unfold listenerSecret at h
  cases htls : listener.tls with
  | none =>
    rw [htls] at h
    rcases hprotocol with hprotocol | hprotocol <;> rw [hprotocol] at h <;> cases h
  | some tls =>
    rw [htls] at h
    have hfst := validGatewayTLS_fst lib ord source gateway tls listener.name u
      (blankStatus gateway)
    obtain ⟨s, w, hvalid⟩ : ∃ s w,
      validGatewayTLS lib ord source gateway tls listener.name u = (s, w) := ⟨_, _, rfl⟩
    have hcertificate : listenerCertificate lib ord source gateway listener = s := by
      rw [listenerCertificate, htls, Option.bind_some, ← hfst, hvalid]
    rcases hprotocol with hprotocol | hprotocol
    · rw [hprotocol] at h
      dsimp only at h
      rw [hvalid] at h
      cases s with
      | none => cases h
      | some s =>
        cases h
        exact .inl ⟨s, rfl, hcertificate⟩
    · rw [hprotocol] at h
      dsimp only at h
      split at h
      · next hmode =>
        cases h
        exact .inr ⟨rfl, hprotocol, tls, htls, .inl hmode⟩
      · rw [hvalid] at h
        cases s with
        | none => cases h
        | some s =>
          cases h
          exact .inl ⟨s, rfl, hcertificate⟩
      · next hmode =>
        split at h
        · next hrefs =>
          cases h
          exact .inr ⟨rfl, hprotocol, tls, htls, .inr ⟨hmode, hrefs⟩⟩
        · cases h

/-- Without a certificate to present, `computeListener` uses no secret. -/
theorem WithoutCertificate.listenerSecret (h : WithoutCertificate listener)
    (u : Status.GatewayStatusUpdate) :
    listenerSecret lib ord source gateway listener u = .ok (none, u) := by
  obtain ⟨hprotocol, tls, htls, hmode⟩ := h
  unfold GatewayAPIProcessor.listenerSecret
  rw [hprotocol, htls]
  dsimp only
  rcases hmode with hnone | ⟨hpassthrough, hrefs⟩
  · rw [hnone]
  · rw [hpassthrough]
    exact if_pos hrefs

/-! ## What a route of a listener writes -/

section

variable {sec : Option Secret} {site : String} {dag : DAG} {validGateway : Bool}

/-- An HTTPRoute that adds no entries leaves the hosts alone. -/
theorem computeHTTPRoute_sameHosts {route : HTTPRoute}
    (hroute : Idle lib route listener.hostname validGateway ∨
      ∀ rule ∈ route.rules, YieldsNoRoute rule) :
    dag.SameHosts
      (computeHTTPRoute lib ord p source site dag route sec listener.hostname validGateway).2 := by
  by_cases hidle : Idle lib route listener.hostname validGateway
  · exact computeHTTPRoute_of_idle hidle dag
  refine DAG.SameHosts.trans ?_ (computeHTTPRoute_of_not_idle hidle dag)
  have hrules := hroute.resolve_left hidle
  refine foldlRecOn _ _ (motive := fun st : RouteState => dag.SameHosts st.dag)
    (DAG.SameHosts.refl dag) ?_
  intro st hst rule hrule
  have hnone := (ruleRoutes_fst lib ord p source route.ns rule.1 st.routeAccessor).1.mpr
    (hrules _ (fst_mem_of_mem_zipIdx hrule))
  rw [computeRule]
  dsimp only
  rw [storeRoutes_eq, hnone]
  have hwrites : ∀ hosts : List String, writes hosts [] = [] := by
    intro hosts
    simp [writes]
  rw [hwrites]
  exact hst

end

/-! ## Listeners that serve securely -/

section

variable {isGatewayValid : Bool}

/-- A listener serves its routes with its certificate, unless it accepts HTTPRoutes and
has no certificate. -/
theorem computeListener_servedSecurely
    (hprotocol : listener.protocol = .https ∨ listener.protocol = .tls)
    (h : ¬ ServesPlaintext lib source gateway listener isGatewayValid) (st : GatewayState) :
    ServedSecurely (listenerCertificate lib ord source gateway listener) st.dag
      (computeListener lib ord p source gateway isGatewayValid st listener).dag := by
  have hrefl := ServedSecurely.refl (listenerCertificate lib ord source gateway listener) st.dag
  unfold computeListener
  split
  · exact hrefl
  rename_i sec gwAccessor hsecret
  refine foldlRecOn _ _ (motive := fun acc : Attached => ServedSecurely
    (listenerCertificate lib ord source gateway listener) st.dag acc.dag) hrefl ?_
  intro acc hacc routeKind hkind
  have hownSecret : sec = none ∨ sec = listenerCertificate lib ord source gateway listener := by
    rcases listenerSecret_certificate hprotocol hsecret with ⟨s, hs, hcertificate⟩ | ⟨hnone, -⟩
    · exact .inr (hs.trans hcertificate.symm)
    · exact .inl hnone
  have hclosed := ServedSecurely.closedUnderRoutes st.dag hownSecret
  apply attachKind_inv
  · intro hhttp site d name route hname htaken hd
    rcases listenerSecret_certificate hprotocol hsecret with ⟨s, rfl, -⟩ | ⟨rfl, hwithout⟩
    · exact hclosed.computeHTTPRoute (fun _ _ => trivial) (fun _ _ _ _ _ => nofun) hd
    · -- Without a certificate, no HTTPRoute of the listener adds entries.
      refine hd.sameHosts (computeHTTPRoute_sameHosts ?_)
      by_contra hadds
      rw [not_or] at hadds
      have hidle := not_or.mp hadds.1
      refine h ⟨hwithout, ?_, Bool.ne_false_iff.mp hidle.1, route, ⟨name, hname⟩, htaken,
        hidle.2, ?_⟩
      · rw [getListenerRouteKinds_fst listener _ gwAccessor, ← hhttp]
        exact fst_mem_of_mem_zipIdx hkind
      · simpa using hadds.2
  · intro site d name route _ hd
    exact hclosed.computeTLSRoute (fun _ _ => trivial) (fun _ _ _ _ _ => trivial) hd
  · exact hacc

theorem HoldsEntry.sameHosts {host : String} {d d' : DAG} (h : HoldsEntry none host d)
    (hsame : d.SameHosts d') : HoldsEntry none host d' := by
  rw [HoldsEntry, hostRoutes_sameHosts hsame]
  exact h

theorem HoldsEntry.closedUnderRoutes (host : String) :
    ClosedUnderRoutes none (fun _ => True) (fun _ => True) (fun _ => True)
      (HoldsEntry none host) where
  commitRoute _ _ h := h.sameHosts ⟨_, rfl⟩
  commitGateway _ _ h := h.sameHosts ⟨_, rfl⟩
  narrow _ _ h := h
  entry _ other entry _ _ h := h.storeEntry other entry
  tcpProxy _ _ _ _ _ h := h

/-- An HTTPRoute that adds entries and has no secret adds them to a plaintext host. -/
theorem AddsEntries.holdsEntry {route : HTTPRoute}
    (h : AddsEntries lib source gateway listener route) :
    ∃ host, ∀ site d, HoldsEntry none host
      (computeHTTPRoute lib ord p source site d route none listener.hostname true).2 := by
  obtain ⟨host, hhost⟩ := exists_mem_of_ne_nil _ h.hosts
  obtain ⟨rule, hrule, hyields⟩ := h.rules
  refine ⟨host, fun site d => ?_⟩
  have hidle : ¬ Idle lib route listener.hostname true := by
    intro hidle
    rcases hidle with hinvalid | hkeys
    · cases hinvalid
    · exact h.hosts hkeys
  have hentry : HoldsEntry none host
      (runRules lib ord p source site route none listener.hostname d).dag :=
    holdsEntry_runRules hrule hyields hhost d
  exact hentry.sameHosts (computeHTTPRoute_of_not_idle hidle d)

/-- A listener without a certificate gives the plaintext hosts the routes that it accepts. -/
theorem ServesPlaintext.exists_entry
    (h : ServesPlaintext lib source gateway listener isGatewayValid) (st : GatewayState) :
    ∃ host, HoldsEntry none host
      (computeListener lib ord p source gateway isGatewayValid st listener).dag := by
  obtain ⟨route, hadds⟩ := h.route
  have hholds : ∃ host, ∀ site d, HoldsEntry none host
      (computeHTTPRoute lib ord p source site d route none listener.hostname true).2 :=
    hadds.holdsEntry
  obtain ⟨host, hhost⟩ := hholds
  refine ⟨host, ?_⟩
  obtain ⟨n, hn, hkind⟩ := getElem_of_mem h.accepted
  have hmem : ("HTTPRoute", n) ∈
      (getListenerRouteKinds lib listener (blankStatus gateway)).1.zipIdx := by
    rw [mem_zipIdx_iff_getElem?, getElem?_eq_getElem hn, hkind]
  unfold computeListener
  rw [h.withoutCertificate.listenerSecret]
  dsimp only
  rw [getListenerRouteKinds_fst listener _ (blankStatus gateway)]
  have hclosed := HoldsEntry.closedUnderRoutes host
  refine foldl_of_mem (Q := fun acc : Attached => HoldsEntry none host acc.dag) ?_ hmem ?_ _
  · intro acc hacc routeKind _
    apply attachKind_inv _ _ hacc
    · intro _ site d name route _ _ hd
      exact hclosed.computeHTTPRoute (fun _ _ => trivial) (fun _ _ _ _ _ => trivial) hd
    · intro site d name route _ hd
      exact hclosed.computeTLSRoute (fun _ _ => trivial) (fun _ _ _ _ _ => trivial) hd
  · intro acc
    unfold attachKind
    dsimp only
    rw [if_pos rfl]
    refine foldl_of_mem (Q := fun acc : Attached => HoldsEntry none host acc.dag) ?_
      (mem_filter.mpr ⟨ord.mem_values.mpr hadds.cached, hadds.taken⟩) ?_ acc
    · intro acc hacc route _
      exact hclosed.computeHTTPRoute (fun _ _ => trivial) (fun _ _ _ _ _ => trivial) hacc
    · intro acc
      rw [h.valid]
      exact hhost _ acc.dag

end

/-- The routes of a listener for HTTPS or TLS are served with its certificate and never in
plaintext, unless it has no certificate and accepts HTTPRoutes. -/
theorem servedSecurely_iff (lib : Stdlib) (ord : MapOrder) (p : GatewayAPIProcessor)
    (source : KubernetesCache) (gateway : Gateway) (listener : GatewayListener)
    (isGatewayValid : Bool) :
    (listener.protocol = .https ∨ listener.protocol = .tls →
      ∀ st, ServedSecurely (listenerCertificate lib ord source gateway listener) st.dag
        (computeListener lib ord p source gateway isGatewayValid st listener).dag) ↔
    ¬ ServesPlaintext lib source gateway listener isGatewayValid := by
  constructor
  · intro hserved hplaintext
    -- From an empty DAG on, the plaintext hosts have to stay empty.
    let start : GatewayState := { dag := {}, gwAccessor := blankStatus gateway }
    have hempty := (hserved (.inr hplaintext.withoutCertificate.protocol) start).plaintext
    have hholds : ∃ host, HoldsEntry none host
        (computeListener lib ord p source gateway isGatewayValid start listener).dag :=
      hplaintext.exists_entry start
    obtain ⟨host, key, r, hentry⟩ := hholds
    rw [hostRoutes, DAG.ensureVirtualHost, DAG.getVirtualHost, hempty] at hentry
    cases hentry
  · intro h hprotocol st
    exact computeListener_servedSecurely hprotocol h st

/-- A listener that passes TLS through and accepts HTTPRoutes. -/
def passthroughListener : GatewayListener where
  name := "tls"
  protocol := .tls
  tls := some { mode := some .passthrough }
  allowedKinds := [{ kind := "HTTPRoute" }]

def passthroughGateway : Gateway where
  name := "g"
  ns := "n"
  listeners := [passthroughListener]

/-- A cache with an HTTPRoute for the host `h` on that Gateway. -/
def passthroughCache : KubernetesCache where
  gateway := some passthroughGateway
  httproutes := byName (·.toObjectMeta)
    [{ name := "route", ns := "n", hostnames := ["h"], parentRefs := [sectionRef none],
       rules := [{ matchRules := [{}], filters := [.requestRedirect (some {})] }] }]

/-- The listener is for TLS and has no certificate, and the HTTPRoute is served in
plaintext. -/
theorem passthrough_serves_plaintext :
    listenerCertificate .plain .storage passthroughCache passthroughGateway
      passthroughListener = none ∧
    ∃ vhost ∈ (computeListener .plain .storage {} passthroughCache
        passthroughGateway true { dag := {}, gwAccessor := blankStatus passthroughGateway }
        passthroughListener).dag.getVirtualHost "h",
      (vhost.routes.lookup "prefix: / type: string").isSome = true :=
  ⟨by decide +kernel, by decide +kernel⟩

end GatewayAPIProcessor

end Sesame.Dag
