/-
# Setting up the secure host of a root

What becomes of a secure host between its certificate and its routes: which
settings make `computeHTTPProxy` give up on it, and what it carries if they do
not.
-/

import Sesame.Dag.RootHosts

namespace Sesame.Dag.HTTPProxyProcessor

open Lib Api

variable {lib : Stdlib} {ord : MapOrder} {p : HTTPProxyProcessor} {source : KubernetesCache}
  {extensions : List ExtensionCluster} {proxy : HTTPProxy} {vhost : VirtualHostSpec} {tls : TLS}
  {cv : DownstreamValidation}

variable {P : SecureVirtualHost → Prop} {h : HostState}

/-- The extension cluster that the authorization of a root refers to. -/
def authorizationCluster (extensions : List ExtensionCluster) (proxy : HTTPProxy)
    (auth : AuthorizationServer) : Option ExtensionCluster :=
  let ref := defaultExtensionRef auth.extensionServiceRef
  DAG.getExtensionCluster { extensionClusters := extensions } (extensionClusterName
    { ns := stringOrDefault ref.ns proxy.ns, name := ref.name })

/-- The authorization of a root refers to an extension cluster that is there, and
its timeout is valid. -/
def AuthorizationResolves (lib : Stdlib) (extensions : List ExtensionCluster) (proxy : HTTPProxy)
    (vhost : VirtualHostSpec) : Prop :=
  ∀ auth, vhost.authorization = some auth →
    (defaultExtensionRef auth.extensionServiceRef).apiVersion = extensionGroupVersion ∧
    (authorizationCluster extensions proxy auth).isSome = true ∧
    ∃ timeout, Timeout.parse lib auth.responseTimeout = .ok timeout

/-- The parts of a secure host that setting it up leaves alone. -/
def SameServing (a b : SecureVirtualHost) : Prop :=
  b.name = a.name ∧ b.secret = a.secret ∧ b.routes = a.routes ∧ b.tcpProxy = a.tcpProxy

/-! ## The steps -/

section Steps

variable (lib ord p source extensions proxy vhost tls)

/-- The fallback certificate is enabled, goes with the other settings and is there. -/
structure FallbackAccepted : Prop where
  enabled : tls.enableFallbackCertificate = true
  noClients : tls.clientValidation = none
  noAuthorization : authorizationConfigured vhost = false
  found : ∃ name sec, p.fallbackCertificate = some name ∧
    source.lookupSecret name (validSecret lib) proxy.ns = .ok sec ∧
    source.delegationPermitted ord name proxy.ns = true

/-- Clients are validated, and the CA certificate is there if one is named. -/
def ClientsAccepted : Prop :=
  ∃ cv, tls.clientValidation = some cv ∧ (cv.caCertificate = "" ∨
    ∃ ca, source.lookupSecret (namespacedNameFrom cv.caCertificate proxy.ns)
      (KubernetesCache.validCA lib) proxy.ns = .ok ca)

/-- The authorization refers to an extension cluster that is there. -/
def AuthorizationAccepted : Prop :=
  ∃ auth, vhost.authorization = some auth ∧
    (defaultExtensionRef auth.extensionServiceRef).apiVersion = extensionGroupVersion ∧
    (authorizationCluster extensions proxy auth).isSome = true

/-- The validation of clients is reached. -/
def PastFallback : Prop :=
  tls.enableFallbackCertificate = true → FallbackAccepted lib ord p source proxy vhost tls

/-- The authorization is reached. -/
def PastClients : Prop :=
  PastFallback lib ord p source proxy vhost tls ∧
    (tls.clientValidation = none ∨ ClientsAccepted lib source proxy tls)

/-- How the step ends that attaches the fallback certificate. -/
inductive FallbackStep (h : HostState) : HostStep → Prop
  | skipped (disabled : tls.enableFallbackCertificate = false) : FallbackStep h (.ok h)
  | rejected (past : ¬ PastFallback lib ord p source proxy vhost tls) (type : Status.ErrorType)
      (reason message : String) : FallbackStep h (h.reject type reason message)
  | attached {name : NamespacedName} {sec : Secret}
      (accepted : FallbackAccepted lib ord p source proxy vhost tls)
      (found : source.lookupSecret name (validSecret lib) proxy.ns = .ok sec)
      (permitted : source.delegationPermitted ord name proxy.ns = true) :
      FallbackStep h (.ok { h with svhost := { h.svhost with fallbackCertificate := some sec } })

/-- The CA certificate that a validation of clients names, if it names one. -/
def HasClientCA (cv : DownstreamValidation) (dv : PeerValidationContext) : Prop :=
  (cv.caCertificate = "" ∧ dv.caCertificate = none) ∨
    (cv.caCertificate ≠ "" ∧ ∃ ca, dv.caCertificate = some ca ∧
      source.lookupSecret (namespacedNameFrom cv.caCertificate proxy.ns)
        (KubernetesCache.validCA lib) proxy.ns = .ok ca)

/-- How the step ends that attaches the validation of clients. -/
inductive ClientsStep (h : HostState) : HostStep → Prop
  | skipped (absent : tls.clientValidation = none) : ClientsStep h (.ok h)
  | rejected {cv : DownstreamValidation} (present : tls.clientValidation = some cv)
      (named : cv.caCertificate ≠ "") (missing : ¬ ClientsAccepted lib source proxy tls)
      (type : Status.ErrorType) (reason message : String) :
      ClientsStep h (h.reject type reason message)
  | attached {cv : DownstreamValidation} {dv : PeerValidationContext}
      {validCond : Status.DetailedCondition} (present : tls.clientValidation = some cv)
      (ca : HasClientCA lib source proxy cv dv) :
      ClientsStep h (.ok { validCond, svhost := { h.svhost with downstreamValidation := some dv } })

/-- How the step ends that attaches the authorization. -/
inductive AuthorizationStep (h : HostState) : HostStep → Prop
  | skipped (absent : vhost.authorization = none) : AuthorizationStep h (.ok h)
  | rejected {auth : AuthorizationServer} (present : vhost.authorization = some auth)
      (missing : ¬ AuthorizationAccepted extensions proxy vhost)
      (type : Status.ErrorType) (reason message : String) :
      AuthorizationStep h (h.reject type reason message)
  | attached {auth : AuthorizationServer} {ext : ExtensionCluster} {h' : HostState}
      {step : HostStep} (present : vhost.authorization = some auth)
      (version : (defaultExtensionRef auth.extensionServiceRef).apiVersion = extensionGroupVersion)
      (found : authorizationCluster extensions proxy auth = some ext)
      (host : ∃ failOpen timeout body, h'.svhost =
        { h.svhost with
          authorizationService := some ext, authorizationFailOpen := failOpen,
          authorizationResponseTimeout := timeout, authorizationServerWithRequestBody := body })
      (ends : (step = .ok h' ∧ ∃ timeout, Timeout.parse lib auth.responseTimeout = .ok timeout) ∨
        (step = .error h' ∧ ∀ timeout, Timeout.parse lib auth.responseTimeout ≠ .ok timeout)) :
      AuthorizationStep h step

end Steps

theorem HasClientCA.accepted {dv : PeerValidationContext} (h : HasClientCA lib source proxy cv dv)
    (hcv : tls.clientValidation = some cv) : ClientsAccepted lib source proxy tls :=
  ⟨cv, hcv, h.imp And.left fun h => h.2.imp fun _ h => h.2⟩

theorem attachFallback_step (h : HostState) : FallbackStep lib ord p source proxy vhost tls h
    (attachFallback lib ord p source proxy vhost tls h) := by
  unfold attachFallback
  split
  · next hboth =>
    refine .rejected (fun hpast => ?_) _ _ _
    simp [(hpast hboth.1).noClients] at hboth
  rename_i hclients
  split
  · next hboth =>
    refine .rejected (fun hpast => ?_) _ _ _
    simp [(hpast hboth.1).noAuthorization] at hboth
  rename_i hauth
  split
  · next henabled =>
    split
    · next hnone =>
      refine .rejected (fun hpast => ?_) _ _ _
      obtain ⟨name, sec, hsome, -⟩ := (hpast henabled).found
      simp [hnone] at hsome
    rename_i name hname
    split
    · next err herror =>
      refine .rejected (fun hpast => ?_) _ _ _
      obtain ⟨name', sec, hsome, hfound, -⟩ := (hpast henabled).found
      obtain rfl := Option.some.inj (hname.symm.trans hsome)
      simp [herror] at hfound
    · next sec hsec =>
      split
      · next hpermitted =>
        refine .attached ⟨henabled, ?_, ?_, name, sec, hname, hsec, hpermitted⟩ hsec hpermitted
        · simpa [henabled] using hclients
        · simpa [henabled] using hauth
      · next hpermitted =>
        refine .rejected (fun hpast => ?_) _ _ _
        obtain ⟨name', sec', hsome, -, hfound⟩ := (hpast henabled).found
        obtain rfl := Option.some.inj (hname.symm.trans hsome)
        exact hpermitted hfound
  · next hdisabled => exact .skipped (Bool.eq_false_iff.mpr hdisabled)

theorem attachClientValidation_step (h : HostState) : ClientsStep lib source proxy tls h
    (attachClientValidation lib source proxy tls h) := by
  unfold attachClientValidation
  split
  · next hnone => exact .skipped hnone
  rename_i cv hcv
  dsimp only
  split
  · next hnamed =>
    split
    · next err herror =>
      refine .rejected hcv hnamed ?_ _ _ _
      rintro ⟨cv', hcv', hca⟩
      obtain rfl := Option.some.inj (hcv.symm.trans hcv')
      simp [hnamed, herror] at hca
    · next ca hfound => exact .attached hcv (.inr ⟨hnamed, ca, rfl, hfound⟩)
  · next hempty => exact .attached hcv (.inl ⟨not_not.mp hempty, rfl⟩)

variable (lib) in
theorem attachAuthorization_step (dag : DAG) (h : HostState) :
    AuthorizationStep lib dag.extensionClusters proxy vhost h
      (attachAuthorization lib dag proxy vhost h) := by
  unfold attachAuthorization
  split
  · next hnone => exact .skipped hnone
  rename_i auth hauth
  have hmissing : ¬ ((defaultExtensionRef auth.extensionServiceRef).apiVersion =
        extensionGroupVersion ∧
      (authorizationCluster dag.extensionClusters proxy auth).isSome = true) →
      ¬ AuthorizationAccepted dag.extensionClusters proxy vhost := by
    rintro hnot ⟨auth', hauth', haccepted⟩
    obtain rfl := Option.some.inj (hauth.symm.trans hauth')
    exact hnot haccepted
  dsimp only
  split
  · next hversion => exact .rejected hauth (hmissing fun h => hversion h.1) _ _ _
  rename_i hversion
  split
  · next hext =>
    have hnone : authorizationCluster dag.extensionClusters proxy auth = none := hext
    exact .rejected hauth (hmissing fun h => by simp [hnone] at h) _ _ _
  rename_i ext hext
  split
  · next err htimeout =>
    exact .attached hauth (not_not.mp hversion) hext ⟨_, _, _, rfl⟩
      (.inr ⟨rfl, fun timeout h => by simp [htimeout] at h⟩)
  · next timeout htimeout =>
    exact .attached hauth (not_not.mp hversion) hext ⟨_, _, _, rfl⟩ (.inl ⟨rfl, timeout, htimeout⟩)

theorem AuthorizationStep.ok_iff {step : HostStep}
    (hstep : AuthorizationStep lib extensions proxy vhost h step) :
    (∃ h', step = .ok h') ↔ AuthorizationResolves lib extensions proxy vhost := by
  cases hstep with
  | skipped absent => exact iff_of_true ⟨h, rfl⟩ fun auth hauth => by simp [absent] at hauth
  | rejected present missing =>
    refine iff_of_false (not_exists_ok_of_error _) fun hresolves => ?_
    obtain ⟨hversion, hfound, -⟩ := hresolves _ present
    exact missing ⟨_, present, hversion, hfound⟩
  | attached present version found _ ends =>
    rcases ends with ⟨rfl, htimeout⟩ | ⟨rfl, htimeout⟩
    · refine iff_of_true ⟨_, rfl⟩ fun auth hauth => ?_
      obtain rfl := Option.some.inj (present.symm.trans hauth)
      exact ⟨version, by rw [found]; rfl, htimeout⟩
    · refine iff_of_false (not_exists_ok_of_error _) fun hresolves => ?_
      obtain ⟨-, -, timeout, hparsed⟩ := hresolves _ present
      exact htimeout timeout hparsed

/-! ## What setting up keeps -/

theorem AuthorizationStep.inv {step : HostStep}
    (hstep : AuthorizationStep lib extensions proxy vhost h step) (hh : P h.svhost)
    (hauth : ∀ s ext failOpen timeout body, ext ∈ extensions → P s →
      P { s with
        authorizationService := some ext, authorizationFailOpen := failOpen,
        authorizationResponseTimeout := timeout, authorizationServerWithRequestBody := body }) :
    P step.final.svhost := by
  cases hstep with
  | skipped => exact hh
  | rejected => exact hh
  | @attached auth ext h' _ present version found host ends =>
    obtain ⟨failOpen, timeout, body, hhost⟩ := host
    have hfinal : step.final = h' := by
      rcases ends with ⟨rfl, -⟩ | ⟨rfl, -⟩ <;> rfl
    rw [hfinal, hhost]
    exact hauth _ ext _ _ _ (List.mem_of_find?_eq_some found) hh

/-- Setting up a secure host keeps what its writes keep: those of the fallback
certificate, of the validation of clients and of the authorization. -/
theorem setUpSecureHost_inv {dag : DAG} (hh : P h.svhost)
    (hfallback : ∀ s name sec, source.lookupSecret name (validSecret lib) proxy.ns = .ok sec →
      source.delegationPermitted ord name proxy.ns = true → P s →
      P { s with fallbackCertificate := some sec })
    (hclients : ∀ s cv dv, tls.enableFallbackCertificate = false →
      tls.clientValidation = some cv → HasClientCA lib source proxy cv dv → P s →
      P { s with downstreamValidation := some dv })
    (hauth : ∀ s ext failOpen timeout body, ext ∈ dag.extensionClusters → P s →
      P { s with
        authorizationService := some ext, authorizationFailOpen := failOpen,
        authorizationResponseTimeout := timeout, authorizationServerWithRequestBody := body }) :
    P (setUpSecureHost lib ord p source dag proxy vhost tls h).final.svhost := by
  have hrest : ∀ h₁, P h₁.svhost →
      (∀ cv, tls.clientValidation = some cv → tls.enableFallbackCertificate = false) →
      P (HostStep.final (attachClientValidation lib source proxy tls h₁ >>=
        attachAuthorization lib dag proxy vhost)).svhost := by
    intro h₁ hh₁ hdisabled
    have hsecond := @attachClientValidation_step lib source proxy tls h₁
    generalize attachClientValidation lib source proxy tls h₁ = r at hsecond ⊢
    cases hsecond with
    | skipped => exact (attachAuthorization_step lib dag _).inv hh₁ hauth
    | rejected => exact hh₁
    | attached present ca =>
      exact (attachAuthorization_step lib dag _).inv
        (hclients _ _ _ (hdisabled _ present) present ca hh₁) hauth
  have hfirst := @attachFallback_step lib ord p source proxy vhost tls h
  unfold setUpSecureHost
  generalize attachFallback lib ord p source proxy vhost tls h = r at hfirst ⊢
  cases hfirst with
  | skipped disabled => exact hrest h hh fun _ _ => disabled
  | rejected => exact hh
  | attached accepted found permitted =>
    refine hrest _ (hfallback _ _ _ found permitted hh) fun cv hcv => ?_
    simp [accepted.noClients] at hcv

/-! ## The secure host before its routes -/

/-- A secure host with a certificate that serves nothing yet. -/
structure Bare (sec : Secret) (svh : SecureVirtualHost) : Prop where
  secret : svh.secret = some sec
  routes : svh.routes.entries = []
  tcpProxy : svh.tcpProxy = none

/-- How setting up a secure host that validates clients ends. -/
inductive ValidatingHost (lib : Stdlib) (source : KubernetesCache)
    (extensions : List ExtensionCluster) (proxy : HTTPProxy) (vhost : VirtualHostSpec) (tls : TLS)
    (cv : DownstreamValidation) (sec : Secret) : Except SecureVirtualHost SecureVirtualHost → Prop
  | abandoned {svh : SecureVirtualHost} (bare : Bare sec svh)
      (why : cv.caCertificate = "" → tls.enableFallbackCertificate = true ∨
        ¬ AuthorizationResolves lib extensions proxy vhost) :
      ValidatingHost lib source extensions proxy vhost tls cv sec (.error svh)
  | complete {svh : SecureVirtualHost} {dv : PeerValidationContext} (bare : Bare sec svh)
      (fallback : tls.enableFallbackCertificate = false)
      (resolves : AuthorizationResolves lib extensions proxy vhost)
      (validation : svh.downstreamValidation = some dv)
      (ca : HasClientCA lib source proxy cv dv) :
      ValidatingHost lib source extensions proxy vhost tls cv sec (.ok svh)

theorem setUpHost_validating (hcv : tls.clientValidation = some cv) (sec : Secret) :
    ValidatingHost lib source extensions proxy vhost tls cv sec
      (setUpHost lib ord p source extensions proxy vhost tls sec) := by
  rw [setUpHost, setUpSecureHost]
  generalize hstart : ({ svhost := _, validCond := startCondition proxy } : HostState) = h
  have hbare : Bare sec h.svhost := by
    rw [← hstart]
    exact ⟨rfl, rfl, rfl⟩
  have hfirst := @attachFallback_step lib ord p source proxy vhost tls h
  generalize attachFallback lib ord p source proxy vhost tls h = r at hfirst ⊢
  cases hfirst with
  | rejected past =>
    refine .abandoned hbare fun _ => .inl (by_contra fun hdisabled => past fun henabled => ?_)
    exact absurd henabled hdisabled
  | attached accepted => simp [accepted.noClients] at hcv
  | skipped disabled =>
    have hsecond := @attachClientValidation_step lib source proxy tls h
    rw [ok_bind]
    generalize attachClientValidation lib source proxy tls h = r at hsecond ⊢
    cases hsecond with
    | skipped absent => simp [absent] at hcv
    | rejected present named =>
      obtain rfl := Option.some.inj (hcv.symm.trans present)
      exact .abandoned hbare fun hempty => absurd hempty named
    | @attached cv' dv validCond present ca =>
      obtain rfl := Option.some.inj (hcv.symm.trans present)
      have hthird := @attachAuthorization_step lib proxy vhost { extensionClusters := extensions }
        { validCond, svhost := { h.svhost with downstreamValidation := some dv } }
      have hkept := hthird.inv (P := fun svh => Bare sec svh ∧ svh.downstreamValidation = some dv)
        ⟨⟨hbare.secret, hbare.routes, hbare.tcpProxy⟩, rfl⟩
        fun _ _ _ _ _ _ hs => ⟨⟨hs.1.secret, hs.1.routes, hs.1.tcpProxy⟩, hs.2⟩
      have hok := hthird.ok_iff
      rw [ok_bind]
      cases hstep : attachAuthorization lib { extensionClusters := extensions } proxy vhost
          { validCond, svhost := { h.svhost with downstreamValidation := some dv } } with
      | ok h'' =>
        rw [hstep] at hkept hok
        exact .complete hkept.1 disabled (hok.mp ⟨h'', rfl⟩) hkept.2 ca
      | error h'' =>
        rw [hstep] at hkept hok
        exact .abandoned hkept.1 fun _ => .inr fun hresolves =>
          not_exists_ok_of_error _ (hok.mpr hresolves)

variable (lib ord p source extensions proxy) in
/-- The secure host that the TLS part hands on, for a root that validates clients. -/
theorem tlsHost_validating (htls : vhost.tls = some tls) (hcv : tls.clientValidation = some cv) :
    (tlsHost lib ord p source extensions proxy vhost = .error none ∧
        ¬ ∃ sec, IsCertificateOf lib ord source proxy tls sec) ∨
      ∃ sec r, IsCertificateOf lib ord source proxy tls sec ∧
        ValidatingHost lib source extensions proxy vhost tls cv sec r ∧
        tlsHost lib ord p source extensions proxy vhost =
          match r with
          | .error svh => .error (some svh)
          | .ok svh => .ok (some svh) := by
  by_cases hcert : ∃ sec, IsCertificateOf lib ord source proxy tls sec
  · obtain ⟨sec, hcert⟩ := hcert
    refine .inr ⟨sec, setUpHost lib ord p source extensions proxy vhost tls sec, hcert,
      setUpHost_validating hcv sec, ?_⟩
    simp only [tlsHost, htls, hcert.terminates, hcert.named, hcert.found, hcert.permitted]
    rfl
  · refine .inl ⟨?_, hcert⟩
    rw [tlsHost, htls]
    dsimp only
    -- Every way to get past these checks gives the certificate.
    split
    · rfl
    split
    · rfl
    rename_i hneither
    split
    · rfl
    rename_i hclients
    have hterminates : tls.passthrough = false :=
      Bool.eq_false_iff.mpr fun hpass => hclients ⟨hpass, by rw [hcv]; rfl⟩
    have hnamed : isBlank tls.secretName = false :=
      Bool.eq_false_iff.mpr fun hblank => hneither ⟨hblank, by simp [hterminates]⟩
    rw [if_neg (by rw [hterminates]; decide)]
    split
    · rfl
    · next sec hfound =>
      split
      · next hpermitted =>
        exact absurd ⟨sec, hterminates, hnamed, hfound, hpermitted⟩ hcert
      · rfl

/-! ## What is served -/

variable (lib ord p source proxy vhost) in
/-- A root with a secure host forwards requests to it: its TCP proxy leads to
clusters, or, without a TCP proxy, its policies are valid and it has routes. -/
def Forwards : Prop :=
  if proxy.tcpProxy.isSome then
    ∃ clusters, tcpOutcome lib p source (includeFuel source) [] proxy = some (some clusters)
  else
    (∃ cp, toCORSPolicy lib vhost.corsPolicy = .ok cp) ∧
    (∃ rlp, rateLimitPolicy lib ord vhost.rateLimitPolicy = .ok rlp) ∧
    routesOf lib ord p source proxy vhost ≠ []

/-- The parts of a secure host that its routes leave alone. -/
def SameSecurity (a b : SecureVirtualHost) : Prop :=
  b.secret = a.secret ∧ b.downstreamValidation = a.downstreamValidation ∧
    b.authorizationService = a.authorizationService

theorem addRoutes_valid (v : VirtualHost) {routes : List Route} (h : routes ≠ []) :
    (addRoutes v routes).valid = true := by
  obtain ⟨r, rest, rfl⟩ := List.exists_cons_of_ne_nil h
  refine List.foldlRecOn rest _ (motive := fun v : VirtualHost => v.valid = true) ?_ ?_
  · simp [VirtualHost.valid, VirtualHost.addRoute, AList.entries_insert]
  · intro v _ q _
    simp [VirtualHost.valid, VirtualHost.addRoute, AList.entries_insert]

/-- The secure host of a root that was set up serves what the root forwards, and
nothing if the root forwards nothing. -/
theorem rootHosts_secure (htls : vhost.tls.isSome = true) {sec : Secret} {svh : SecureVirtualHost}
    (hhost : tlsHost lib ord p source extensions proxy vhost = .ok (some svh))
    (hbare : Bare sec svh) :
    ∃ final, (rootHosts lib ord p source extensions proxy vhost).secure = some final ∧
      SameSecurity svh final ∧
      ((Forwards lib ord p source proxy vhost ∧ final.valid = true) ∨
        (¬ Forwards lib ord p source proxy vhost ∧ final.routes.entries = [] ∧
          final.tcpProxy = none)) := by
  have hsame : SameSecurity svh svh := ⟨rfl, rfl, rfl⟩
  rw [rootHosts, hhost, andThen, Forwards]
  by_cases htcp : proxy.tcpProxy.isSome = true
  · have hnotNone : ¬ proxy.tcpProxy.isNone = true := by
      simpa [← Option.isSome_iff_ne_none] using htcp
    have htls' : ¬ vhost.tls.isNone = true := by simpa [← Option.isSome_iff_ne_none] using htls
    rw [if_pos htcp, tcpHost, if_neg hnotNone, if_neg htls']
    -- The routes go to the plaintext host only.
    have hroutes : ∀ secure, (routeHosts lib ord p source proxy vhost secure).secure = secure := by
      intro secure
      rw [routeHosts]
      split
      · rfl
      · split
        · rfl
        · rw [if_neg fun h => hnotNone h.2]
    cases tcpOutcome lib p source (includeFuel source) [] proxy with
    | none => exact ⟨svh, rfl, hsame, .inr ⟨by simp, hbare.routes, hbare.tcpProxy⟩⟩
    | some outcome =>
      cases outcome with
      | none =>
        refine ⟨svh, hroutes _, hsame, .inr ⟨by simp, hbare.routes, hbare.tcpProxy⟩⟩
      | some clusters =>
        refine ⟨_, hroutes _, hsame, .inl ⟨⟨clusters, rfl⟩, ?_⟩⟩
        simp [SecureVirtualHost.valid]
  · have hnone : proxy.tcpProxy.isNone = true := by simpa using htcp
    rw [if_neg htcp, tcpHost, if_pos hnone, andThen, routeHosts]
    cases toCORSPolicy lib vhost.corsPolicy with
    | error err => exact ⟨svh, rfl, hsame, .inr ⟨by simp, hbare.routes, hbare.tcpProxy⟩⟩
    | ok cp =>
      cases rateLimitPolicy lib ord vhost.rateLimitPolicy with
      | error err => exact ⟨svh, rfl, hsame, .inr ⟨by simp, hbare.routes, hbare.tcpProxy⟩⟩
      | ok rlp =>
        dsimp only
        rw [if_pos ⟨htls, hnone⟩, addSecureRoutes_eq]
        refine ⟨_, rfl, hsame, ?_⟩
        by_cases hempty : routesOf lib ord p source proxy vhost = []
        · right
          refine ⟨fun h => h.2.2 hempty, ?_, hbare.tcpProxy⟩
          rw [hempty]
          exact hbare.routes
        · left
          refine ⟨⟨⟨cp, rfl⟩, ⟨rlp, rfl⟩, hempty⟩, ?_⟩
          simp [SecureVirtualHost.valid, hbare.secret, addRoutes_valid _ hempty]

end Sesame.Dag.HTTPProxyProcessor
