/-
# The status log of a run

What `computeHTTPProxy` does to the statuses and to the orphaned proxies depends on the
cache, the extension clusters and the proxy alone. `proxyLog` lists it for one proxy and
`runLog` for all that a run computes, after the proxies that share an fqdn were rejected;
`run_record` shows that a run does what these lists say, and then rejects the proxies
that are still orphaned.
-/

import Sesame.Dag.RootHosts
import Sesame.Dag.StatusLog
import Sesame.Status.Commits

namespace Sesame.Dag.HTTPProxyProcessor

open List
open Lib Api
open Status (DetailedCondition ProxyUpdate)

variable {lib : Stdlib} {ord : MapOrder} {p : HTTPProxyProcessor} {source : KubernetesCache}

/-! ## What the parts of a root read -/

section

variable {K E : DetailedCondition → DetailedCondition → Prop} (hkept : KeptByRecording K E)

variable {P : Prop} {fqdn : String} {s s' : ProxyState}

/-- Two states with related conditions. -/
def ProxyState.Related (K : DetailedCondition → DetailedCondition → Prop) (s s' : ProxyState) :
    Prop :=
  K s.validCond s'.validCond

/-- Two states with related conditions; the hosts of a name are compared if `P`. -/
structure ProxyState.Alike (K : DetailedCondition → DetailedCondition → Prop) (P : Prop)
    (fqdn : String) (s s' : ProxyState) : Prop where
  condition : Related K s s'
  hosts : P → s.state.dag.hostsFor fqdn = s'.state.dag.hostsFor fqdn

open ProxyState (Related Alike)

theorem ProxyState.Alike.putHost (hs : Alike K P fqdn s s') {h h' : HostState}
    (hh : HostState.Alike K P h h') : Alike K P fqdn (s.putHost fqdn h) (s'.putHost fqdn h') := by
  refine ⟨hh.condition, fun hP => ?_⟩
  have hplain := congrArg Hosts.plain (hs.hosts hP)
  rw [DAG.hostsFor, DAG.hostsFor] at hplain ⊢
  simpa [ProxyState.putHost, DAG.putSecureVirtualHost, hh.host hP] using hplain

/-- The hosts after the TCP proxy part, from those before it. -/
def tcpHosts (host : String) (hosts : Hosts) : Option (Option (List Cluster)) → Hosts
  | some (some clusters) =>
    { hosts with
      secure := some { hosts.secure.getD { name := host } with tcpProxy := some clusters } }
  | _ => hosts

theorem TCPFollows.hostsFor {host : String} {dag : DAG} {r : ProxyStep}
    {outcome : Option (Option (List Cluster))} (h : TCPFollows host dag r outcome) :
    r.final.state.dag.hostsFor host = tcpHosts host (dag.hostsFor host) outcome := by
  cases h with
  | rejected same => exact same.hostsFor host
  | kept same => exact same.hostsFor host
  | attached same =>
    refine (same.hostsFor host).trans ?_
    simp [tcpHosts, DAG.hostsFor, DAG.putSecureVirtualHost, DAG.ensureSecureVirtualHost,
      DAG.getSecureVirtualHost]

include hkept

theorem ProxyState.Alike.addError (hs : Alike K P fqdn s s') {type : Status.ErrorType}
    (htype : type ≠ .orphanedError) (reason message : String) :
    Alike K P fqdn (s.addError type reason message) (s'.addError type reason message) :=
  ⟨hkept.addError hs.condition htype reason message, hs.hosts⟩

theorem ProxyState.Alike.records (hs : Alike K P fqdn s s') {f : ProxyState → ProxyState}
    (hf : RecordsErrors f) : Alike K P fqdn (f s) (f s') := by
  induction hf with
  | nothing => exact hs
  | warned =>
    split
    · exact hs.addError hkept (by decide) _ _
    · exact hs
  | rejected _ ih => exact ih.addError hkept (by decide) _ _

theorem attachTLS_agree (proxy : HTTPProxy) (vhost : VirtualHostSpec)
    (hs : Alike K P vhost.fqdn s s')
    (hext : s.state.dag.extensionClusters = s'.state.dag.extensionClusters) :
    Agree (Alike K P vhost.fqdn) (Alike K P vhost.fqdn)
      (attachTLS lib ord p source proxy vhost s) (attachTLS lib ord p source proxy vhost s') := by
  rcases attachTLS_cases lib ord p source proxy vhost with
    ⟨f, hf, -, heq⟩ | ⟨f, tls, hf, -, -, -, heq⟩ | ⟨tls, sec, htls, hcert⟩
  · rw [heq, heq]
    exact hs.records hkept hf
  · rw [heq, heq]
    exact hs.records hkept hf
  · have hstart : HostState.Alike K P
        ⟨withCertificate s.state.dag vhost.fqdn tls sec, s.validCond⟩
        ⟨withCertificate s'.state.dag vhost.fqdn tls sec, s'.validCond⟩ := by
      refine ⟨hs.condition, fun hP => ?_⟩
      have hensure := congrArg (fun hosts => hosts.secure.getD { name := vhost.fqdn }) (hs.hosts hP)
      rw [withCertificate, show s.state.dag.ensureSecureVirtualHost vhost.fqdn = _ from hensure]
      rfl
    simp only [attachTLS_of_certificate lib ord p htls hcert]
    rcases (setUpSecureHost_agree lib ord p source proxy vhost hkept hext tls hstart).dest with
      ⟨h, h', hx, hy, hh⟩ | ⟨h, h', hx, hy, hh⟩
    · rw [hx, hy]
      exact hs.putHost hh
    · rw [hx, hy]
      exact hs.putHost hh

theorem attachTCPProxy_agree (proxy : HTTPProxy) (vhost : VirtualHostSpec)
    (hs : Alike K P vhost.fqdn s s') :
    Agree (Alike K P vhost.fqdn) (Alike K P vhost.fqdn)
      (attachTCPProxy lib p source proxy vhost s)
      (attachTCPProxy lib p source proxy vhost s') := by
  have hhosts : ∀ s : ProxyState, _ :=
    fun s => (attachTCPProxy_outcome lib p source proxy vhost s).hostsFor
  have hafter := fun hP : P =>
    (hhosts s).trans ((congrArg (tcpHosts _ · _) (hs.hosts hP)).trans (hhosts s').symm)
  revert hafter
  unfold attachTCPProxy
  split
  · exact fun _ => hs
  split
  · exact fun _ => hs.addError hkept (by decide) _ _
  have hanswer := processHTTPProxyTCPProxy_kept lib p source vhost.fqdn hkept
    (includeFuel source) [] hs.condition proxy
  generalize processHTTPProxyTCPProxy lib p source vhost.fqdn (includeFuel source) [] s
    proxy = result at hanswer ⊢
  generalize processHTTPProxyTCPProxy lib p source vhost.fqdn (includeFuel source) [] s'
    proxy = result' at hanswer ⊢
  obtain ⟨ok, s₁⟩ := result
  obtain ⟨ok', s₁'⟩ := result'
  obtain ⟨hok, hvc⟩ := hanswer
  obtain rfl : ok = ok' := hok
  cases ok <;> exact fun hafter => ⟨hvc, hafter⟩

theorem attachRoutes_agree {ord' : MapOrder} {proxy : HTTPProxy} {vhost : VirtualHostSpec}
    (hlimits : rateLimitPolicy lib ord vhost.rateLimitPolicy =
      rateLimitPolicy lib ord' vhost.rateLimitPolicy)
    (hvisit : K
      (computeRoutes lib ord p source { proxy, virtualHost := vhost } vhost.tls.isSome
        (includeFuel source) [] s.state s.validCond { proxy, chain := [] }).validCond
      (computeRoutes lib ord' p source { proxy, virtualHost := vhost } vhost.tls.isSome
        (includeFuel source) [] s'.state s'.validCond { proxy, chain := [] }).validCond) :
    Agree (Related K) (Related K) (attachRoutes lib ord p source proxy vhost s)
      (attachRoutes lib ord' p source proxy vhost s') := by
  unfold attachRoutes
  dsimp only
  rw [hlimits]
  split
  · exact hkept.addError hvisit (by decide) _ _
  · split
    · exact hkept.addError hvisit (by decide) _ _
    · split <;> exact hvisit

end

/-! ## What the parts do to the record -/

theorem attachTLS_record (proxy : HTTPProxy) (vhost : VirtualHostSpec) (s : ProxyState) :
    (attachTLS lib ord p source proxy vhost s).final.state.record = s.state.record := by
  rcases attachTLS_cases lib ord p source proxy vhost with
    ⟨f, hf, -, heq⟩ | ⟨f, tls, hf, -, -, -, heq⟩ | ⟨tls, sec, htls, hcert⟩
  · rw [heq]
    exact congrArg State.record (hf.state s)
  · rw [heq]
    exact congrArg State.record (hf.state s)
  · rw [attachTLS_of_certificate lib ord p htls hcert]
    split <;> rfl

variable (lib p source) in
def tcpRootLog (proxy : HTTPProxy) (vhost : VirtualHostSpec) : List Event :=
  if vhost.tls.isSome then
    tcpLog lib p source vhost.fqdn (includeFuel source) (TCPCall.start proxy)
  else []

theorem attachTCPProxy_record (proxy : HTTPProxy) (vhost : VirtualHostSpec) (s : ProxyState) :
    (attachTCPProxy lib p source proxy vhost s).final.state.record =
      s.state.record.applyAll (tcpRootLog lib p source proxy vhost) := by
  have hcall : (processHTTPProxyTCPProxy lib p source vhost.fqdn (includeFuel source) [] s
      proxy).2.state.record = s.state.record.applyAll
        (tcpLog lib p source vhost.fqdn (includeFuel source) (TCPCall.start proxy)) :=
    processHTTPProxyTCPProxy_record (includeFuel source) (TCPCall.start proxy) s
  unfold attachTCPProxy tcpRootLog
  cases htcp : proxy.tcpProxy with
  | none =>
    have hnone :
        tcpLog lib p source vhost.fqdn (includeFuel source) (TCPCall.start proxy) = [] := by
      rw [includeFuel, tcpLog, tcpFollowed, TCPCall.start, htcp]
    rw [hnone, ite_self, Record.applyAll_nil]
    rfl
  | some tcpproxy =>
    cases htls : vhost.tls with
    | none => rfl
    | some tls =>
      revert hcall
      simp only [Option.isNone_some, Bool.false_eq_true, if_false, Option.isSome_some, if_true]
      generalize processHTTPProxyTCPProxy lib p source vhost.fqdn (includeFuel source) [] s
        proxy = result
      obtain ⟨ok, s'⟩ := result
      intro hcall
      cases ok <;> exact hcall

theorem attachRoutes_record (proxy : HTTPProxy) (vhost : VirtualHostSpec) (s : ProxyState) :
    (attachRoutes lib ord p source proxy vhost s).final.state.record =
      s.state.record.applyAll (callLog lib ord p source { proxy, virtualHost := vhost }
        vhost.tls.isSome (includeFuel source) (Call.start proxy)) := by
  rw [← computeRoutes_record (includeFuel source) (Call.start proxy) s.state s.validCond]
  unfold attachRoutes
  dsimp only
  split
  · rfl
  · split
    · rfl
    · split <;> rfl

/-! ## A root -/

/-- The log of what follows a part, if the part does not return early. -/
def ProxyStep.after (x : ProxyStep) (log : List Event) : List Event :=
  match x with
  | .ok _ => log
  | .error _ => []

section

variable (lib ord p source) (extensions : List ExtensionCluster) (proxy : HTTPProxy)
  (vhost : VirtualHostSpec)

/-- A state in which a root can start: it holds the extension clusters and nothing else. -/
def blankStart : ProxyState := startOf { dag := { extensionClusters := extensions } } proxy

/-- The parts of a root before its TCP proxy, from a blank start. -/
def beforeTCPProxy : ProxyStep := do
  let s ← checkRoot source proxy (blankStart extensions proxy)
  attachTLS lib ord p source proxy vhost s

/-- The parts of a root before its routes, from a blank start. -/
def beforeRoutes : ProxyStep := do
  let s ← beforeTCPProxy lib ord p source extensions proxy vhost
  attachTCPProxy lib p source proxy vhost s

def rootLog : List Event :=
  (beforeTCPProxy lib ord p source extensions proxy vhost).after
      (tcpRootLog lib p source proxy vhost) ++
    (beforeRoutes lib ord p source extensions proxy vhost).after
      (callLog lib ord p source { proxy, virtualHost := vhost } vhost.tls.isSome
        (includeFuel source) (Call.start proxy))

def rootCondition : DetailedCondition :=
  (computeRoot lib ord p source proxy vhost (blankStart extensions proxy)).final.validCond

def proxyLog : List Event :=
  let pu := Status.Cache.proxyAccessor proxy
  match proxy.virtualHost with
  | none =>
    [.orphan (namespacedNameOf proxy.toObjectMeta),
      .commit { pu with valid := some pu.conditionFor }]
  | some vhost =>
    if isBlank vhost.fqdn then
      [.commit { pu with
        valid := some (pu.conditionFor.addError .virtualHostError "FQDNNotSpecified"
          "Spec.VirtualHost.Fqdn must be specified") }]
    else
      rootLog lib ord p source extensions proxy vhost ++
        [.commit { pu with
          vhost := vhost.fqdn
          valid := some (rootCondition lib ord p source extensions proxy vhost) }]

end

section

variable {K E : DetailedCondition → DetailedCondition → Prop}

open ProxyState (Related Alike)

variable {st : State}

theorem ProxyStep.final_agree {x y : ProxyStep} (h : Agree (Related K) (Related K) x y) :
    K x.final.validCond y.final.validCond := by
  rcases h.dest with ⟨_, _, rfl, rfl, hvc⟩ | ⟨_, _, rfl, rfl, hvc⟩
  · exact hvc
  · exact hvc

/-- A part that ends like its copy from a blank start, and does to the record what the log
says. -/
structure Logged (K : DetailedCondition → DetailedCondition → Prop) (r : Record)
    (x y : ProxyStep) (log : List Event) : Prop where
  agree : Agree (Related K) (Related K) x y
  record : x.final.state.record = r.applyAll log

theorem Logged.bind {r : Record} {x y : ProxyStep} {log log' : List Event}
    {f : ProxyState → ProxyStep} (h : Logged K r x y log)
    (hnext : ∀ s s', Related K s s' → Logged K s.state.record (f s) (f s') log') :
    Logged K r (x >>= f) (y >>= f) (log ++ y.after log') := by
  constructor
  · exact h.agree.bind fun s s' hsame => (hnext s s' hsame).agree
  · obtain ⟨hagree, hrecord⟩ := h
    rw [Record.applyAll_append, ← hrecord]
    rcases hagree.dest with ⟨s, s', rfl, rfl, -⟩ | ⟨s, s', rfl, rfl, hsame⟩
    · rfl
    · exact (hnext s s' hsame).record

variable {extensions : List ExtensionCluster} {proxy : HTTPProxy} {vhost : VirtualHostSpec}

theorem beforeTCPProxy_logged (hkept : KeptByRecording K E)
    (hstart : K (startCondition proxy) (startCondition proxy))
    (hext : st.dag.extensionClusters = extensions) :
    Logged K st.record
      (checkRoot source proxy (startOf st proxy) >>= attachTLS lib ord p source proxy vhost)
      (beforeTCPProxy lib ord p source extensions proxy vhost) [] := by
  unfold beforeTCPProxy checkRoot
  split
  · exact ⟨hkept.addError hstart (by decide) _ _, rfl⟩
  split
  · exact ⟨hkept.addError hstart (by decide) _ _, rfl⟩
  have hagree : Agree (Alike K False vhost.fqdn) (Alike K False vhost.fqdn)
      (attachTLS lib ord p source proxy vhost (startOf st proxy))
      (attachTLS lib ord p source proxy vhost (blankStart extensions proxy)) :=
    attachTLS_agree hkept proxy vhost ⟨hstart, False.elim⟩ hext
  exact ⟨hagree.mono (fun _ _ h => h.condition) (fun _ _ h => h.condition),
    attachTLS_record proxy vhost (startOf st proxy)⟩

theorem beforeRoutes_logged (hkept : KeptByRecording K E)
    (hstart : K (startCondition proxy) (startCondition proxy))
    (hext : st.dag.extensionClusters = extensions) :
    Logged K st.record
      (checkRoot source proxy (startOf st proxy) >>= attachTLS lib ord p source proxy vhost >>=
        attachTCPProxy lib p source proxy vhost)
      (beforeRoutes lib ord p source extensions proxy vhost)
      ((beforeTCPProxy lib ord p source extensions proxy vhost).after
        (tcpRootLog lib p source proxy vhost)) := by
  apply (beforeTCPProxy_logged hkept hstart hext).bind
  intro s s' hsame
  have hagree : Agree (Alike K False vhost.fqdn) (Alike K False vhost.fqdn)
      (attachTCPProxy lib p source proxy vhost s) _ :=
    attachTCPProxy_agree hkept proxy vhost ⟨hsame, False.elim⟩
  exact ⟨hagree.mono (fun _ _ h => h.condition) (fun _ _ h => h.condition),
    attachTCPProxy_record proxy vhost s⟩

variable (lib ord p source extensions proxy vhost) in
theorem computeRoot_blankStart :
    computeRoot lib ord p source proxy vhost (blankStart extensions proxy) =
      beforeRoutes lib ord p source extensions proxy vhost >>=
        attachRoutes lib ord p source proxy vhost := by
  simp only [computeRoot, beforeRoutes, beforeTCPProxy, bind_assoc]

/-- A root does to the record what its log says, and ends with its condition. -/
theorem computeRoot_logged (hkept : KeptByRecording K E)
    (hstart : K (startCondition proxy) (startCondition proxy))
    (hext : st.dag.extensionClusters = extensions) :
    Logged K st.record (computeRoot lib ord p source proxy vhost (startOf st proxy))
      (computeRoot lib ord p source proxy vhost (blankStart extensions proxy))
      (rootLog lib ord p source extensions proxy vhost) := by
  have hroutes : Logged K st.record
      (checkRoot source proxy (startOf st proxy) >>= attachTLS lib ord p source proxy vhost >>=
        attachTCPProxy lib p source proxy vhost >>= attachRoutes lib ord p source proxy vhost)
      (beforeRoutes lib ord p source extensions proxy vhost >>=
        attachRoutes lib ord p source proxy vhost)
      (rootLog lib ord p source extensions proxy vhost) :=
    (beforeRoutes_logged hkept hstart hext).bind fun s s' hsame =>
      ⟨attachRoutes_agree hkept rfl (computeRoutes_kept lib ord p source _ _ hkept _ _ _ _ hsame _),
        attachRoutes_record proxy vhost s⟩
  rw [computeRoot_blankStart]
  simpa only [computeRoot, bind_assoc] using hroutes

variable (lib ord p source) in
/-- The condition with which a root ends is related to itself as the one it starts with. -/
theorem rootCondition_kept (hkept : KeptByRecording K E)
    (hstart : K (startCondition proxy) (startCondition proxy)) :
    K (rootCondition lib ord p source extensions proxy vhost)
      (rootCondition lib ord p source extensions proxy vhost) := by
  have hlogged : Logged K _ (computeRoot lib ord p source proxy vhost (blankStart extensions proxy))
      (computeRoot lib ord p source proxy vhost (blankStart extensions proxy))
      (rootLog lib ord p source extensions proxy vhost) := computeRoot_logged hkept hstart rfl
  exact ProxyStep.final_agree hlogged.agree

/-- A proxy does to the record what its log says. -/
theorem computeHTTPProxy_record (proxy : HTTPProxy) (hext : st.dag.extensionClusters = extensions) :
    (computeHTTPProxy lib ord p source st proxy).record =
      st.record.applyAll (proxyLog lib ord p source extensions proxy) := by
  unfold computeHTTPProxy proxyLog
  dsimp only
  cases proxy.virtualHost with
  | none => rfl
  | some vhost =>
    dsimp only
    split
    · rfl
    have hlogged : Logged Eq st.record
        (computeRoot lib ord p source proxy vhost (startOf st proxy))
        (computeRoot lib ord p source proxy vhost (blankStart extensions proxy))
        (rootLog lib ord p source extensions proxy vhost) :=
      computeRoot_logged keptByRecording_eq rfl hext
    have hcondition : (computeRoot lib ord p source proxy vhost
        (startOf st proxy)).final.validCond =
        rootCondition lib ord p source extensions proxy vhost :=
      ProxyStep.final_agree hlogged.agree
    rw [Record.applyAll_append, ← hlogged.record, ← hcondition]
    rfl

end

/-! ## Runs -/

section

variable (lib ord p source) (extensions : List ExtensionCluster)

/-- The update of one of the proxies that share an fqdn. -/
def duplicateUpdate (fqdn : String) (proxies : List HTTPProxy) (proxy : HTTPProxy) :
    ProxyUpdate :=
  let pu := Status.Cache.proxyAccessor proxy
  { pu with
    vhost := fqdn
    valid := some (pu.conditionFor.addError .virtualHostError "DuplicateVhost"
      ("fqdn " ++ lib.quote fqdn ++ " is used in multiple HTTPProxies: " ++
        ", ".intercalate (sortStrings (proxies.map proxyPath)))) }

/-- The log of the proxies of a group, if they share their fqdn. -/
def duplicateLog (group : String × List HTTPProxy) : List Event :=
  match group.2 with
  | [_] => []
  | proxies => proxies.map fun proxy => .commit (duplicateUpdate lib group.1 proxies proxy)

/-- The log of a run before the orphaned proxies are rejected. -/
def runLog : List Event :=
  (rootGroups ord source).flatMap (duplicateLog lib) ++
    (computedProxies ord source).flatMap (proxyLog lib ord p source extensions)

/-- The record of a run before the orphaned proxies are rejected. -/
def runRecord (dag : DAG) : Record :=
  Record.applyAll { statusCache := dag.statusCache, orphaned := [] }
    (runLog lib ord p source dag.extensionClusters)

def orphanedUpdate (proxy : HTTPProxy) : ProxyUpdate :=
  let pu := Status.Cache.proxyAccessor proxy
  { pu with
    valid := some (pu.conditionFor.addError .orphanedError "Orphaned"
      "this HTTPProxy is not part of a delegation chain from a root HTTPProxy") }

/-- The log of the proxies that are still orphaned after a run. -/
def orphanedLog (orphaned : List NamespacedName) : List Event :=
  (ord.order "orphaned" orphaned).flatMap fun name =>
    (source.httpproxies.lookup name).toList.map fun proxy => .commit (orphanedUpdate proxy)

end

theorem rejectDuplicates_record (fqdn : String) (proxies : List HTTPProxy) (st : State) :
    (rejectDuplicates lib fqdn proxies st).record =
      st.record.applyAll
        (proxies.map fun proxy => .commit (duplicateUpdate lib fqdn proxies proxy)) := by
  unfold rejectDuplicates Record.applyAll
  dsimp only
  rw [foldl_map]
  exact (foldl_hom State.record fun st proxy => rfl).symm

theorem validHTTPProxies_record (st : State) :
    (validHTTPProxies lib ord source st).1 = computedProxies ord source ∧
      (validHTTPProxies lib ord source st).2.record =
        st.record.applyAll ((rootGroups ord source).flatMap (duplicateLog lib)) ∧
      (validHTTPProxies lib ord source st).2.dag.extensionClusters = st.dag.extensionClusters := by
  obtain ⟨hlist, hsame⟩ := validHTTPProxies_eq lib ord source st
  refine ⟨hlist, ?_, (hsame.frame fun _ => True).extensionClusters⟩
  unfold validHTTPProxies rootGroups
  dsimp only
  generalize ord.range "validHTTPProxies fqdns"
    (proxiesByFqdn (ord.values "validHTTPProxies" source.httpproxies)) = groups
  induction groups using reverseRecOn with
  | nil => rfl
  | append_singleton groups group ih =>
    rw [foldl_append, flatMap_append, Record.applyAll_append, ← ih]
    simp only [foldl_cons, foldl_nil, flatMap_cons, flatMap_nil, append_nil]
    rcases group with ⟨key, _ | ⟨proxy, _ | ⟨other, more⟩⟩⟩
    · rfl
    · rfl
    · exact rejectDuplicates_record key (proxy :: other :: more) _

theorem foldl_computeHTTPProxy_record (proxies : List HTTPProxy) (st : State) :
    (proxies.foldl (computeHTTPProxy lib ord p source) st).record =
      st.record.applyAll
        (proxies.flatMap (proxyLog lib ord p source st.dag.extensionClusters)) := by
  induction proxies generalizing st with
  | nil => rfl
  | cons proxy rest ih =>
    have hframe : st.dag.Frame (fun _ => True) (computeHTTPProxy lib ord p source st proxy).dag :=
      computeHTTPProxy_frame st proxy fun _ _ => trivial
    rw [foldl_cons, ih, hframe.extensionClusters,
      computeHTTPProxy_record proxy rfl, flatMap_cons,
      Record.applyAll_append]

theorem rejectOrphaned_record (st : State) :
    (rejectOrphaned ord source st).record =
      st.record.applyAll (orphanedLog ord source st.orphaned) := by
  unfold rejectOrphaned orphanedLog
  generalize ord.order "orphaned" st.orphaned = names
  induction names generalizing st with
  | nil => rfl
  | cons name rest ih =>
    rw [foldl_cons, ih, flatMap_cons, Record.applyAll_append]
    cases source.httpproxies.lookup name <;> rfl

/-- A run does to the statuses what its log says, and then rejects the proxies that are
still orphaned. -/
theorem run_statusCache (dag : DAG) :
    (run lib ord p source dag).statusCache =
      ((runRecord lib ord p source dag).applyAll
        (orphanedLog ord source (runRecord lib ord p source dag).orphaned)).statusCache := by
  obtain ⟨hlist, hrecord, hext⟩ := validHTTPProxies_record { dag }
  have hfold : ((validHTTPProxies lib ord source { dag }).1.foldl
      (computeHTTPProxy lib ord p source) (validHTTPProxies lib ord source { dag }).2).record =
      runRecord lib ord p source dag := by
    rw [foldl_computeHTTPProxy_record, hlist, hrecord, hext, runRecord, runLog,
      Record.applyAll_append]
    rfl
  rw [← hfold]
  exact congrArg Record.statusCache (rejectOrphaned_record _)

end Sesame.Dag.HTTPProxyProcessor
