/-
# Services of the DAG

The upstream service that a reference resolves to, and the checks on secrets that
serve as certificates.
-/

import Sesame.Dag.KubernetesCache
import Sesame.Dag.Graph

namespace Sesame.Dag

open List
open Lib Api

variable {kc : KubernetesCache}

def externalName (svc : Api.Service) : String :=
  match svc.type with
  | .externalName => svc.externalName
  | .other => ""

def validateExternalName (svc : Api.Service) (enableExternalNameSvc : Bool) : Except String Unit :=
  let en := externalName svc
  if en = "" then .ok ()
  else if ¬ enableExternalNameSvc then
    .error (svc.ns ++ "/" ++ svc.name ++ " is an ExternalName service, these are not currently " ++
      "enabled. See the config.enableExternalNameService config file setting")
  else if en ∈ ["localhost", "localhost.localdomain", "local.projectsesame.io"] then
    .error (svc.ns ++ "/" ++ svc.name ++ " is an ExternalName service that points to localhost, " ++
      "this is not allowed")
  else .ok ()

def upstreamProtocol (svc : Api.Service) (port : ServicePort) : UpstreamProtocol :=
  let up := Annotation.parseUpstreamProtocols svc.toObjectMeta
  ((up.lookup port.name).or (up.lookup (toString port.port.toInt))).getD .http1

/-- The DAG service of a port of a Kubernetes service. -/
def serviceOf (svc : Api.Service) (port : ServicePort) : Service where
  weighted :=
    { weight := 1, serviceName := svc.name, serviceNamespace := svc.ns, servicePort := port }
  protocol := upstreamProtocol svc port
  maxConnections := Annotation.maxConnections svc.toObjectMeta
  maxPendingRequests := Annotation.maxPendingRequests svc.toObjectMeta
  maxRequests := Annotation.maxRequests svc.toObjectMeta
  maxRetries := Annotation.maxRetries svc.toObjectMeta
  externalName := externalName svc

def ensureService (lib : Stdlib) (kc : KubernetesCache) (name : NamespacedName)
    (port : IntOrString) (enableExternalNameSvc : Bool) : Except String Service := do
  let (svc, svcPort) ← kc.lookupService lib name port
  validateExternalName svc enableExternalNameSvc
  pure (serviceOf svc svcPort)

theorem lookupService_eq_ok {lib : Stdlib} {name : NamespacedName} {port : IntOrString}
    {svc : Api.Service} {svcPort : ServicePort}
    (h : kc.lookupService lib name port = .ok (svc, svcPort)) :
    kc.services.lookup name = some svc := by
  unfold KubernetesCache.lookupService at h
  split at h
  · cases h
  rename_i found hfound
  split at h
  · cases h
  split at h
  · cases h
    exact hfound
  · cases h
    exact hfound
  · cases h

def validSecret (lib : Stdlib) (s : Api.Secret) : Except String Unit :=
  if s.type ≠ .tls then .error ("Secret type is not " ++ lib.quote "kubernetes.io/tls")
  else if s.value tlsCertKey = [] then .error ("empty " ++ lib.quote tlsCertKey ++ " key")
  else if s.value tlsPrivateKeyKey = [] then
    .error ("empty " ++ lib.quote tlsPrivateKeyKey ++ " key")
  else .ok ()

/-- The characters that `regexp.QuoteMeta` escapes. -/
def isMeta (c : Char) : Bool :=
  c ∈ ['\\', '.', '+', '*', '?', '(', ')', '|', '[', ']', '\x7b', '\x7d', '^', '$']

def quoteMeta (s : List Char) : List Char := s.flatMap fun c => if isMeta c then ['\\', c] else [c]

def singleDNSLabelWildcardRegex : String := "^[a-z0-9]([-a-z0-9]*[a-z0-9])?"

def wildcardDomainHeaderMatch (fqdn : String) : HeaderMatchCondition where
  name := ":authority"
  matchType := .regex
  value := singleDNSLabelWildcardRegex ++ String.ofList (quoteMeta (fqdn.toList.drop 1))

/-- `strings.HasPrefix(fqdn, "*.")`. -/
def isWildcard (fqdn : String) : Bool := ['*', '.'] <+: fqdn.toList

/-- The conditions of the host, for a wildcard host. -/
def hostConditions (fqdn : String) : List HeaderMatchCondition :=
  if isWildcard fqdn then [wildcardDomainHeaderMatch fqdn] else []

def isBlank (s : String) : Bool := Annotation.trimSpace s.toList = []

def stringOrDefault (s def_ : String) : String := if s = "" then def_ else s

/-- `http.StatusBadGateway`. -/
def badGateway : UInt32 := 502

/-- `http.StatusServiceUnavailable`. -/
def serviceUnavailable : UInt32 := 503

/-! ## Ports -/

/-- The port has the number or the name that the reference gives. -/
abbrev PortMatches (port : IntOrString) (p : ServicePort) : Prop :=
  p.port.toInt = KubernetesCache.intValue port ∨ KubernetesCache.intOrStringText port = p.name

/-- The port's protocol is TCP or empty. -/
abbrev ServesTCP (p : ServicePort) : Prop := p.protocol = .unset ∨ p.protocol = .tcp

/-- What Kubernetes asks of the ports of a Service. -/
structure AdmittedPorts (ports : List ServicePort) : Prop where
  names : (ports.map ServicePort.name).Nodup
  numbers : ports.Pairwise fun p q => p.port = q.port → p.protocol ≠ q.protocol

/-- The port that `LookupService` returns, if it succeeds. -/
def foundPort (lib : Stdlib) (kc : KubernetesCache) (name : NamespacedName)
    (port : IntOrString) : Option ServicePort :=
  (kc.lookupService lib name port).toOption.map Prod.snd

variable {lib : Stdlib} {name : NamespacedName} {port : IntOrString} {svc : Api.Service}

/-- Only the first port that matches counts. -/
theorem foundPort_eq (hsvc : kc.services.lookup name = some svc) :
    foundPort lib kc name port =
      (svc.ports.filter (PortMatches port)).head?.filter (ServesTCP ·) := by
  rw [head?_filter, foundPort, KubernetesCache.lookupService, hsvc]
  dsimp only [PortMatches]
  cases svc.ports.find? fun p => decide (p.port.toInt = KubernetesCache.intValue port ∨
      KubernetesCache.intOrStringText port = p.name) with
  | none => rfl
  | some p =>
    obtain ⟨portName, protocol, number⟩ := p
    cases protocol <;> rfl

/-- `LookupService` finds a TCP port that matches exactly if there is one, for every
order of the ports. -/
def FindsPort (lib : Stdlib) (kc : KubernetesCache) (name : NamespacedName) (svc : Api.Service)
    (port : IntOrString) : Prop :=
  ((∃ p ∈ svc.ports, PortMatches port p ∧ foundPort lib kc name port = some p) ↔
    ∃ p ∈ svc.ports, PortMatches port p ∧ ServesTCP p) ∧
  ∀ kc' ports, ports.Perm svc.ports → kc'.services.lookup name = some { svc with ports } →
    foundPort lib kc' name port = foundPort lib kc name port

/-- A TCP port that matches next to another port that matches is found or not by the
order of the ports. -/
theorem findsPort_iff (hsvc : kc.services.lookup name = some svc) :
    FindsPort lib kc name svc port ↔ ∀ p ∈ svc.ports, PortMatches port p → ServesTCP p →
      ∀ q ∈ svc.ports, PortMatches port q → q = p := by
  constructor
  · rintro ⟨hfound, horder⟩ p hp hmatches htcp q hq hqmatches
    obtain ⟨first, -, -, hfirst⟩ := hfound.mpr ⟨p, hp, hmatches, htcp⟩
    -- a port that matches, put in front, is the one found
    have heq : ∀ r ∈ svc.ports, PortMatches port r → r = first := by
      intro r hr hrmatches
      have hlookup : (kc.services.insert name
          { svc with ports := r :: svc.ports.erase r }).lookup name = some _ :=
        AList.lookup_insert _
      have hsame := horder { kc with services := _ } _ (perm_cons_erase hr).symm hlookup
      rw [hfirst, foundPort_eq hlookup, filter_cons, if_pos (decide_eq_true hrmatches),
        head?_cons, Option.filter_eq_some_iff] at hsame
      exact Option.some.inj hsame.1
    rw [heq p hp hmatches, heq q hq hqmatches]
  · intro hunique
    have hfound : ∀ ports : List ServicePort, ports.Perm svc.ports → ∀ p,
        (ports.filter (PortMatches port)).head?.filter (ServesTCP ·) = some p ↔
          p ∈ svc.ports ∧ PortMatches port p ∧ ServesTCP p := by
      intro ports hperm p
      have hmem : ∀ {q}, q ∈ ports.filter (PortMatches port) ↔
          q ∈ svc.ports ∧ PortMatches port q := by
        intro q
        rw [(hperm.filter _).mem_iff, mem_filter, decide_eq_true_iff]
      rw [Option.filter_eq_some_iff, decide_eq_true_iff, ← and_assoc, ← hmem]
      refine and_congr_left fun htcp => ⟨mem_of_mem_head?, fun hp => ?_⟩
      have hhead := head_mem_head? (ne_nil_of_mem hp)
      obtain ⟨hq, hqmatches⟩ := hmem.mp (mem_of_mem_head? hhead)
      rwa [hunique p (hmem.mp hp).1 (hmem.mp hp).2 htcp _ hq hqmatches] at hhead
    rw [FindsPort, foundPort_eq hsvc]
    refine ⟨exists_congr fun p => ?_, fun kc' ports hperm hlookup => Option.ext fun p => ?_⟩
    · rw [hfound _ (.refl _)]
      tauto
    · rw [foundPort_eq hlookup, hfound _ hperm, hfound _ (.refl _)]

/-- DNS over UDP and over TCP on one port. -/
def dnsService : Api.Service :=
  { name := "kube-dns", ns := "kube-system"
    ports := [{ name := "dns", protocol := .udp, port := 53 }, { name := "dns-tcp", port := 53 }] }

def dnsCache : KubernetesCache := { services := byName (·.toObjectMeta) [dnsService] }

theorem udp_port_hides_tcp_port : AdmittedPorts dnsService.ports ∧
    dnsCache.services.lookup { ns := "kube-system", name := "kube-dns" } = some dnsService ∧
    (∃ p ∈ dnsService.ports, PortMatches (.int 53) p ∧ ServesTCP p) ∧
    dnsCache.lookupService .plain { ns := "kube-system", name := "kube-dns" } (.int 53) =
      .error "unsupported service protocol \"UDP\"" :=
  ⟨⟨by decide, by decide⟩, rfl, by decide, by rfl⟩

theorem dns_found_by_name : dnsCache.services.lookup
      { ns := "kube-system", name := "kube-dns" } = some dnsService ∧
    FindsPort .plain dnsCache { ns := "kube-system", name := "kube-dns" } dnsService
      (.string "dns-tcp") :=
  ⟨rfl, (findsPort_iff rfl).mpr (by decide)⟩

end Sesame.Dag
