/-
# Misdirected requests

On a TLS connection the server name chooses the filter chain, and the
misdirected-request filter of that chain must turn away requests for any other
host. The match of the chain and the filter are generated from the host's name
separately; this module gives both their meaning in Envoy and compares them.
-/

import Sesame.Dag.Builder
import Sesame.XdsCache.Listener

namespace Sesame.Envoy

open Lib

variable {name : String}

/-! ## The meaning of a server name match -/

/-- Envoy's match of a server name: equality, or for a wildcard a suffix with
something in front of it. -/
def ServerNameMatches (pattern serverName : String) : Prop :=
  match pattern.toList with
  | '*' :: '.' :: suffix =>
    ('.' :: suffix) <:+ serverName.toList ∧ suffix.length + 1 < serverName.toList.length
  | exact => serverName.toList = exact

/-- A match without server names accepts every TLS connection. -/
def FilterChainMatch.Accepts (m : FilterChainMatch) (serverName : String) : Prop :=
  m.serverNames = [] ∨ ∃ pattern ∈ m.serverNames, ServerNameMatches pattern serverName

/-! ## The meaning of the script -/

inductive LuaOutcome
  | passes
  | responds (status : String)
  deriving DecidableEq

/-- The target expression of a misdirected-request script. -/
def targetOf (code : String) : Option String :=
  let target := String.ofList ((code.toList.drop misdirectedHead.toList.length).take
    (code.toList.length - misdirectedHead.toList.length - misdirectedTail.toList.length))
  if code = misdirectedHead ++ target ++ misdirectedTail then some target else none

/-- The value of a target expression on a connection with the given server name. -/
def evalTarget (target serverName : String) : Option String :=
  if target = requestedServerName then some serverName
  else (Lua.literalValue target.toList).map String.ofList

/-- Run a misdirected-request script on a request. -/
def runMisdirected (code serverName authority : String) : Option LuaOutcome := do
  let target ← targetOf code
  let value ← evalTarget target serverName
  pure (if lowerName authority ≠ value then .responds "421" else .passes)

theorem targetOf_script (target : String) :
    targetOf (misdirectedHead ++ target ++ misdirectedTail) = some target := by
  have hcut : ∀ head mid tail : List Char,
      ((head ++ mid ++ tail).drop head.length).take
        ((head ++ mid ++ tail).length - head.length - tail.length) = mid := by
    intro head mid tail
    have hlength : (head ++ mid ++ tail).length - head.length - tail.length = mid.length := by
      simp only [List.length_append]
      omega
    rw [hlength, List.append_assoc, List.drop_left, List.take_left]
  simp only [targetOf, String.toList_append, hcut, String.ofList_toList, if_true]

/-- A script compares the lower-cased authority with the value of its target. -/
theorem runMisdirected_script {target serverName value : String}
    (hvalue : evalTarget target serverName = some value) (authority : String) :
    runMisdirected (misdirectedHead ++ target ++ misdirectedTail) serverName authority =
      some (if lowerName authority = value then .passes else .responds "421") := by
  simp [runMisdirected, targetOf_script, hvalue, ite_not]

/-! ## The target of a host -/

theorem star_not_mem_of_dnsName (h : DNSName name) : '*' ∉ name.toList := by
  intro hstar
  have hchar := h '*' hstar
  revert hchar
  decide

theorem plain_of_dnsName (h : DNSName name) : ∀ c ∈ name.toList, Lua.Plain c := by
  intro c hc
  have hchar := h c hc
  refine ⟨?_, ?_, ?_⟩ <;>
  · rintro rfl
    revert hchar
    decide

/-- A quoted name of plain characters evaluates to the lower-cased name. -/
theorem evalTarget_quoted (h : ∀ c ∈ name.toList, Lua.Plain c) (serverName : String) :
    evalTarget ("\"" ++ lowerName name ++ "\"") serverName = some (lowerName name) := by
  have hnot : "\"" ++ lowerName name ++ "\"" ≠ requestedServerName := by
    intro heq
    have hhead := congrArg (fun s : String => s.toList.head?) heq
    have hfirst : requestedServerName.toList.head? = some 'r' := by decide
    rw [hfirst] at hhead
    simp at hhead
  have hplain : ∀ c ∈ (lowerName name).toList, Lua.Plain c := by
    intro c hc
    rw [lowerName, String.toList_ofList] at hc
    obtain ⟨d, hd, rfl⟩ := List.mem_map.mp hc
    exact (h d hd).toLower
  have hliteral := Lua.literalValue_plain hplain
  rw [evalTarget, if_neg hnot]
  simp only [String.toList_append]
  show (Lua.literalValue ('"' :: (lowerName name).toList ++ ['"'])).map String.ofList = _
  rw [hliteral, Option.map_some, String.ofList_toList]

end Sesame.Envoy

namespace Sesame.XdsCache

open Lib Dag Envoy
open Api (NamespacedName)

/-- A chain of one connection manager whose first filter lets a request through if
its authority is the server name of the connection, and answers 421 otherwise. -/
def Guarded (fc : FilterChain) : Prop :=
  ∀ serverName authority, lowerName serverName = serverName →
    fc.filterChainMatch.Accepts serverName →
    ∃ cm code rest, fc.filters = [.httpConnectionManager cm] ∧
      cm.httpFilters = .lua code :: rest ∧
      runMisdirected code serverName authority =
        some (if lowerName authority = serverName then .passes else .responds "421")

def targetText (name : String) : String :=
  if ['*', '.'] <+: name.toList then requestedServerName else "\"" ++ lowerName name ++ "\""

variable {lib : Stdlib} {cfg : ListenerConfig} {listenerName : String} {vh : SecureVirtualHost}

/-- The chain of a host without TCP proxy. -/
theorem secureFilterChain_http (htcp : vh.tcpProxy = none) :
    ∃ cm rest, cm.httpFilters =
        .lua (misdirectedHead ++ targetText vh.name ++ misdirectedTail) :: rest ∧
      cfg.secureFilterChain lib listenerName vh =
        .ok (filterChainTLS vh.name (cfg.secureTLSContext lib vh) [.httpConnectionManager cm]) := by
  obtain ⟨cm, hcm, hfilters, -⟩ := cfg.secureConnectionManager_ok listenerName vh
  refine ⟨cm, _, hfilters, ?_⟩
  rw [ListenerConfig.secureFilterChain, ListenerConfig.secureFilters, htcp]
  simp only [hcm]
  rfl

/-- On every connection that the chain of a host other than `*` accepts, the
target of its filter evaluates to the server name. -/
theorem evalTarget_of_accepts {name serverName : String} (hname : HostName name)
    (hstar : name ≠ "*") (hlower : lowerName serverName = serverName)
    (haccepts : ServerNameMatches name serverName) :
    evalTarget (targetText name) serverName = some serverName := by
  rcases hname with rfl | ⟨suffix, rfl, -⟩ | hexact
  · exact absurd rfl hstar
  · have hwildcard : ['*', '.'] <+: ("*." ++ suffix).toList := by
      rw [String.toList_append]
      exact List.prefix_append _ _
    rw [targetText, if_pos hwildcard, evalTarget, if_pos rfl]
  · have hnostar := star_not_mem_of_dnsName hexact
    have hwildcard : ¬ ['*', '.'] <+: name.toList := fun h => hnostar (h.subset (by simp))
    have hsame : serverName.toList = name.toList := by
      unfold ServerNameMatches at haccepts
      split at haccepts
      · next suffix heq => exact absurd (by simp [heq]) hnostar
      · exact haccepts
    rw [targetText, if_neg hwildcard, evalTarget_quoted (plain_of_dnsName hexact),
      ← String.toList_inj.mp hsame, hlower]

theorem guarded_of_ne_star (htcp : vh.tcpProxy = none) (hname : HostName vh.name)
    (hstar : vh.name ≠ "*") {fc : FilterChain}
    (hfc : cfg.secureFilterChain lib listenerName vh = .ok fc) : Guarded fc := by
  obtain ⟨cm, rest, hfilters, hchain⟩ := secureFilterChain_http htcp
  rw [hchain] at hfc
  cases hfc
  intro serverName authority hlower haccepts
  have hmatch : ServerNameMatches vh.name serverName := by
    simpa [filterChainTLS, hstar, FilterChainMatch.Accepts] using haccepts
  exact ⟨cm, _, rest, rfl, hfilters,
    runMisdirected_script (evalTarget_of_accepts hname hstar hlower hmatch) authority⟩

/-- The chain for `*` accepts every server name, but its filter compares the
authority with the text `*`. -/
theorem not_guarded_star (htcp : vh.tcpProxy = none) (hstar : vh.name = "*") {fc : FilterChain}
    (hfc : cfg.secureFilterChain lib listenerName vh = .ok fc) : ¬ Guarded fc := by
  obtain ⟨cm, rest, hfilters, hchain⟩ := secureFilterChain_http htcp
  rw [hchain] at hfc
  cases hfc
  intro hguarded
  obtain ⟨cm', code, rest', hcm, hcode, hrun⟩ := hguarded "x" "x" (by decide)
    (.inl (by simp [filterChainTLS, hstar]))
  cases hcm
  rw [hfilters, hstar] at hcode
  cases hcode
  have hvalue : evalTarget (targetText "*") "x" = some "*" := by decide
  rw [runMisdirected_script hvalue] at hrun
  revert hrun
  decide

/-- In a built DAG every secure host without TCP proxy has its chain, and the chain
turns away exactly the misdirected requests iff the host is not `*`. -/
theorem guarded_iff_ne_star (lib : Stdlib) (cfg : ListenerConfig) {ord : MapOrder}
    {dbc : DagBuilderConfig} {source : KubernetesCache} {root : DAG}
    (hbuild : Builder.build lib ord dbc source = .ok root) :
    ∃ listeners, listenersOf lib cfg root = .ok listeners ∧
      ∀ l ∈ root.listeners, ∀ vh ∈ l.secureVirtualHosts, vh.tcpProxy = none → HostName vh.name →
        ∃ https fc, listeners.lookup envoyHTTPSListener = some https ∧ fc ∈ https.filterChains ∧
          cfg.secureFilterChain lib envoyHTTPSListener vh = .ok fc ∧
          (Guarded fc ↔ vh.name ≠ "*") := by
  obtain ⟨dag, -, hdag, rfl⟩ := Builder.build_eq hbuild
  obtain ⟨listeners, hlisteners, hchains, -⟩ := listenersOf_run lib cfg ord hdag
  refine ⟨listeners, hlisteners, fun l hl vh hvh htcp hname => ?_⟩
  obtain ⟨https, fc, hhttps, hfc, hchain⟩ :=
    hchains vh ((ListenerProcessor.mem_secureVirtualHosts_run hdag).mp ⟨l, hl, hvh⟩)
  refine ⟨https, fc, hhttps, hfc, hchain, ?_⟩
  constructor
  · intro hguarded hstar
    exact not_guarded_star htcp hstar hchain hguarded
  · intro hstar
    exact guarded_of_ne_star htcp hname hstar hchain

def redirectDAG (hostname : Option String) : DAG :=
  match Builder.build .plain .storage { gatewayAPIConfigured := true }
      (redirectGateway hostname) with
  | .ok root => root
  | .error _ => {}

theorem build_redirectGateway_none : Builder.build .plain .storage
    { gatewayAPIConfigured := true } (redirectGateway none) = .ok (redirectDAG none) := rfl

theorem build_redirectGateway_some : Builder.build .plain .storage
    { gatewayAPIConfigured := true } (redirectGateway (some "a")) =
      .ok (redirectDAG (some "a")) := rfl

/-- The chain of the host `a` lets exactly the requests for `a` through. -/
theorem guarded_host_a : ∃ l ∈ (redirectDAG (some "a")).listeners, ∃ vh ∈ l.secureVirtualHosts,
    vh.name = "a" ∧ ∃ fc, ListenerConfig.secureFilterChain {} .plain envoyHTTPSListener vh =
      .ok fc ∧ Guarded fc := by
  have hhost : ∃ l ∈ (redirectDAG (some "a")).listeners, ∃ vh ∈ l.secureVirtualHosts,
      vh.name = "a" ∧ vh.tcpProxy = none := by
    decide +kernel
  have hdns : DNSName "a" := by decide
  obtain ⟨l, hl, vh, hvh, hname, htcp⟩ := hhost
  obtain ⟨listeners, -, hchains⟩ := guarded_iff_ne_star .plain {} build_redirectGateway_some
  obtain ⟨https, fc, -, -, hfc, hguarded⟩ :=
    hchains l hl vh hvh htcp (by rw [hname]; exact .inr (.inr hdns))
  refine ⟨l, hl, vh, hvh, hname, fc, hfc, hguarded.mpr ?_⟩
  rw [hname]
  decide

/-- The HTTPRoute without hostnames gives the host `*`. Its chain accepts the
server name `x`, and a request for `x` on that connection is answered 421. -/
theorem star_host_turns_request_away :
    Builder.build .plain .storage { gatewayAPIConfigured := true }
        (redirectGateway none) = .ok (redirectDAG none) ∧
      ∃ l ∈ (redirectDAG none).listeners, ∃ vh ∈ l.secureVirtualHosts,
        vh.name = "*" ∧ vh.tcpProxy = none ∧
        ∃ fc cm code rest,
          ListenerConfig.secureFilterChain {} .plain envoyHTTPSListener vh = .ok fc ∧
          fc.filterChainMatch.Accepts "x" ∧ fc.filters = [.httpConnectionManager cm] ∧
          cm.httpFilters = .lua code :: rest ∧ lowerName "x" = "x" ∧
          runMisdirected code "x" "x" = some (.responds "421") := by
  have hhost : ∃ l ∈ (redirectDAG none).listeners, ∃ vh ∈ l.secureVirtualHosts,
      vh.name = "*" ∧ vh.tcpProxy = none := by
    decide +kernel
  obtain ⟨l, hl, vh, hvh, hname, htcp⟩ := hhost
  obtain ⟨cm, rest, hfilters, hchain⟩ := secureFilterChain_http htcp
  have hvalue : evalTarget (targetText "*") "x" = some "*" := by decide
  rw [hname] at hfilters
  refine ⟨build_redirectGateway_none, l, hl, vh, hvh, hname, htcp, _, cm, _, rest, hchain, ?_,
    rfl, hfilters, by decide, ?_⟩
  · exact .inl (by simp [filterChainTLS, hname])
  · rw [runMisdirected_script hvalue]
    decide

end Sesame.XdsCache
