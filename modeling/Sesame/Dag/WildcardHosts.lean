/-
# Wildcard hosts

Envoy matches a wildcard host against names with any number of labels in front of the
suffix, so every route of such a host is meant to ask for one label with a regular
expression on `:authority`. Routes of Ingresses and of HTTPProxies do; the answer for an
include that was not found does not.
-/

import Sesame.Lib.Regex
import Sesame.Dag.HostContents

namespace Sesame.Dag

open List
open Lib Api
open Lib.Regex (oneOf mem_oneOf mem_star_oneOf)
open Status (DetailedCondition)

/-! ## The regular expression -/

/-- A letter or a digit of a lower-case name. -/
def IsAlnum (c : Char) : Prop := ('a' ≤ c ∧ c ≤ 'z') ∨ ('0' ≤ c ∧ c ≤ '9')

/-- One label of a lower-case DNS name: letters, digits and inner hyphens. -/
structure IsLabel (label : List Char) : Prop where
  first : ∃ c, label.head? = some c ∧ IsAlnum c
  last : ∃ c, label.getLast? = some c ∧ IsAlnum c
  inner : ∀ c ∈ label, IsAlnum c ∨ c = '-'

def alnum : List Char := Regex.range 'a' 'z' ++ Regex.range '0' '9'

theorem mem_alnum {c : Char} : c ∈ alnum ↔ IsAlnum c := by
  rw [alnum, mem_append, Regex.mem_range, Regex.mem_range]
  rfl

/-- What is read of the expression for one label. -/
def labelReader : Regex.Reader where
  front := 1 * 1 * oneOf alnum
  last := 1 * 1 * (oneOf ('-' :: alnum)).star * oneOf alnum + 1

theorem read_label :
    (Regex.body singleDNSLabelWildcardRegex.toList).foldlM Regex.Reader.read {} =
      some labelReader := by
  rfl

/-- The expression matches the labels and nothing else. -/
theorem matches_label {w : List Char} :
    w ∈ (labelReader.front * labelReader.last).matches' ↔ IsLabel w := by
  simp only [labelReader, RegularExpression.matches'_mul, RegularExpression.matches'_add,
    RegularExpression.matches'_epsilon, one_mul, Language.mem_mul, Language.mem_add,
    Language.mem_one, mem_oneOf, mem_star_oneOf]
  have hchars : ∀ c, c ∈ '-' :: alnum ↔ IsAlnum c ∨ c = '-' := by
    intro c
    rw [mem_cons, mem_alnum, or_comm]
  constructor
  · rintro ⟨_, ⟨c, hc, rfl⟩, v, ⟨s, hs, _, ⟨d, hd, rfl⟩, rfl⟩ | rfl, rfl⟩
    · have hlast : ([c] ++ (s ++ [d])).getLast? = some d := by
        rw [← append_assoc, getLast?_concat]
      refine ⟨⟨c, rfl, mem_alnum.mp hc⟩, ⟨d, hlast, mem_alnum.mp hd⟩, ?_⟩
      intro e he
      simp only [singleton_append, mem_cons, mem_append, not_mem_nil, or_false] at he
      rcases he with rfl | he | rfl
      · exact .inl (mem_alnum.mp hc)
      · exact (hchars e).mp (hs e he)
      · exact .inl (mem_alnum.mp hd)
    · refine ⟨⟨c, rfl, mem_alnum.mp hc⟩, ⟨c, rfl, mem_alnum.mp hc⟩, ?_⟩
      intro e he
      rw [mem_singleton.mp he]
      exact .inl (mem_alnum.mp hc)
  · rintro ⟨⟨c, hfirst, hc⟩, ⟨d, hlast, hd⟩, hinner⟩
    obtain ⟨v, rfl⟩ := head?_eq_some_iff.mp hfirst
    refine ⟨[c], ⟨c, mem_alnum.mpr hc, rfl⟩, v, ?_, rfl⟩
    induction v using reverseRecOn with
    | nil => exact .inr rfl
    | append_singleton s e _ =>
      left
      rw [← cons_append, getLast?_concat] at hlast
      cases hlast
      refine ⟨s, fun f hf => (hchars f).mpr (hinner f (by simp [hf])), [d], ?_, rfl⟩
      exact ⟨d, mem_alnum.mpr hd, rfl⟩

/-- The condition of a wildcard host accepts the names with one label before the suffix and
no others. -/
theorem fullMatch_wildcard (host : String) (name : List Char) :
    Regex.FullMatch (wildcardDomainHeaderMatch host).value.toList name ↔
      ∃ label, IsLabel label ∧ name = label ++ host.toList.drop 1 := by
  have htext : (wildcardDomainHeaderMatch host).value.toList =
      singleDNSLabelWildcardRegex.toList ++ Regex.escape (host.toList.drop 1) := by
    rw [wildcardDomainHeaderMatch, String.toList_append, String.toList_ofList]
    rfl
  rw [htext, Regex.fullMatch_append_escape read_label rfl rfl (by decide)]
  simp only [matches_label]

/-! ## Routes of HTTPProxies -/

namespace HTTPProxyProcessor

variable {lib : Stdlib} {ord : MapOrder} {p : HTTPProxyProcessor} {source : KubernetesCache}

/-- Where the routes come from that one include adds. -/
theorem computeInclude_routes_iff {P : Route → Prop} {root : Root}
    (recurse : State → DetailedCondition → Position → Visit) (pos : Position) (v : Visit)
    (inc : Include) :
    (∀ r ∈ (computeInclude lib source recurse root pos v inc).routes, P r) ↔
      (∀ r ∈ v.routes, P r) ∧
      (∀ included, followed lib source pos.proxy inc = some included →
        ∀ r ∈ (recurse v.state (startCondition included)
          { proxy := included, chain := pos.chain ++ [inc.conditions] }).routes, P r) ∧
      (Unanswered lib source pos.proxy inc → P (missingIncludeRoute root pos inc)) := by
  rcases computeInclude_eq lib source root pos inc with
    ⟨included, hfollowed, heq⟩ | ⟨hnone, type, reason, message, -, heq⟩
  · have hanswered : ¬ Unanswered lib source pos.proxy inc := by
      intro h
      cases h.absent.symm.trans (followed_eq_some.mp hfollowed).2.2.1
    rw [heq, forall_mem_append]
    simp [hfollowed, hanswered, startCondition]
  · rw [heq, forall_mem_append]
    by_cases hunanswered : Unanswered lib source pos.proxy inc <;> simp [hnone, hunanswered]

/-! ### Calls whose routes are kept -/

section

variable (lib ord p source) (root : Root) (enforceTLS : Bool)

/-- The loop over the routes of a call does not give up. -/
def LoopSucceeds (c : Call) : Prop :=
  ∃ done, c.pos.proxy.routes.foldlM (computeRoute lib ord p source root enforceTLS c.pos)
    { validCond := startCondition c.pos.proxy, dynamicHeaders := proxyHeaders c.pos.proxy,
      routes := [] } = .ok done

/-- The call returns the routes that it collected. -/
structure Keeps (c : Call) : Prop where
  expands : c.Expands
  succeeds : LoopSucceeds lib ord p source root enforceTLS c

/-- A call that returns its routes makes another one. -/
def KeptStep (c c' : Call) : Prop :=
  Keeps lib ord p source root enforceTLS c ∧ Call.Step lib source c c'

/-- The call returns the answer for an include that leads nowhere, found by it or by a call
below it. -/
def AnswersMissing (c : Call) : Prop :=
  ∃ c', Relation.ReflTransGen (KeptStep lib ord p source root enforceTLS) c c' ∧
    Keeps lib ord p source root enforceTLS c' ∧
    ∃ inc ∈ c'.pos.proxy.includes, Unanswered lib source c'.pos.proxy inc

end

variable {root : Root} {enforceTLS : Bool}

theorem answersMissing_iff {c : Call} :
    AnswersMissing lib ord p source root enforceTLS c ↔
      Keeps lib ord p source root enforceTLS c ∧ ∃ inc ∈ c.pos.proxy.includes,
        Unanswered lib source c.pos.proxy inc ∨
          ∃ included, followed lib source c.pos.proxy inc = some included ∧
            AnswersMissing lib ord p source root enforceTLS (c.child inc included) := by
  constructor
  · rintro ⟨c', hpath, hkeeps, inc, hinc, hunanswered⟩
    rcases Relation.ReflTransGen.cases_head hpath with rfl | ⟨c₁, ⟨hfirst, hstep⟩, hrest⟩
    · exact ⟨hkeeps, inc, hinc, .inl hunanswered⟩
    · cases hstep with
      | @follow inc₁ included _ hinc₁ hfollowed =>
        exact ⟨hfirst, inc₁, hinc₁, .inr ⟨included, hfollowed, c', hrest, hkeeps, inc, hinc,
          hunanswered⟩⟩
  · rintro ⟨hkeeps, inc, hinc, hunanswered | ⟨included, hfollowed, c', hpath, hrest⟩⟩
    · exact ⟨c, .refl, hkeeps, inc, hinc, hunanswered⟩
    · exact ⟨c', .head ⟨hkeeps, .follow hkeeps.expands hinc hfollowed⟩ hpath, hrest⟩

/-- Whether the loop over routes succeeds depends on the dynamic headers alone. -/
theorem loopSucceeds_iff {c : Call} (vc : DetailedCondition) (routes : List Route) :
    LoopSucceeds lib ord p source root enforceTLS c ↔
      ∃ done, c.pos.proxy.routes.foldlM (computeRoute lib ord p source root enforceTLS c.pos)
        { validCond := vc, dynamicHeaders := proxyHeaders c.pos.proxy, routes } = .ok done := by
  have hstart : SameLoop (fun _ _ => True) (fun _ _ => True)
      ⟨startCondition c.pos.proxy, proxyHeaders c.pos.proxy, []⟩
      ⟨vc, proxyHeaders c.pos.proxy, routes⟩ := ⟨rfl, trivial, trivial⟩
  have hsteps := stepsAgree_eq lib ord p source keptByRecording_any
  exact (computeRouteLoop_agree root enforceTLS c.pos hsteps (fun _ => rfl)
    (fun _ _ _ _ _ _ => trivial) hstart fun _ _ _ => trivial).exists_ok_iff

/-! ### Routes with a property of their headers -/

section

variable {P : Route → Prop}
  (hheaders : ∀ r r' : Route, r.headerMatchConditions = r'.headerMatchConditions → P r → P r')
  (hcomputed : ∀ pos spec r, IsRouteOf lib ord p source root enforceTLS pos spec r → P r)
  (hmissing : ∀ pos inc, ¬ P (missingIncludeRoute root pos inc))

include hheaders in
theorem forall_expandPrefixMatches_iff (site : String) (routes : List Route) :
    (∀ r ∈ expandPrefixMatches ord site routes, P r) ↔ ∀ r ∈ routes, P r := by
  constructor
  · intro h r hr
    obtain ⟨r', hr', heq⟩ := exists_mem_expandPrefixMatches hr site
    exact hheaders r' r (by rw [heq]) (h r' hr')
  · intro h
    apply expandPrefixMatches_inv _ h
    intro r routingPrefix m hr _ _ _ rewrite _
    exact ⟨hheaders r _ rfl hr, hheaders r _ rfl hr⟩

include hcomputed in
theorem forall_computeRouteLoop_iff {pos : Position} {specs : List RouteSpec} {st done : LoopState}
    (hloop : specs.foldlM (computeRoute lib ord p source root enforceTLS pos) st = .ok done) :
    (∀ r ∈ done.routes, P r) ↔ ∀ r ∈ st.routes, P r := by
  refine foldlM_inv (fun s : LoopState => (∀ r ∈ s.routes, P r) ↔ ∀ r ∈ st.routes, P r) ?_ Iff.rfl
    hloop
  intro s hs spec _ s' hstep
  obtain ⟨r, hr, hroutes⟩ := computeRoute_routes hstep
  rw [hroutes, forall_mem_append, forall_mem_singleton]
  exact (and_iff_left (hcomputed pos spec r hr)).trans hs

include hheaders hcomputed hmissing in
/-- The routes of a call have the property iff it does not return the answer for an include
that leads nowhere. -/
theorem forall_computeRoutes_iff {fuel : Nat} {c : Call} (hfuel : Enough source fuel c.visited)
    (hpath : IsPath source c.visited) (hcached : Cached source c.pos.proxy) (st : State)
    (vc : DetailedCondition) :
    (∀ r ∈ (computeRoutes lib ord p source root enforceTLS fuel c.visited st vc c.pos).routes,
        P r) ↔
      ¬ AnswersMissing lib ord p source root enforceTLS c := by
  induction fuel generalizing c st vc with
  | zero =>
    obtain ⟨_, hzero⟩ := hfuel.pos hpath
    cases hzero
  | succ fuel ih =>
    have hnone : ¬ Keeps lib ord p source root enforceTLS c →
        ¬ AnswersMissing lib ord p source root enforceTLS c :=
      fun hnot h => hnot (answersMissing_iff.mp h).1
    rcases call_cases c with honPath | ⟨hfresh, hsame⟩ | hexpands
    · rw [computeRoutes_of_onPath honPath]
      exact iff_of_true (fun r hr => by cases hr) (hnone fun h => h.expands.fresh honPath)
    · rw [computeRoutes_of_identical hfresh hsame]
      refine iff_of_true (fun r hr => by cases hr) (hnone fun h => ?_)
      rw [h.expands.distinct] at hsame
      cases hsame
    · -- The routes of the includes, one include after the other.
      have hincludes : ∀ (incs : List Include), (∀ inc ∈ incs, inc ∈ c.pos.proxy.includes) →
          ∀ v : Visit,
          (∀ r ∈ (incs.foldl (computeInclude lib source (computeRoutes lib ord p source root
            enforceTLS fuel (c.visited ++ [c.pos.proxy])) root c.pos) v).routes, P r) ↔
          (∀ r ∈ v.routes, P r) ∧ ∀ inc ∈ incs, ¬ Unanswered lib source c.pos.proxy inc ∧
            ∀ included, followed lib source c.pos.proxy inc = some included →
              ¬ AnswersMissing lib ord p source root enforceTLS (c.child inc included) := by
        intro incs
        induction incs with
        | nil => simp
        | cons inc rest ihrest =>
          intro hincs v
          rw [foldl_cons, ihrest fun i hi => hincs i (mem_cons_of_mem _ hi),
            computeInclude_routes_iff, forall_mem_cons, and_assoc]
          refine and_congr Iff.rfl ?_
          refine and_congr ?_ Iff.rfl
          rw [and_comm]
          refine and_congr ⟨fun h hu => hmissing _ _ (h hu), fun h hu => absurd hu h⟩ ?_
          refine forall₂_congr fun included hfollowed => ?_
          exact ih (c := c.child inc included) (hfuel.concat c.pos.proxy)
            (hpath.concat hcached hexpands.fresh) (cached_of_followed hfollowed) v.state _
      have hvisit := hincludes c.pos.proxy.includes (fun _ h => h) { state := st, validCond := vc }
      rw [computeRoutes_of_expands hexpands, takeRoutes]
      rw [← afterIncludes] at hvisit
      generalize afterIncludes lib ord p source root enforceTLS fuel c.visited st vc c.pos = v
        at hvisit ⊢
      have hloop : LoopSucceeds lib ord p source root enforceTLS c ↔ _ :=
        loopSucceeds_iff v.validCond v.routes
      split
      · next herror =>
        refine iff_of_true (fun r hr => by cases hr) (hnone fun h => ?_)
        obtain ⟨done, hdone⟩ := hloop.mp h.succeeds
        cases herror.symm.trans hdone
      · next done hdone =>
        have hkeeps : Keeps lib ord p source root enforceTLS c :=
          ⟨hexpands, hloop.mpr ⟨done, hdone⟩⟩
        rw [forall_expandPrefixMatches_iff hheaders, forall_computeRouteLoop_iff hcomputed hdone,
          hvisit, answersMissing_iff]
        simp only [hkeeps, true_and, not_exists, not_and, not_or]
        simp

end

end HTTPProxyProcessor

/-! ## Routes in wildcard hosts -/

variable {lib : Stdlib} {ord : MapOrder}

namespace IngressProcessor

variable {p : IngressProcessor} {source : KubernetesCache}

/-- The host of a wildcard rule is the host that the rule names. -/
theorem Puts.guarded {host : String} {r : Route} (h : Puts lib ord p source host r)
    (hwild : isWildcard host = true) :
    wildcardDomainHeaderMatch host ∈ r.headerMatchConditions := by
  obtain ⟨name, ing, rules, rule, -, -, -, rfl, path, pathType, service, cert, serviceName, port,
    -, hroute⟩ := h
  have hhost : stringOrDefault rule.host "*" = rule.host := by
    unfold stringOrDefault at hwild ⊢
    split
    · next hempty =>
      rw [if_pos hempty] at hwild
      cases hwild
    · rfl
  rw [hhost] at hwild ⊢
  unfold route at hroute
  simp only [Option.bind_eq_bind, Option.bind_eq_some_iff] at hroute
  obtain ⟨reqHP, -, respHP, -, pathMatchCondition, -, hr⟩ := hroute
  cases hr
  simp [hostConditions, hwild]

end IngressProcessor

namespace HTTPProxyProcessor

variable {p : HTTPProxyProcessor} {source : KubernetesCache}

/-- No condition of an include is a regular expression. -/
theorem not_regex_of_mem_merge {conds : List MatchCondition} {m : HeaderMatchCondition}
    (h : m ∈ mergeHeaderMatchConditions conds) : m.matchType ≠ .regex := by
  obtain ⟨cond, -, hcond⟩ := mem_filterMap.mp h
  unfold headerMatchCondition at hcond
  repeat' split at hcond
  all_goals cases hcond
  all_goals exact fun hregex => by cases hregex

/-- The routes of a root with a wildcard host carry the condition of the host iff the root
does not answer for an include that leads nowhere. -/
theorem routesOf_guarded_iff {proxy : HTTPProxy} {vhost : VirtualHostSpec}
    (hcached : Cached source proxy) (hwild : isWildcard vhost.fqdn = true) :
    (∀ r ∈ routesOf lib ord p source proxy vhost,
        wildcardDomainHeaderMatch vhost.fqdn ∈ r.headerMatchConditions) ↔
      ¬ AnswersMissing lib ord p source { proxy, virtualHost := vhost } vhost.tls.isSome
        (Call.start proxy) := by
  refine forall_computeRoutes_iff (c := Call.start proxy) ?_ ?_ ?_
    (enough_includeFuel source []) (isPath_nil source) hcached _ _
  · intro r r' hsame hr
    rwa [← hsame]
  · rintro pos spec r ⟨st, base, lbPolicy, validCond, done, -, -, rfl⟩
    simp [finishRoute, hostConditions, hwild]
  · intro pos inc h
    exact not_regex_of_mem_merge h rfl

end HTTPProxyProcessor

/-- The authority of a request meets the regular expressions of a route. -/
def Route.AcceptsAuthority (r : Route) (name : List Char) : Prop :=
  ∀ m ∈ r.headerMatchConditions, m.name = ":authority" → m.matchType = .regex →
    m.invert = false → Regex.FullMatch m.value.toList name

/-- The routes in the hosts of a DAG are those that were there and those that the processors
for Ingresses and HTTPProxies put there. Those of wildcard hosts ask for one label before
the suffix of the host iff no root with a wildcard host answers for an include that leads
nowhere. -/
theorem wildcard_hosts_guarded_iff (lib : Stdlib) (ord : MapOrder) (ip : IngressProcessor)
    (p : HTTPProxyProcessor) (source : KubernetesCache) (extensions : List ExtensionCluster) :
    (∀ dag dag', IngressProcessor.run lib ord ip source dag = .ok dag' →
      ∀ host r, dag'.HasRoute host r →
        dag.HasRoute host r ∨ IngressProcessor.Puts lib ord ip source host r) ∧
    (∀ dag : DAG, dag.extensionClusters = extensions →
      ∀ host r, (HTTPProxyProcessor.run lib ord p source dag).HasRoute host r →
        dag.HasRoute host r ∨ HTTPProxyProcessor.Puts lib ord p source extensions host r) ∧
    ((∀ host r, IngressProcessor.Puts lib ord ip source host r ∨
          HTTPProxyProcessor.Puts lib ord p source extensions host r →
        isWildcard host = true → wildcardDomainHeaderMatch host ∈ r.headerMatchConditions) ↔
      ∀ proxy vhost, HTTPProxyProcessor.IsComputedRoot source proxy vhost →
        isWildcard vhost.fqdn = true →
        HTTPProxyProcessor.PassesChecks lib ord p source extensions proxy vhost →
        ¬ HTTPProxyProcessor.AnswersMissing lib ord p source { proxy, virtualHost := vhost }
          vhost.tls.isSome (HTTPProxyProcessor.Call.start proxy)) ∧
    (∀ host name, Regex.FullMatch (wildcardDomainHeaderMatch host).value.toList name ↔
      ∃ label, IsLabel label ∧ name = label ++ host.toList.drop 1) ∧
    ∀ host (r : Route), wildcardDomainHeaderMatch host ∈ r.headerMatchConditions →
      ∀ name, r.AcceptsAuthority name →
        ∃ label, IsLabel label ∧ name = label ++ host.toList.drop 1 := by
  refine ⟨?_, ?_, ?_, fullMatch_wildcard, ?_⟩
  · intro dag dag' hrun host r
    exact (IngressProcessor.run_within (IngressProcessor.adds_routes
      (S := fun host r => dag.HasRoute host r ∨ IngressProcessor.Puts lib ord ip source host r)
      fun _ _ h => .inr h) (.of_hasRoute fun _ _ h => .inl h) hrun).hasRoute
  · rintro dag rfl host r
    exact (HTTPProxyProcessor.run_within (HTTPProxyProcessor.adds_routes
      (S := fun host r => dag.HasRoute host r ∨ HTTPProxyProcessor.Puts lib ord p source
        dag.extensionClusters host r)
      fun _ _ h => .inr h) (.of_hasRoute fun _ _ h => .inl h)).hasRoute
  · constructor
    · intro hguarded proxy vhost hroot hwild hchecks
      rw [← HTTPProxyProcessor.routesOf_guarded_iff hroot.cached hwild]
      intro r hr
      exact hguarded vhost.fqdn r (.inr ⟨proxy, vhost, hroot, rfl, hchecks, hr⟩) hwild
    · rintro hanswered host r (hingress | ⟨proxy, vhost, hroot, rfl, hchecks, hr⟩) hwild
      · exact hingress.guarded hwild
      · have hnone := hanswered proxy vhost hroot hwild hchecks
        rw [← HTTPProxyProcessor.routesOf_guarded_iff hroot.cached hwild] at hnone
        exact hnone r hr
  · intro host r hmem name haccepts
    rw [← fullMatch_wildcard]
    exact haccepts _ hmem rfl rfl rfl

/-- A root for `*.h` that includes a proxy that does not exist. -/
def danglingRoot : HTTPProxy where
  name := "root"
  ns := "n"
  virtualHost := some { fqdn := "*.h" }
  includes := [{ name := "gone", conditions := [{ pathPrefix := "/gone" }] }]

def danglingDAG : DAG :=
  HTTPProxyProcessor.run .plain .storage {}
    { httpproxies := byName (·.toObjectMeta) [danglingRoot] } {}

/-- The host `*.h` answers for the missing proxy under names with two labels too. -/
theorem dangling_include_unguarded : isWildcard "*.h" = true ∧
    ∃ r, danglingDAG.HasRoute "*.h" r ∧ r.directResponse = some badGateway ∧
      wildcardDomainHeaderMatch "*.h" ∉ r.headerMatchConditions ∧
      r.AcceptsAuthority "a.b.h".toList := by
  have hentry : ((danglingDAG.virtualHosts.lookup "*.h").bind
      (·.routes.lookup "prefix: /gone type: string")).map
        (fun r => (r.directResponse, r.headerMatchConditions)) = some (some badGateway, []) := by
    decide +kernel
  obtain ⟨r, hr, hparts⟩ := Option.map_eq_some_iff.mp hentry
  obtain ⟨v, hv, hlookup⟩ := Option.bind_eq_some_iff.mp hr
  obtain ⟨hresponse, hheaders⟩ := Prod.mk.inj hparts
  refine ⟨by decide, r, .inl ⟨v, _, hv, hlookup⟩, hresponse, ?_, ?_⟩
  · rw [hheaders]
    exact not_mem_nil
  · intro m hm
    rw [hheaders] at hm
    cases hm

end Sesame.Dag
