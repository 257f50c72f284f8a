/-
# Policies

`internal/dag/policy.go`: the policies of routes, services and hosts, checked and
translated from their specifications.
-/

import Sesame.Lib.Replace
import Sesame.Lib.Sort
import Sesame.Status.Cache
import Sesame.Dag.Conditions

namespace Sesame.Dag

open List hiding set
open Lib Api

/-- The `%v` rendering of a list of messages. -/
def messageList (msgs : List String) : String := "[" ++ " ".intercalate msgs ++ "]"

/-! ## Retries and timeouts -/

def retryOn (ro : List String) : String := if ro = [] then "5xx" else ",".intercalate ro

variable (lib : Stdlib) (ord : MapOrder)

def retryPolicy (rp : Option Api.RetryPolicy) : Option RetryPolicy :=
  rp.map fun (rp : Api.RetryPolicy) =>
    { retryOn := retryOn rp.retryOn
      retriableStatusCodes := rp.retriableStatusCodes
      numRetries :=
        if rp.numRetries = -1 then 0
        else if rp.numRetries = 1 ∨ rp.numRetries = 0 then 1
        else rp.numRetries.toUInt64.toUInt32
      perTryTimeout :=
        match lib.parseDuration rp.perTryTimeout with
        | .ok duration => Timeout.durationSetting duration
        | .error _ => {} }

def timeoutPolicy (tp : Option Api.TimeoutPolicy) : Except String TimeoutPolicy :=
  match tp with
  | none => .ok {}
  | some tp =>
    match Timeout.parse lib tp.response with
    | .error err => .error ("error parsing response timeout: " ++ err)
    | .ok responseTimeout =>
      match Timeout.parse lib tp.idle with
      | .error err => .error ("error parsing idle timeout: " ++ err)
      | .ok idleTimeout => .ok { responseTimeout, idleTimeout }

def ingressRetryPolicy (ing : Ingress) : Option RetryPolicy :=
  let retryOn := Annotation.sesameAnnotation ing.toObjectMeta "retry-on"
  if retryOn = "" then none
  else
    let perTryTimeout :=
      match Annotation.perTryTimeout lib ing with
      | .ok setting => setting
      | .error _ => {}
    some { retryOn, numRetries := Annotation.numRetries ing, perTryTimeout }

def ingressTimeoutPolicy (ing : Ingress) : TimeoutPolicy :=
  let response := Annotation.sesameAnnotation ing.toObjectMeta "response-timeout"
  let response :=
    if response = "" then Annotation.sesameAnnotation ing.toObjectMeta "request-timeout"
    else response
  if response = "" then {}
  else
    match timeoutPolicy lib (some { response }) with
    | .ok tp => tp
    | .error _ => {}

/-! ## Header values -/

/-- The characters of `[\w-]`. -/
def isReqChar (c : Char) : Bool :=
  ('0' ≤ c && c ≤ '9') || ('A' ≤ c && c ≤ 'Z') || ('a' ≤ c && c ≤ 'z') || c = '_' || c = '-'

/-- A match of `%(%REQ\([\w-]+\)%)%` at the start of a text: the submatch and the
length of the match. -/
def matchReq (s : List Char) : Option (List Char × Nat) :=
  let name := (s.drop 6).takeWhile isReqChar
  if ['%', '%', 'R', 'E', 'Q', '('] <+: s ∧ name ≠ [] ∧
      [')', '%', '%'] <+: s.drop (6 + name.length) then
    some (['%', 'R', 'E', 'Q', '('] ++ name ++ [')', '%'], name.length + 9)
  else none

/-- Replace every match of `matchReq` by its submatch. -/
def replaceReq : Nat → List Char → List Char
  | _, [] => []
  | skip + 1, _ :: rest => replaceReq skip rest
  | 0, c :: rest =>
    match matchReq (c :: rest) with
    | some (inner, length) => inner ++ replaceReq (length - 1) rest
    | none => c :: replaceReq 0 rest

/-- The Envoy variables that a header value may use. -/
def envoyVariables : List String :=
  ["DOWNSTREAM_REMOTE_ADDRESS", "DOWNSTREAM_REMOTE_ADDRESS_WITHOUT_PORT",
    "DOWNSTREAM_LOCAL_ADDRESS", "DOWNSTREAM_LOCAL_ADDRESS_WITHOUT_PORT",
    "DOWNSTREAM_LOCAL_PORT", "DOWNSTREAM_LOCAL_URI_SAN", "DOWNSTREAM_PEER_URI_SAN",
    "DOWNSTREAM_LOCAL_SUBJECT", "DOWNSTREAM_PEER_SUBJECT", "DOWNSTREAM_PEER_ISSUER",
    "DOWNSTREAM_TLS_SESSION_ID", "DOWNSTREAM_TLS_CIPHER", "DOWNSTREAM_TLS_VERSION",
    "DOWNSTREAM_PEER_FINGERPRINT_256", "DOWNSTREAM_PEER_FINGERPRINT_1",
    "DOWNSTREAM_PEER_SERIAL", "DOWNSTREAM_PEER_CERT", "DOWNSTREAM_PEER_CERT_V_START",
    "DOWNSTREAM_PEER_CERT_V_END", "HOSTNAME", "PROTOCOL", "UPSTREAM_REMOTE_ADDRESS",
    "RESPONSE_FLAGS", "RESPONSE_CODE_DETAILS"]

/-- A variable name between doubled percent signs. -/
def quotedVariable (name : String) : List Char := ['%', '%'] ++ name.toList ++ ['%', '%']

def escapeHeaderValue (value : String) (dynamicHeaders : Map String String) : String :=
  let chars := value.toList
  if '%' ∉ chars then value
  else
    let escaped := replaceAll ['%'] ['%', '%'] 0 chars
    let escaped := (ord.range ("escapeHeaderValue " ++ value) dynamicHeaders).foldl
      (fun escaped e => replaceAll (quotedVariable e.1) e.2.toList 0 escaped) escaped
    let escaped := envoyVariables.foldl
      (fun escaped envoyVar =>
        replaceAll (quotedVariable envoyVar) (['%'] ++ envoyVar.toList ++ ['%']) 0 escaped) escaped
    String.ofList (replaceReq 0 escaped)

/-! ## Header policies -/

/-- `sort.Strings`, which also orders `sets.String.List`. -/
def sortStrings (s : List String) : List String := sortStable (fun a b => a < b) s

/-- The loop of `headersPolicyRoute` over the headers to set: the host rewrite and
the map so far. -/
def setHeader (allowHostRewrite : Bool) (dynamicHeaders : Map String String)
    (acc : String × Map String String) (entry : HeaderValue) :
    Except String (String × Map String String) :=
  let key := lib.canonicalHeaderKey entry.name
  if (acc.2.lookup key).isSome then .error ("duplicate header addition: " ++ lib.quote key)
  else if key = "Host" then
    if allowHostRewrite then .ok (entry.value, acc.2)
    else .error ("rewriting " ++ lib.quote key ++ " header is not supported")
  else if lib.isHTTPHeaderName key ≠ [] then
    .error ("invalid set header " ++ lib.quote key ++ ": " ++
      messageList (lib.isHTTPHeaderName key))
  else .ok (acc.1, acc.2.insert key (escapeHeaderValue ord entry.value dynamicHeaders))

/-- The loop of `headersPolicyRoute` over the headers to remove. -/
def removeHeader (acc : List String) (entry : String) : Except String (List String) :=
  let key := lib.canonicalHeaderKey entry
  if key ∈ acc then .error ("duplicate header removal: " ++ lib.quote key)
  else if lib.isHTTPHeaderName key ≠ [] then
    .error ("invalid remove header " ++ lib.quote key ++ ": " ++
      messageList (lib.isHTTPHeaderName key))
  else .ok (acc ++ [key])

def headersPolicyRoute (policy : Option Api.HeadersPolicy) (allowHostRewrite : Bool)
    (dynamicHeaders : Map String String) : Except String (Option HeadersPolicy) :=
  match policy with
  | none => .ok none
  | some policy => do
      let (hostRewrite, set) ←
        policy.set.foldlM (setHeader lib ord allowHostRewrite dynamicHeaders) ("", ∅)
      let remove ← policy.remove.foldlM (removeHeader lib) []
      pure (some { set, hostRewrite, remove := sortStrings remove })

/-- The loop of `headersPolicyService` over the default headers to set. -/
def setDefaultHeader (dynamicHeaders : Map String String) (set : Map String String)
    (entry : String × String) : Except String (Map String String) :=
  let key := lib.canonicalHeaderKey entry.1
  if key = "Host" then .error ("rewriting " ++ lib.quote key ++ " header is not supported")
  else if lib.isHTTPHeaderName key ≠ [] then
    .error ("invalid set header " ++ lib.quote key ++ ": " ++
      messageList (lib.isHTTPHeaderName key))
  else if (set.lookup key).isSome then .ok set
  else .ok (set.insert key (escapeHeaderValue ord entry.2 dynamicHeaders))

/-- The loop of `headersPolicyService` over the default headers to remove; `removed`
holds the user's entries and is not extended. -/
def removeDefaultHeader (removed : List String) (acc : List String) (entry : String) :
    Except String (List String) :=
  let key := lib.canonicalHeaderKey entry
  if lib.isHTTPHeaderName key ≠ [] then
    .error ("invalid set header " ++ lib.quote key ++ ": " ++
      messageList (lib.isHTTPHeaderName key))
  else .ok (if key ∈ removed then acc else acc ++ [key])

def headersPolicyService (defaultPolicy : Option HeadersPolicy)
    (policy : Option Api.HeadersPolicy) (dynamicHeaders : Map String String) :
    Except String (Option HeadersPolicy) :=
  match defaultPolicy with
  | none => headersPolicyRoute lib ord policy false dynamicHeaders
  | some defaultPolicy => do
      let userPolicy := (← headersPolicyRoute lib ord policy false dynamicHeaders).getD {}
      let set ← (ord.range "headersPolicyService" defaultPolicy.set).foldlM
        (setDefaultHeader lib ord dynamicHeaders) userPolicy.set
      let remove ← defaultPolicy.remove.foldlM (removeDefaultHeader lib userPolicy.remove)
        userPolicy.remove
      pure (some { userPolicy with set, remove })

/-- `Aggregate.Error`: distinct messages once, in order of appearance. -/
def aggregateError (errs : List String) : String :=
  match errs with
  | [] => ""
  | [err] => err
  | errs =>
    match errs.reverse.dedup.reverse with
    | [err] => err
    | distinct => "[" ++ ", ".intercalate distinct ++ "]"

/-- The state of `headersPolicyGatewayAPI`: the policy and the errors so far. -/
structure GatewayHeaders where
  policy : HeadersPolicy := {}
  errors : List String := []

/-- The errors for a header name that is already there or not valid. -/
def headerNameError (kind key : String) (present : Bool) : Option String :=
  if present then some ("duplicate header addition: " ++ lib.quote key)
  else if key = "Host" then none
  else if lib.isHTTPHeaderName key ≠ [] then
    some ("invalid " ++ kind ++ " header " ++ lib.quote key ++ ": " ++
      messageList (lib.isHTTPHeaderName key))
  else none

/-- The loop over the headers to set. -/
def gatewaySetHeader (acc : GatewayHeaders) (header : HTTPHeader) : GatewayHeaders :=
  let key := lib.canonicalHeaderKey header.name
  match headerNameError lib "set" key (acc.policy.set.lookup key).isSome with
  | some err => { acc with errors := acc.errors ++ [err] }
  | none =>
    if key = "Host" then { acc with policy := { acc.policy with hostRewrite := header.value } }
    else
      let value := escapeHeaderValue ord header.value ∅
      { acc with policy := { acc.policy with set := acc.policy.set.insert key value } }

/-- The loop over the headers to add. -/
def gatewayAddHeader (acc : GatewayHeaders) (header : HTTPHeader) : GatewayHeaders :=
  let key := lib.canonicalHeaderKey header.name
  match headerNameError lib "add" key (acc.policy.add.lookup key).isSome with
  | some err => { acc with errors := acc.errors ++ [err] }
  | none =>
    if key = "Host" then { acc with policy := { acc.policy with hostRewrite := header.value } }
    else
      let value := escapeHeaderValue ord header.value ∅
      { acc with policy := { acc.policy with add := acc.policy.add.insert key value } }

/-- The loop over the headers to remove. -/
def gatewayRemoveHeader (acc : GatewayHeaders) (header : String) : GatewayHeaders :=
  match removeHeader lib acc.policy.remove header with
  | .error err => { acc with errors := acc.errors ++ [err] }
  | .ok remove => { acc with policy := { acc.policy with remove } }

/-- `headersPolicyGatewayAPI`: the policy, and the errors it aggregates. -/
def headersPolicyGatewayAPI (hf : HTTPRequestHeaderFilter) : HeadersPolicy × List String :=
  let acc := hf.set.foldl (gatewaySetHeader lib ord) {}
  let acc := hf.add.foldl (gatewayAddHeader lib ord) acc
  let acc := hf.remove.foldl (gatewayRemoveHeader lib) acc
  ({ acc.policy with remove := sortStrings acc.policy.remove }, acc.errors)

/-! ## Cookies -/

def cookieRewritePolicy (p : Api.CookieRewritePolicy) : CookieRewritePolicy where
  name := p.name
  path := p.pathRewrite
  domain := p.domainRewrite
  secure :=
    match p.secure with
    | none => 0
    | some false => 1
    | some true => 2
  sameSite := p.sameSite

/-- The loop of `cookieRewritePolicies`. -/
def addCookiePolicy (acc : List CookieRewritePolicy) (p : Api.CookieRewritePolicy) :
    Except String (List CookieRewritePolicy) :=
  if acc.any fun q => q.name = p.name then
    .error ("duplicate cookie rewrite rule for cookie " ++ lib.quote p.name)
  else if p.pathRewrite.isNone ∧ p.domainRewrite.isNone ∧ p.secure.isNone ∧ p.sameSite.isNone then
    .error ("no attributes rewritten for cookie " ++ lib.quote p.name)
  else .ok (acc ++ [cookieRewritePolicy p])

def cookieRewritePolicies (policies : List Api.CookieRewritePolicy) :
    Except String (List CookieRewritePolicy) :=
  policies.foldlM (addCookiePolicy lib) []

/-! ## Health checks and load balancing -/

/-- `time.Second`, in nanoseconds. -/
def second : Int64 := 1000000000

def httpHealthCheckPolicy (hc : Option Api.HTTPHealthCheckPolicy) : Option HTTPHealthCheckPolicy :=
  hc.map fun hc =>
    { path := hc.path
      host := hc.host
      interval := hc.intervalSeconds * second
      timeout := hc.timeoutSeconds * second
      unhealthyThreshold := hc.unhealthyThresholdCount.toUInt64.toUInt32
      healthyThreshold := hc.healthyThresholdCount.toUInt64.toUInt32 }

def tcpHealthCheckPolicy (hc : Option Api.TCPHealthCheckPolicy) : Option TCPHealthCheckPolicy :=
  hc.map fun hc =>
    { interval := hc.intervalSeconds * second
      timeout := hc.timeoutSeconds * second
      unhealthyThreshold := hc.unhealthyThresholdCount
      healthyThreshold := hc.healthyThresholdCount }

def loadBalancerPolicy (lbp : Option LoadBalancerPolicy) : LoadBalancerStrategy :=
  match lbp with
  | none => .unset
  | some lbp =>
    if lbp.strategy = "WeightedLeastRequest" then .weightedLeastRequest
    else if lbp.strategy = "Random" then .random
    else if lbp.strategy = "Cookie" then .cookie
    else if lbp.strategy = "RequestHash" then .requestHash
    else .unset

/-- The state of the loop of `loadBalancerRequestHashPolicies`. -/
structure HashPolicies where
  kept : List RequestHashPolicy := []
  hashSourceIPSet : Bool := false
  headers : List String := []
  validCond : Status.DetailedCondition

def HashPolicies.ignore (acc : HashPolicies) (message : String) : HashPolicies :=
  { acc with validCond := acc.validCond.addWarning .specError "IgnoredField" message }

/-- The loop of `loadBalancerRequestHashPolicies`. -/
def addHashPolicy (acc : HashPolicies) (hashPolicy : Api.RequestHashPolicy) : HashPolicies :=
  match hashPolicy.hashSourceIP, hashPolicy.headerHashOptions with
  | false, none | true, some _ =>
    acc.ignore ("ignoring invalid request hash policy, must set exactly one of " ++
      "hashSourceIP or headerHashOptions")
  | true, none =>
    if acc.hashSourceIPSet then
      acc.ignore "ignoring invalid request hash policy, hashSourceIP specified multiple times"
    else
      { acc with
        kept := acc.kept ++ [{ terminal := hashPolicy.terminal, hashSourceIP := true }]
        hashSourceIPSet := true }
  | false, some name =>
    let headerName := lib.canonicalHeaderKey name
    let msgs := lib.isHTTPHeaderName headerName
    if msgs ≠ [] then
      acc.ignore ("ignoring invalid header hash policy options with invalid header name " ++
        lib.quote headerName ++ ": " ++ messageList msgs)
    else if headerName ∈ acc.headers then
      acc.ignore ("ignoring invalid header hash policy options with duplicated header name " ++
        headerName)
    else
      { acc with
        kept := acc.kept ++
          [{ terminal := hashPolicy.terminal, headerHashOptions := some headerName }]
        headers := headerName :: acc.headers }

/-- `loadBalancerRequestHashPolicies`: the policies, the strategy, and the condition
with the warnings. -/
def loadBalancerRequestHashPolicies (lbp : Option LoadBalancerPolicy)
    (validCond : Status.DetailedCondition) :
    List RequestHashPolicy × LoadBalancerStrategy × Status.DetailedCondition :=
  match lbp with
  | none => ([], .unset, validCond)
  | some lbp =>
    match loadBalancerPolicy (some lbp) with
    | .cookie =>
      let cookie : CookieHashOptions :=
        { cookieName := "X-Sesame-Session-Affinity", ttl := 0, path := "/" }
      ([{ cookieHashOptions := some cookie }], .cookie, validCond)
    | .requestHash =>
      let acc := lbp.requestHashPolicies.foldl (addHashPolicy lib) { validCond }
      if acc.kept = [] then
        let acc := acc.ignore ("ignoring invalid header hash policy options, setting " ++
          "load balancer strategy to default RoundRobin")
        ([], .roundRobin, acc.validCond)
      else (acc.kept, .requestHash, acc.validCond)
    | strategy => ([], strategy, validCond)

/-! ## Prefix replacements -/

/-- The loop of `prefixReplacementsAreValid`: the reason and message of an error. -/
def prefixReplacementsValidFrom (seen : List String) :
    List ReplacePrefix → Except (String × String) Unit
  | [] => .ok ()
  | r :: rest =>
    if r.pathPrefix ∈ seen then
      if r.pathPrefix ≠ "" then
        .error ("DuplicateReplacement", "duplicate replacement prefix '" ++ r.pathPrefix ++ "'")
      else .error ("AmbiguousReplacement", "ambiguous prefix replacement")
    else prefixReplacementsValidFrom (r.pathPrefix :: seen) rest

def prefixReplacementsAreValid (replacements : List ReplacePrefix) :
    Except (String × String) Unit :=
  prefixReplacementsValidFrom [] replacements

/-! ## Rate limits -/

/-- The loop over the response headers of a local rate limit. -/
def addResponseHeader (acc : Map String String) (header : HeaderValue) :
    Except String (Map String String) :=
  let key := lib.canonicalHeaderKey header.name
  if (acc.lookup key).isSome then .error ("duplicate header addition: " ++ lib.quote key)
  else if lib.isHTTPHeaderName key ≠ [] then
    .error ("invalid header name " ++ lib.quote key ++ ": " ++
      messageList (lib.isHTTPHeaderName key))
  else .ok (acc.insert key (escapeHeaderValue ord header.value ∅))

/-- The fill interval of a rate limit unit. -/
def fillInterval (unit : String) : Except String Int64 :=
  if unit = "second" then .ok second
  else if unit = "minute" then .ok (60 * second)
  else if unit = "hour" then .ok (3600 * second)
  else .error ("invalid unit " ++ lib.quote unit ++ " in local rate limit policy")

def localRateLimitPolicy (limit : Option Api.LocalRateLimitPolicy) :
    Except String (Option LocalRateLimitPolicy) :=
  match limit with
  | none => .ok none
  | some limit =>
    if limit.requests = 0 then
      .error ("invalid requests value " ++ toString limit.requests.toNat ++
        " in local rate limit policy")
    else do
      let interval ← fillInterval lib limit.unit
      let headers ← limit.responseHeadersToAdd.foldlM (addResponseHeader lib ord) ∅
      pure (some
        { maxTokens := limit.requests + limit.burst, tokensPerFill := limit.requests,
          fillInterval := interval, responseStatusCode := limit.responseStatusCode,
          responseHeadersToAdd := headers })

/-- The entries that one entry of a descriptor gives, one per field that is set. -/
def descriptorEntries (entry : Api.RateLimitDescriptorEntry) : List RateLimitDescriptorEntry :=
  (entry.genericKey.map fun e => .genericKey e.1 e.2).toList ++
  (entry.requestHeader.map fun e => .headerMatch e.1 e.2).toList ++
  (entry.requestHeaderValueMatch.map fun e =>
    .headerValueMatch (headerMatchConditions e.1) e.2.1 e.2.2).toList ++
  (if entry.remoteAddress then [.remoteAddress] else [])

def rateLimitDescriptor (entries : List Api.RateLimitDescriptorEntry) :
    Except String (List RateLimitDescriptorEntry) :=
  entries.foldlM
    (fun acc entry =>
      if (descriptorEntries entry).length ≠ 1 then
        .error "rate limit descriptor entry must have exactly one field set"
      else .ok (acc ++ descriptorEntries entry))
    []

def globalRateLimitPolicy (limit : Option GlobalRateLimitPolicy) :
    Except String (Option (List (List RateLimitDescriptorEntry))) :=
  match limit with
  | none => .ok none
  | some limit => do
      let descriptors ← limit.descriptors.mapM rateLimitDescriptor
      pure (some descriptors)

def rateLimitPolicy (limit : Option Api.RateLimitPolicy) : Except String (Option RateLimitPolicy) :=
  match limit with
  | none => .ok none
  | some limit =>
    if limit.locally.isNone ∧ limit.globally.isNone then .ok none
    else do
      let locally ← localRateLimitPolicy lib ord limit.locally
      let globally ← globalRateLimitPolicy limit.globally
      pure (some { locally, globally })

/-! ## Request hash policies -/

/-- What an entry of a request hash policy hashes, if that is one attribute: the source
IP, or the header of a valid canonical name. -/
def hashedAttribute (entry : Api.RequestHashPolicy) : Option (Option String) :=
  match entry.hashSourceIP, entry.headerHashOptions with
  | true, none => some none
  | false, some name =>
    let headerName := lib.canonicalHeaderKey name
    if lib.isHTTPHeaderName headerName = [] then some (some headerName) else none
  | _, _ => none

/-- The entries that are the first to hash their attribute. -/
def firstEntries (entries : List Api.RequestHashPolicy) : List Api.RequestHashPolicy :=
  (entries.zipIdx.filter fun (entry, i) => (hashedAttribute lib entry).isSome ∧
    hashedAttribute lib entry ∉ (entries.take i).map (hashedAttribute lib)).map Prod.fst

/-- The policy of an entry that hashes one attribute. -/
def hashPolicyOf (entry : Api.RequestHashPolicy) : RequestHashPolicy where
  terminal := entry.terminal
  hashSourceIP := entry.hashSourceIP
  headerHashOptions := entry.headerHashOptions.map lib.canonicalHeaderKey

theorem firstEntries_concat (entries : List Api.RequestHashPolicy)
    (entry : Api.RequestHashPolicy) :
    firstEntries lib (entries ++ [entry]) = firstEntries lib entries ++
      if (hashedAttribute lib entry).isSome ∧
        hashedAttribute lib entry ∉ entries.map (hashedAttribute lib) then [entry] else [] := by
  have hearlier : entries.zipIdx.filter (fun (e, i) => (hashedAttribute lib e).isSome ∧
      hashedAttribute lib e ∉ ((entries ++ [entry]).take i).map (hashedAttribute lib)) =
      entries.zipIdx.filter (fun (e, i) => (hashedAttribute lib e).isSome ∧
        hashedAttribute lib e ∉ (entries.take i).map (hashedAttribute lib)) := by
    refine filter_congr fun ⟨e, i⟩ he => ?_
    dsimp only
    rw [take_append_of_le_length (Nat.le_of_lt (snd_lt_of_mem_zipIdx he))]
  rw [firstEntries, zipIdx_append, filter_append, hearlier, map_append]
  simp only [firstEntries, zipIdx_cons, zipIdx_nil, filter_cons, Nat.zero_add,
    take_left, filter_nil, decide_eq_true_eq]
  split <;> rfl

/-- The loop has kept an entry that hashes the attribute. -/
def HashPolicies.Seen (acc : HashPolicies) : Option String → Prop
  | none => acc.hashSourceIPSet = true
  | some headerName => headerName ∈ acc.headers

/-- An entry is kept if it is the first to hash its attribute, or else dropped with a
warning. -/
theorem addHashPolicy_cases (acc : HashPolicies) (entry : Api.RequestHashPolicy) :
    (∃ a, hashedAttribute lib entry = some a ∧ ¬ acc.Seen a ∧
      (∀ b, (addHashPolicy lib acc entry).Seen b ↔ acc.Seen b ∨ b = a) ∧
      (addHashPolicy lib acc entry).kept = acc.kept ++ [hashPolicyOf lib entry] ∧
      (addHashPolicy lib acc entry).validCond = acc.validCond) ∨
    (∀ a, hashedAttribute lib entry = some a → acc.Seen a) ∧
      ∃ message, addHashPolicy lib acc entry = acc.ignore message := by
  obtain ⟨terminal, header, sourceIP⟩ := entry
  rcases sourceIP with - | - <;> rcases header with - | name
  · exact .inr ⟨by simp [hashedAttribute], _, rfl⟩
  · by_cases hvalid : lib.isHTTPHeaderName (lib.canonicalHeaderKey name) = []
    · by_cases hseen : lib.canonicalHeaderKey name ∈ acc.headers
      · refine .inr ⟨fun a ha => ?_, _, by simp [addHashPolicy, hvalid, hseen]; rfl⟩
        simp only [hashedAttribute, hvalid, if_true, Option.some.injEq] at ha
        exact ha ▸ hseen
      · refine .inl ⟨some (lib.canonicalHeaderKey name), ?_, hseen, ?_, ?_, ?_⟩
        · simp [hashedAttribute, hvalid]
        · rintro (- | other) <;> simp [addHashPolicy, hvalid, hseen, HashPolicies.Seen, or_comm]
        · simp [addHashPolicy, hvalid, hseen, hashPolicyOf]
        · simp [addHashPolicy, hvalid, hseen]
    · refine .inr ⟨?_, _, by simp [addHashPolicy, hvalid]; rfl⟩
      simp [hashedAttribute, hvalid]
  · by_cases hseen : acc.hashSourceIPSet = true
    · exact .inr ⟨fun a ha => Option.some.inj ha ▸ hseen, _, if_pos hseen⟩
    · refine .inl ⟨none, rfl, hseen, ?_, ?_, ?_⟩
      · rintro (- | other) <;> simp [addHashPolicy, hseen, HashPolicies.Seen]
      · simp [addHashPolicy, hseen, hashPolicyOf]
      · simp [addHashPolicy, hseen]
  · exact .inr ⟨by simp [hashedAttribute], _, rfl⟩

theorem HashPolicies.ignore_warnings (acc : HashPolicies) (message : String) :
    ∃ warning, (acc.ignore message).validCond.warnings = acc.validCond.warnings ++ [warning] :=
  ⟨_, rfl⟩

/-- The loop after the entries: what it kept and has seen, and that it warned of the
other entries. -/
structure HashPolicies.After (start : Status.DetailedCondition)
    (entries : List Api.RequestHashPolicy) (acc : HashPolicies) : Prop where
  kept : acc.kept = (firstEntries lib entries).map (hashPolicyOf lib)
  seen : ∀ a, acc.Seen a ↔ some a ∈ entries.map (hashedAttribute lib)
  warnings : ∃ warnings, acc.validCond.warnings = start.warnings ++ warnings ∧
    warnings.length + acc.kept.length = entries.length

/-- The loop over all entries. -/
theorem foldl_addHashPolicy (start : Status.DetailedCondition)
    (entries : List Api.RequestHashPolicy) :
    (entries.foldl (addHashPolicy lib) { validCond := start }).After lib start entries := by
  induction entries using reverseRecOn with
  | nil => exact ⟨rfl, fun a => by cases a <;> simp [HashPolicies.Seen], [], by simp, rfl⟩
  | append_singleton entries entry ih =>
    rw [foldl_concat]
    set acc := entries.foldl (addHashPolicy lib) { validCond := start } with hacc
    obtain ⟨warnings, hwarnings, hcount⟩ := ih.warnings
    obtain ⟨a, hattr, hnew, hseen, hkept, hcond⟩ | ⟨hseen, message, heq⟩ :=
      addHashPolicy_cases lib acc entry
    · have hfirst : some a ∉ entries.map (hashedAttribute lib) := fun h => hnew ((ih.seen a).mpr h)
      refine ⟨?_, fun b => ?_, warnings, by rw [hcond, hwarnings], ?_⟩
      · rw [hkept, ih.kept, firstEntries_concat, hattr, if_pos ⟨rfl, hfirst⟩, map_append]
        rfl
      · rw [hseen, ih.seen, map_append, mem_append, map_singleton, hattr,
          mem_singleton, Option.some.injEq]
      · rw [hkept, length_append, length_append, ← hcount]
        exact (Nat.add_assoc ..).symm
    · rw [heq]
      have hdropped : ¬ ((hashedAttribute lib entry).isSome ∧
          hashedAttribute lib entry ∉ entries.map (hashedAttribute lib)) := by
        rintro ⟨hsome, hfirst⟩
        obtain ⟨a, ha⟩ := Option.isSome_iff_exists.mp hsome
        exact hfirst (ha ▸ (ih.seen a).mp (hseen a ha))
      obtain ⟨warning, hwarning⟩ := acc.ignore_warnings message
      refine ⟨?_, fun b => ?_, warnings ++ [warning], ?_, ?_⟩
      · rw [firstEntries_concat, if_neg hdropped, append_nil]
        exact ih.kept
      · rw [map_append, mem_append, map_singleton, mem_singleton, ← ih.seen]
        exact ⟨.inl, fun h => h.elim id fun hb => hseen b hb.symm⟩
      · rw [hwarning, hwarnings, append_assoc]
      · rw [length_append, length_append, ← hcount]
        exact Nat.add_right_comm ..

/-- A request hash policy keeps the entries that are the first to hash their attribute,
falls back to round robin if there are none, and warns of every entry dropped. -/
theorem loadBalancerRequestHashPolicies_spec (entries : List Api.RequestHashPolicy)
    (validCond : Status.DetailedCondition) :
    let result := loadBalancerRequestHashPolicies lib
      (some { strategy := "RequestHash", requestHashPolicies := entries }) validCond
    let kept := firstEntries lib entries
    result.1 = kept.map (hashPolicyOf lib) ∧
      result.2.1 = (if kept = [] then .roundRobin else .requestHash) ∧
      ∃ warnings, result.2.2.warnings = validCond.warnings ++ warnings ∧
        warnings.length + kept.length = entries.length + if kept = [] then 1 else 0 := by
  have hloop := foldl_addHashPolicy lib validCond entries
  obtain ⟨warnings, hwarnings, hcount⟩ := hloop.warnings
  rw [hloop.kept, length_map] at hcount
  have hstrategy : loadBalancerPolicy
      (some { strategy := "RequestHash", requestHashPolicies := entries }) = .requestHash := rfl
  rw [loadBalancerRequestHashPolicies]
  dsimp only
  rw [hstrategy, hloop.kept]
  by_cases hnone : firstEntries lib entries = []
  · rw [hnone, if_pos rfl, if_pos rfl, if_pos map_nil]
    obtain ⟨warning, hwarning⟩ := HashPolicies.ignore_warnings
      (entries.foldl (addHashPolicy lib) { validCond })
      ("ignoring invalid header hash policy options, setting " ++
        "load balancer strategy to default RoundRobin")
    refine ⟨rfl, rfl, warnings ++ [warning], ?_, ?_⟩
    · rw [← append_assoc, ← hwarnings, ← hwarning]
    · rw [length_append, ← hcount, hnone]
      rfl
  · rw [if_neg hnone, if_neg hnone, if_neg (fun h => hnone (map_eq_nil_iff.mp h))]
    exact ⟨rfl, rfl, warnings, hwarnings, hcount⟩

end Sesame.Dag
