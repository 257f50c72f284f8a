/-
# Annotations

`internal/annotation` and `internal/ingressclass`: settings read from the
annotations of an object. Numbers and lists that cannot be read count as absent.
-/

import Sesame.Dag.Types

namespace Sesame.Annotation

open Lib Api

/-- The value of an annotation, empty if it is absent. -/
def value (obj : ObjectMeta) (key : String) : String := (obj.annotations.lookup key).getD ""

def sesameAnnotation (obj : ObjectMeta) (key : String) : String :=
  value obj ("projectsesame.io/" ++ key)

/-- The number that decimal digits spell. -/
def parseDigits (digits : List Char) : Option Nat :=
  if digits = [] ∨ ¬ digits.all Char.isDigit then none
  else some (digits.foldl (fun n d => 10 * n + (d.toNat - '0'.toNat)) 0)

/-- `strconv.ParseInt` in base 10, without a bound. -/
def parseSigned (s : String) : Option Int :=
  match s.toList with
  | '-' :: digits => (parseDigits digits).map fun n => -(n : Int)
  | '+' :: digits => (parseDigits digits).map fun n => (n : Int)
  | digits => (parseDigits digits).map fun n => (n : Int)

def parseUInt32 (s : String) : UInt32 :=
  match parseDigits s.toList with
  | some n => if n < UInt32.size then UInt32.ofNat n else 0
  | none => 0

def parseInt32 (s : String) : Int32 :=
  match parseSigned s with
  | some n => if Int32.minValue.toInt ≤ n ∧ n ≤ Int32.maxValue.toInt then Int32.ofInt n else 0
  | none => 0

def isSpace (c : Char) : Bool :=
  let n := c.toNat
  (9 ≤ n && n ≤ 13) || n = 32 || n = 0x85 || n = 0xa0 || n = 0x1680 ||
    (0x2000 ≤ n && n ≤ 0x200a) || n = 0x2028 || n = 0x2029 || n = 0x202f || n = 0x205f ||
    n = 0x3000

def trimSpace (s : List Char) : List Char :=
  ((s.dropWhile isSpace).reverse.dropWhile isSpace).reverse

/-- The non-empty elements of a comma-separated list, without surrounding space. -/
def commaList (s : String) : List String :=
  ((s.toList.splitOn ',').map fun v => String.ofList (trimSpace v)).filter (· ≠ "")

/-- `ParseUpstreamProtocols`: the protocol of each port, by name or number. -/
def parseUpstreamProtocols (obj : ObjectMeta) : Map String Dag.UpstreamProtocol :=
  let ports (text : String) := commaList (value obj ("projectsesame.io/upstream-protocol." ++ text))
  let add (protocol : Dag.UpstreamProtocol) (up : Map String Dag.UpstreamProtocol)
      (ports : List String) := ports.foldl (fun up port => up.insert port protocol) up
  add .tls (add .h2c (add .h2 ∅ (ports "h2")) (ports "h2c")) (ports "tls")

def httpAllowed (i : Ingress) : Bool :=
  value i.toObjectMeta "kubernetes.io/ingress.allow-http" ≠ "false"

def tlsRequired (i : Ingress) : Bool :=
  value i.toObjectMeta "ingress.kubernetes.io/force-ssl-redirect" = "true"

def websocketRoutes (i : Ingress) : List String :=
  commaList (value i.toObjectMeta "projectsesame.io/websocket-routes")

def numRetries (i : Ingress) : UInt32 :=
  let val := parseInt32 <| sesameAnnotation i.toObjectMeta "num-retries"
  if val = -1 then 0
  else if val = 1 ∨ val = 0 then 1
  else val.toUInt32

def perTryTimeout (lib : Stdlib) (i : Ingress) : Except String Timeout.Setting :=
  Timeout.parse lib <| sesameAnnotation i.toObjectMeta "per-try-timeout"

def ingressClass (obj : ObjectMeta) : String :=
  match obj.annotations.lookup "projectsesame.io/ingress.class" with
  | some class_ => class_
  | none => value obj "kubernetes.io/ingress.class"

def minTLSVersion (version : String) (defaultVal : Dag.TLSVersion) : Dag.TLSVersion :=
  if version = "1.2" then .v12
  else if version = "1.3" then .v13
  else defaultVal

def maxConnections (obj : ObjectMeta) : UInt32 :=
  parseUInt32 <| sesameAnnotation obj "max-connections"

def maxPendingRequests (obj : ObjectMeta) : UInt32 :=
  parseUInt32 <| sesameAnnotation obj "max-pending-requests"

def maxRequests (obj : ObjectMeta) : UInt32 := parseUInt32 <| sesameAnnotation obj "max-requests"

def maxRetries (obj : ObjectMeta) : UInt32 := parseUInt32 <| sesameAnnotation obj "max-retries"

/-! ## Ingress classes -/

def defaultClassName : String := "sesame"

/-- `ingressclass.matches`. -/
def classMatches (objIngressClass sesameIngressClass : String) : Bool :=
  if sesameIngressClass = "" then objIngressClass = "" ∨ objIngressClass = defaultClassName
  else objIngressClass = sesameIngressClass

/-- The class of an object, or that of its specification, matches. -/
def matchesClass (obj : ObjectMeta) (specClass ingressClassName : String) : Bool :=
  if ingressClass obj ≠ "" then classMatches (ingressClass obj) ingressClassName
  else classMatches specClass ingressClassName

def matchesIngress (obj : Ingress) (ingressClassName : String) : Bool :=
  matchesClass obj.toObjectMeta (obj.ingressClassName.getD "") ingressClassName

def matchesHTTPProxy (obj : HTTPProxy) (ingressClassName : String) : Bool :=
  matchesClass obj.toObjectMeta obj.ingressClassName ingressClassName

end Sesame.Annotation
