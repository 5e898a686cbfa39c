import TaintForge.Env.Document
import TaintForge.Lib.IpAddress
import Mathlib.Data.List.Dedup
import Mathlib.Data.Rat.Floor

/-!
# The egress policy

Which requests of a sample may leave the sandbox.  A policy is read from a JSON document: rules that allow
destinations, and networks and ports that are never reached.  The texts of the exceptions of `int` and
`float` are left out, and so is the reading of the file before its JSON value is there.

* `parseDestinationRule`, `loadEgressPolicy`: the reader of a policy.
* `EgressPolicy.validateExternalIp`, `validateResolvedIps`, `evaluateRequest`: the decisions.
-/

namespace TaintForge

/-! ### Built-in functions -/

/-- The built-in functions whose tables depend on the interpreter: `str.lower`, `str.upper`, the value of a
decimal digit, `str` of what is not a string, and `float` of an integer, with nothing where it
overflows. -/
structure PyBuiltins where
  lower : PyStr → PyStr
  upper : PyStr → PyStr
  decimalDigit : ℕ → Option ℕ
  str : Json → PyStr
  float : ℤ → Option PyFloat

/-- Why a policy is not read, or a request not decided. -/
inductive EgressPolicyError
  | invalid (message : PyStr)
  | conversion
  deriving DecidableEq

/-- `raise EgressPolicyError(message)` if the condition does not hold. -/
def requirePolicy (p : Prop) [Decidable p] (message : PyStr) : Except EgressPolicyError Unit :=
  if p then .ok () else .error (.invalid message)

@[simp] theorem requirePolicy_eq_ok {p : Prop} [Decidable p] {message : PyStr} {u : Unit} :
    requirePolicy p message = .ok u ↔ p := by
  unfold requirePolicy
  split
  · rename_i h
    exact iff_of_true rfl h
  · rename_i h
    exact iff_of_false (by nofun) h

namespace PyBuiltins

variable (builtins : PyBuiltins)

/-- `str(value)`. -/
def strOf : Json → PyStr
  | .str s => s
  | j => builtins.str j

/-- The digits of `int(text)`, with how many there are; an underscore may stand between two of them. -/
def intDigits : PyStr → ℕ → ℕ → Bool → Option (ℕ × ℕ)
  | [], n, count, afterDigit => if afterDigit then some (n, count) else none
  | c :: s, n, count, afterDigit =>
    if c = 0x5F then if afterDigit then intDigits s n count false else none
    else (builtins.decimalDigit c).bind fun d => intDigits s (n * 10 + d) (count + 1) true

/-- The number without its sign. -/
def natOf (s : PyStr) : Option ℤ :=
  (builtins.intDigits s 0 0 false).bind fun (n, count) =>
    if count ≤ maxStrDigits then some (n : ℤ) else none

/-- `int(text)`. -/
def intOfText (s : PyStr) : Option ℤ :=
  match s.strip with
  | 0x2D :: digits => (builtins.natOf digits).map (-·)
  | 0x2B :: digits => builtins.natOf digits
  | digits => builtins.natOf digits

/-- `int(value)`. -/
def intOf : Json → Except EgressPolicyError ℤ
  | .int n => .ok n
  | .bool b => .ok (if b then 1 else 0)
  | .float (.finite q) => .ok (if q < 0 then ⌈q⌉ else ⌊q⌋)
  | .str s => (builtins.intOfText s).elim (.error .conversion) .ok
  | _ => .error .conversion

end PyBuiltins

/-- `bool(value)`. -/
def Json.truthy : Json → Bool
  | .null => false
  | .bool b => b
  | .int n => n != 0
  | .float (.finite q) => q != 0
  | .float _ => true
  | .str s => s != []
  | .arr items => !items.isEmpty
  | .obj fields => !fields.isEmpty

/-- `fields.get(key, default)`. -/
def fieldOr (key : PyStr) (value : Json) (fields : List (PyStr × Json)) : Json :=
  (Json.lookup key fields).getD value

/-- `tuple(sorted(set(values)))`. -/
def sortedSet {α : Type} [DecidableEq α] [LE α] [DecidableLE α] (values : List α) : List α :=
  values.dedup.insertionSort (· ≤ ·)

/-! ### The policy -/

/-- `NetworkMode`. -/
inductive NetworkMode
  | none
  | emulated
  | replay
  | brokeredFetch
  | brokeredRelay
  | brokeredRecord
  deriving DecidableEq

def NetworkMode.members : List NetworkMode :=
  [.none, .emulated, .replay, .brokeredFetch, .brokeredRelay, .brokeredRecord]

def NetworkMode.value : NetworkMode → PyStr
  | .none => py "none"
  | .emulated => py "emulated"
  | .replay => py "replay"
  | .brokeredFetch => py "brokered_fetch"
  | .brokeredRelay => py "brokered_relay"
  | .brokeredRecord => py "brokered_record"

def defaultBlockedNetworks : List PyStr :=
  [py "0.0.0.0/8", py "10.0.0.0/8", py "100.64.0.0/10", py "127.0.0.0/8", py "169.254.0.0/16",
    py "172.16.0.0/12", py "192.0.0.0/24", py "192.0.2.0/24", py "192.168.0.0/16", py "198.18.0.0/15",
    py "198.51.100.0/24", py "203.0.113.0/24", py "224.0.0.0/4", py "240.0.0.0/4", py "::/128",
    py "::1/128", py "fc00::/7", py "fe80::/10", py "ff00::/8", py "2001:db8::/32"]

def defaultBlockedPorts : List ℤ := [22, 23, 25, 445, 2375, 2376, 3389, 6379, 11211]

def fetchMethods : List PyStr := [py "GET", py "HEAD"]

def fetchSchemes : List PyStr := [py "http", py "https"]

structure GlobalLimits where
  maxConnections : ℤ
  maxUploadedBytes : ℤ
  maxDownloadedBytes : ℤ
  maxDurationSeconds : ℤ
  requestsPerSecond : PyFloat
  deriving DecidableEq

structure DestinationRule where
  name : PyStr
  hosts : List PyStr
  ips : List PyStr
  schemes : List PyStr
  ports : List ℤ
  methods : List PyStr
  maxConnections : ℤ
  maxRequestBytes : ℤ
  maxResponseBytes : ℤ
  timeoutSeconds : ℤ
  cacheResponse : Bool
  allowRedirects : Bool
  maxRedirects : ℤ
  verifyTls : Bool
  deriving DecidableEq

structure EgressDecision where
  allowed : Bool
  reason : PyStr
  ruleName : Option PyStr
  deriving DecidableEq

/-- A policy that its constructor accepts: the fields, and what `__post_init__` has checked and set. -/
structure EgressPolicy where
  schemaVersion : ℤ
  mode : NetworkMode
  defaultAction : PyStr
  rules : List DestinationRule
  blockedNetworks : List PyStr
  blockedPorts : List ℤ
  blockNonGlobalIps : Bool
  globalLimits : GlobalLimits
  parsedBlockedNetworks : List IpNetwork
  schemaVersion_eq : schemaVersion = 1
  defaultAction_eq : defaultAction = py "deny"
  mode_mem : mode ∈ [NetworkMode.brokeredFetch, NetworkMode.brokeredRelay]
  parsed : blockedNetworks.map ipNetwork = parsedBlockedNetworks.map some

/-- The arguments of `evaluate_request`. -/
structure EgressRequest where
  host : Option PyStr
  ip : Option PyStr
  scheme : PyStr
  port : ℤ
  method : PyStr

section Decisions

variable (builtins : PyBuiltins)

/-- `normalize_host`. -/
def normalizeHost (value : PyStr) : Except EgressPolicyError PyStr := do
  let host := PyStr.rstripOf 0x2E (builtins.lower value.strip)
  requirePolicy (host ≠ []) (py "Host must not be empty")
  requirePolicy (0x2A ∉ host) (py "Wildcard hosts are disabled in brokered_fetch MVP")
  return host

/-- `normalize_host(host) if host else None`. -/
def normalizedHost : Option PyStr → Except EgressPolicyError (Option PyStr)
  | some (c :: host) => (normalizeHost builtins (c :: host)).map some
  | _ => .ok none

namespace DestinationRule

/-- `DestinationRule.matches_identity`. -/
def matchesIdentity (rule : DestinationRule) (host ip : Option PyStr) :
    Except EgressPolicyError Bool := do
  let normalized ← normalizedHost builtins host
  return (normalized.any fun host => decide (host ∈ rule.hosts)) ||
    ip.any fun ip => ip != [] && decide (ip ∈ rule.ips)

/-- `DestinationRule.matches_request`. -/
def matchesRequest (rule : DestinationRule) (request : EgressRequest) :
    Except EgressPolicyError Bool := do
  let identity ← rule.matchesIdentity builtins request.host request.ip
  return identity && decide (builtins.lower request.scheme ∈ rule.schemes) &&
    decide (request.port ∈ rule.ports) && decide (builtins.upper request.method ∈ rule.methods)

end DestinationRule

namespace EgressPolicy

/-- `EgressPolicy.validate_external_ip`. -/
def validateExternalIp (policy : EgressPolicy) (value : PyStr) : Except EgressPolicyError Unit :=
  match ipAddress value with
  | none => .error (.invalid (py "Invalid destination IP: " ++ value))
  | some address =>
    match policy.parsedBlockedNetworks.find? fun network =>
        decide (address.version = network.version) && network.contains address with
    | some network =>
      .error (.invalid (py "Destination IP is blocked by " ++ network.str ++ py ": " ++ value))
    | none =>
      requirePolicy (¬(policy.blockNonGlobalIps ∧ ¬address.isGlobal))
        (py "Destination IP is not globally routable: " ++ value)

/-- The loop of `validate_resolved_ips`. -/
def validateIps (policy : EgressPolicy) : List PyStr → Except EgressPolicyError (List PyStr)
  | [] => .ok []
  | value :: values => do
    policy.validateExternalIp value
    let validated ← policy.validateIps values
    return value :: validated

/-- `EgressPolicy.validate_resolved_ips`. -/
def validateResolvedIps (policy : EgressPolicy) (host : PyStr) (addresses : List PyStr) :
    Except EgressPolicyError (List PyStr) := do
  let validated ← policy.validateIps addresses
  requirePolicy (validated ≠ []) (py "DNS returned no usable addresses for host: " ++ host)
  return validated

/-- The loop of `evaluate_request` over the rules: the first one that matches. -/
def firstMatch (request : EgressRequest) :
    List DestinationRule → Except EgressPolicyError (Option DestinationRule)
  | [] => .ok none
  | rule :: rules => do
    match ← rule.matchesRequest builtins request with
    | true => return some rule
    | false => firstMatch request rules

/-- The end of `evaluate_request`, where neither the port nor the address is blocked. -/
def evaluateRules (policy : EgressPolicy) (request : EgressRequest) :
    Except EgressPolicyError EgressDecision := do
  match ← firstMatch builtins request policy.rules with
  | some rule => return ⟨true, py "matched_allow_rule", some rule.name⟩
  | none => return ⟨false, py "no_matching_allow_rule", none⟩

/-- The address test of `evaluate_request`. -/
def validateRequestIp (policy : EgressPolicy) : Option PyStr → Except EgressPolicyError Unit
  | none => .ok ()
  | some ip => policy.validateExternalIp ip

/-- The text of an error. -/
def errorText : EgressPolicyError → PyStr
  | .invalid message => message
  | .conversion => []

/-- `EgressPolicy.evaluate_request`. -/
def evaluateRequest (policy : EgressPolicy) (request : EgressRequest) :
    Except EgressPolicyError EgressDecision :=
  let request := { request with
    scheme := builtins.lower request.scheme, method := builtins.upper request.method }
  if request.port ∈ policy.blockedPorts then
    .ok ⟨false, py "destination_port_blocked:" ++ decimalInt request.port, none⟩
  else
    match policy.validateRequestIp request.ip with
    | .error error => .ok ⟨false, py "destination_ip_blocked:" ++ errorText error, none⟩
    | .ok () => policy.evaluateRules builtins request

end EgressPolicy

end Decisions

/-! ### Reading a policy -/

section Reader

variable (builtins : PyBuiltins)

/-- `require_dict`. -/
def requirePolicyDict (context : PyStr) : Json → Except EgressPolicyError (List (PyStr × Json))
  | .obj fields => .ok fields
  | _ => .error (.invalid (context ++ py " must be an object"))

/-- `require_list`. -/
def requirePolicyList (context : PyStr) : Json → Except EgressPolicyError (List Json)
  | .null => .ok []
  | .arr items => .ok items
  | _ => .error (.invalid (context ++ py " must be a list"))

/-- `require_positive_int`. -/
def requirePositiveInt (context : PyStr) : Json → Except EgressPolicyError ℤ
  | .int n =>
    if 0 < n then .ok n else .error (.invalid (context ++ py " must be a positive integer"))
  | _ => .error (.invalid (context ++ py " must be a positive integer"))

/-- A string of a list. -/
def requirePolicyString (context : PyStr) : Json → Except EgressPolicyError PyStr
  | .str s => .ok s
  | _ => .error (.invalid (context ++ py " must be a string"))

/-- `context[index]`. -/
def elementContext (context : PyStr) (index : ℕ) : PyStr := context ++ py "[" ++ decimal index ++ py "]"

/-- The loops over `enumerate(values)`, from an index. -/
def parseEach {α : Type} (context : PyStr) (parse : PyStr → Json → Except EgressPolicyError α) :
    ℕ → List Json → Except EgressPolicyError (List α)
  | _, [] => .ok []
  | index, value :: values => do
    let x ← parse (elementContext context index) value
    let xs ← parseEach context parse (index + 1) values
    return x :: xs

/-- The elements of a list. -/
def parseElements {α : Type} (context : PyStr) (parse : PyStr → Json → Except EgressPolicyError α)
    (values : Json) : Except EgressPolicyError (List α) := do
  let items ← requirePolicyList context values
  parseEach context parse 0 items

/-- A port. -/
def parsePort (context : PyStr) (value : Json) : Except EgressPolicyError ℤ := do
  let port ← requirePositiveInt context value
  requirePolicy (port ≤ 65535) (context ++ py " is out of range: " ++ decimalInt port)
  return port

/-- `parse_ports`. -/
def parsePorts (values : Json) (context : PyStr) : Except EgressPolicyError (List ℤ) := do
  let ports ← parseElements context parsePort values
  requirePolicy (ports ≠ []) (context ++ py " must not be empty")
  return sortedSet ports

/-- A host. -/
def parseHost (context : PyStr) (value : Json) : Except EgressPolicyError PyStr := do
  let host ← requirePolicyString context value
  normalizeHost builtins host

/-- `parse_hosts`. -/
def parseHosts (values : Json) (context : PyStr) : Except EgressPolicyError (List PyStr) := do
  let hosts ← parseElements context (parseHost builtins) values
  return sortedSet hosts

/-- An address, as it is written in the usual form. -/
def parseIp (context : PyStr) (value : Json) : Except EgressPolicyError PyStr := do
  let text ← requirePolicyString context value
  match ipAddress text with
  | some address => return address.str
  | none => .error (.invalid (context ++ py " is not an IP address: " ++ text))

/-- `parse_ips`. -/
def parseIps (values : Json) (context : PyStr) : Except EgressPolicyError (List PyStr) := do
  let ips ← parseElements context parseIp values
  return sortedSet ips

/-- A word that is allowed. -/
def parseWord (allowed : List PyStr) (normalize : PyStr → PyStr) (context : PyStr) (value : Json) :
    Except EgressPolicyError PyStr := do
  let text ← requirePolicyString context value
  requirePolicy (normalize text ∈ allowed)
    (py "Unsupported value in " ++ context ++ py ": " ++ text)
  return normalize text

/-- `parse_strings`. -/
def parseStrings (values : Json) (context : PyStr) (allowed : List PyStr) (uppercase : Bool) :
    Except EgressPolicyError (List PyStr) := do
  let normalize := if uppercase then builtins.upper else builtins.lower
  let words ← parseElements context (parseWord allowed normalize) values
  requirePolicy (words ≠ []) (context ++ py " must not be empty")
  return sortedSet words

/-- The name of a rule. -/
def parseRuleName (context : PyStr) : Json → Except EgressPolicyError PyStr
  | .str name =>
    if name.strip ≠ [] then .ok name
    else .error (.invalid (context ++ py ".name must be a non-empty string"))
  | _ => .error (.invalid (context ++ py ".name must be a non-empty string"))

/-- `parse_destination_rule`. -/
def parseDestinationRule (mode : NetworkMode) (index : ℕ) (raw : Json) :
    Except EgressPolicyError DestinationRule := do
  let context := elementContext (py "allowed_destinations") index
  let raw ← requirePolicyDict context raw
  let name ← parseRuleName context (fieldOr (py "name") (.str (py "rule-" ++ decimal index)) raw)
  let rules ← requirePolicyDict (context ++ py ".match") (fieldOr (py "match") (.obj []) raw)
  let hosts ← parseHosts builtins (fieldOr (py "hosts") (.arr []) rules) (context ++ py ".match.hosts")
  let ips ← parseIps (fieldOr (py "ips") (.arr []) rules) (context ++ py ".match.ips")
  requirePolicy (¬(hosts = [] ∧ ips = [])) (context ++ py ".match must contain hosts or ips")
  let schemes ← parseStrings builtins (fieldOr (py "schemes") (.arr (fetchSchemes.map .str)) raw)
    (context ++ py ".schemes") fetchSchemes false
  let methods ← parseStrings builtins (fieldOr (py "methods") (.arr (fetchMethods.map .str)) raw)
    (context ++ py ".methods") fetchMethods true
  requirePolicy (¬(mode = .brokeredFetch ∧ ¬∀ method ∈ methods, method ∈ fetchMethods))
    (py "brokered_fetch only supports GET and HEAD")
  let ports ← parsePorts (fieldOr (py "ports") (.arr [.int 80, .int 443]) raw) (context ++ py ".ports")
  let maxConnections ← requirePositiveInt (context ++ py ".max_connections")
    (fieldOr (py "max_connections") (.int 2) raw)
  let maxRequestBytes ← requirePositiveInt (context ++ py ".max_request_bytes")
    (fieldOr (py "max_request_bytes") (.int 65536) raw)
  let maxResponseBytes ← requirePositiveInt (context ++ py ".max_response_bytes")
    (fieldOr (py "max_response_bytes") (.int 8388608) raw)
  let timeoutSeconds ← requirePositiveInt (context ++ py ".timeout_seconds")
    (fieldOr (py "timeout_seconds") (.int 10) raw)
  let maxRedirects ← builtins.intOf (fieldOr (py "max_redirects") (.int 0) raw)
  return {
    name := name.strip
    hosts := hosts
    ips := ips
    schemes := schemes
    ports := ports
    methods := methods
    maxConnections := maxConnections
    maxRequestBytes := maxRequestBytes
    maxResponseBytes := maxResponseBytes
    timeoutSeconds := timeoutSeconds
    cacheResponse := (fieldOr (py "cache_response") (.bool true) raw).truthy
    allowRedirects := (fieldOr (py "allow_redirects") (.bool false) raw).truthy
    maxRedirects := maxRedirects
    verifyTls := (fieldOr (py "verify_tls") (.bool true) raw).truthy }

/-- The rules, from an index. -/
def parseDestinationRules (mode : NetworkMode) :
    ℕ → List Json → Except EgressPolicyError (List DestinationRule)
  | _, [] => .ok []
  | index, raw :: items => do
    let rule ← parseDestinationRule builtins mode index raw
    let rules ← parseDestinationRules mode (index + 1) items
    return rule :: rules

/-- `requests_per_second`, as a float. -/
def parseRequestsPerSecond : Json → Except EgressPolicyError PyFloat
  | .int n =>
    if 0 < n then (builtins.float n).elim (.error .conversion) .ok
    else .error (.invalid (py "global_limits.requests_per_second must be positive"))
  | .float (.finite q) =>
    if 0 < q then .ok (.finite q)
    else .error (.invalid (py "global_limits.requests_per_second must be positive"))
  | .float (.inf false) => .ok (.inf false)
  | .float .nan => .ok .nan -- `nan <= 0` is false.
  | _ => .error (.invalid (py "global_limits.requests_per_second must be positive"))

/-- `parse_global_limits`. -/
def parseGlobalLimits (raw : Json) : Except EgressPolicyError GlobalLimits := do
  let raw ← requirePolicyDict (py "global_limits") (if raw.truthy then raw else .obj [])
  let requestsPerSecond ← parseRequestsPerSecond builtins
    (fieldOr (py "requests_per_second") (.float (.finite 1)) raw)
  let maxConnections ← requirePositiveInt (py "global_limits.max_connections")
    (fieldOr (py "max_connections") (.int 4) raw)
  let maxUploadedBytes ← requirePositiveInt (py "global_limits.max_uploaded_bytes")
    (fieldOr (py "max_uploaded_bytes") (.int 131072) raw)
  let maxDownloadedBytes ← requirePositiveInt (py "global_limits.max_downloaded_bytes")
    (fieldOr (py "max_downloaded_bytes") (.int 16777216) raw)
  let maxDurationSeconds ← requirePositiveInt (py "global_limits.max_duration_seconds")
    (fieldOr (py "max_duration_seconds") (.int 30) raw)
  return ⟨maxConnections, maxUploadedBytes, maxDownloadedBytes, maxDurationSeconds, requestsPerSecond⟩

/-- `NetworkMode(text)`. -/
def networkModeOf (text : PyStr) : Except EgressPolicyError NetworkMode :=
  match NetworkMode.members.find? fun mode => mode.value == text with
  | some mode => .ok mode
  | none => .error (.invalid (py "egress_policy.mode must be brokered_fetch or brokered_relay"))

/-- The check of the blocked networks, from an index. -/
def checkNetworks : ℕ → List PyStr → Except EgressPolicyError Unit
  | _, [] => .ok ()
  | index, value :: values => do
    requirePolicy (ipNetwork value).isSome
      (elementContext (py "blocked_networks") index ++ py " is invalid: " ++ value)
    checkNetworks (index + 1) values

/-- Networks that can all be read, one after another. -/
def parseNetworks : List PyStr → Option (List IpNetwork)
  | [] => some []
  | value :: values => (ipNetwork value).bind fun network => (parseNetworks values).map (network :: ·)

theorem parseNetworks_eq_some {values : List PyStr} {networks : List IpNetwork}
    (h : parseNetworks values = some networks) : values.map ipNetwork = networks.map some := by
  induction values generalizing networks with
  | nil =>
    rw [parseNetworks, Option.some.injEq] at h
    rw [← h]
    rfl
  | cons value values ih =>
    obtain ⟨network, hnetwork, htail⟩ := Option.bind_eq_some_iff.mp h
    obtain ⟨rest, hrest, rfl⟩ := Option.map_eq_some_iff.mp htail
    rw [List.map_cons, List.map_cons, hnetwork, ih hrest]

/-- The constructor `EgressPolicy(..)` with its `__post_init__`. -/
def EgressPolicy.construct (schemaVersion : ℤ) (mode : NetworkMode) (defaultAction : PyStr)
    (rules : List DestinationRule) (blockedNetworks : List PyStr) (blockedPorts : List ℤ)
    (blockNonGlobalIps : Bool) (globalLimits : GlobalLimits) : Except EgressPolicyError EgressPolicy :=
  if schemaVersion_eq : schemaVersion = 1 then
    if defaultAction_eq : defaultAction = py "deny" then
      if mode_mem : mode ∈ [NetworkMode.brokeredFetch, NetworkMode.brokeredRelay] then
        match parsed : parseNetworks blockedNetworks with
        | some networks =>
          .ok ⟨schemaVersion, mode, defaultAction, rules, blockedNetworks, blockedPorts, blockNonGlobalIps,
            globalLimits, networks, schemaVersion_eq, defaultAction_eq, mode_mem,
            parseNetworks_eq_some parsed⟩
        | none => .error .conversion
      else .error (.invalid (py "Egress policy mode must be brokered_fetch or brokered_relay"))
    else .error (.invalid (py "Egress policy default_action must be 'deny'"))
  else
    .error (.invalid (py "Unsupported egress policy schema_version: " ++ decimalInt schemaVersion))

/-- `load_egress_policy`, from the value of the file's text. -/
def loadEgressPolicy (raw : Json) : Except EgressPolicyError EgressPolicy := do
  let raw ← requirePolicyDict (py "egress_policy") raw
  let mode ← networkModeOf (builtins.lower (builtins.strOf (fieldOr (py "mode") (.str []) raw)))
  let items ← requirePolicyList (py "allowed_destinations") (field (py "allowed_destinations") raw)
  let rules ← parseDestinationRules builtins mode 0 items
  let networks ← requirePolicyList (py "blocked_networks")
    (fieldOr (py "blocked_networks") (.arr (defaultBlockedNetworks.map .str)) raw)
  let blockedNetworks := networks.map builtins.strOf
  checkNetworks 0 blockedNetworks
  let blockedPorts ← parsePorts
    (fieldOr (py "blocked_ports") (.arr (defaultBlockedPorts.map .int)) raw) (py "blocked_ports")
  let schemaVersion ← builtins.intOf (fieldOr (py "schema_version") (.int 0) raw)
  let globalLimits ← parseGlobalLimits builtins (fieldOr (py "global_limits") (.obj []) raw)
  EgressPolicy.construct schemaVersion mode
    (builtins.strOf (fieldOr (py "default_action") (.str []) raw)) rules blockedNetworks blockedPorts
    (fieldOr (py "block_non_global_ips") (.bool true) raw).truthy globalLimits

end Reader

end TaintForge
