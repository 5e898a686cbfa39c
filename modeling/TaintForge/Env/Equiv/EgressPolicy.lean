import TaintForge.Env.EgressPolicy

/-!
# What the egress policy lets out

A request that is allowed has a port that is not blocked and is covered by one rule.  Its address is in no
blocked network, but the networks of the other family are not looked at, so this does not say anything of
the host that an IPv4-mapped address reaches.

* `PermittedAddress`, `Permitted`: what a request should have to be allowed.
* `EvadesNetworks`: an IPv4-mapped address of a blocked host that no test of the code sees.
* `allowed_iff`: when a request is allowed.
* `egressPolicy_sound`: allowed requests are permitted except for those addresses, and a stricter policy
  does not allow more.
-/

namespace TaintForge

variable {builtins : PyBuiltins}

/-! ### What should be allowed -/

namespace DestinationRule

/-- The rule lists the host or the address of a request. -/
def ListsIdentity (builtins : PyBuiltins) (rule : DestinationRule) (request : EgressRequest) : Prop :=
  (∃ host, normalizedHost builtins request.host = .ok (some host) ∧ host ∈ rule.hosts) ∨
    ∃ ip, request.ip = some ip ∧ ip ∈ rule.ips

/-- The rule covers a request in everything it names. -/
structure Covers (builtins : PyBuiltins) (rule : DestinationRule) (request : EgressRequest) : Prop where
  identity : rule.ListsIdentity builtins request
  scheme : builtins.lower request.scheme ∈ rule.schemes
  port : request.port ∈ rule.ports
  method : builtins.upper request.method ∈ rule.methods

end DestinationRule

namespace EgressPolicy

/-- The text is an address whose host is in no blocked network. -/
def PermittedAddress (policy : EgressPolicy) (text : PyStr) : Prop :=
  ∃ address, ipAddress text = some address ∧
    ∀ network ∈ policy.parsedBlockedNetworks, network.contains address.host = false

/-- The text is an IPv4-mapped address of a host in a blocked network, but the address itself is in none
of them, and it is global if it has to be. -/
def EvadesNetworks (policy : EgressPolicy) (text : PyStr) : Prop :=
  ∃ address ip, ipAddress text = some address ∧ address.ipv4Mapped = some ip ∧
    (∃ network ∈ policy.parsedBlockedNetworks, network.contains (.v4 ip) = true) ∧
    (∀ network ∈ policy.parsedBlockedNetworks, network.contains address = false) ∧
    (policy.blockNonGlobalIps = true → address.isGlobal = true)

/-- The words of a request, as the rules are compared with them. -/
def normalizeRequest (builtins : PyBuiltins) (request : EgressRequest) : EgressRequest :=
  { request with scheme := builtins.lower request.scheme, method := builtins.upper request.method }

/-- What a request should have to be allowed. -/
structure Permitted (builtins : PyBuiltins) (policy : EgressPolicy) (request : EgressRequest) : Prop where
  port : request.port ∉ policy.blockedPorts
  address : ∀ ip, request.ip = some ip → policy.PermittedAddress ip
  rule : ∃ rule ∈ policy.rules, rule.Covers builtins (normalizeRequest builtins request)

/-- A request to a host that the tests of the code do not see, with nothing else against it. -/
structure Evades (builtins : PyBuiltins) (policy : EgressPolicy) (request : EgressRequest) : Prop where
  port : request.port ∉ policy.blockedPorts
  address : ∃ ip, request.ip = some ip ∧ policy.EvadesNetworks ip
  rule : ∃ rule ∈ policy.rules,
    rule.matchesRequest builtins (normalizeRequest builtins request) = .ok true

/-- The decision is to allow the request. -/
def Allows (builtins : PyBuiltins) (policy : EgressPolicy) (request : EgressRequest) : Prop :=
  ∃ decision, policy.evaluateRequest builtins request = .ok decision ∧ decision.allowed = true

/-- A policy that blocks at least as much as another one and has no rule of its own. -/
structure Stricter (strict policy : EgressPolicy) : Prop where
  networks : ∀ text ∈ policy.blockedNetworks, text ∈ strict.blockedNetworks
  ports : ∀ port ∈ policy.blockedPorts, port ∈ strict.blockedPorts
  rules : ∀ rule ∈ strict.rules, rule ∈ policy.rules
  global : policy.blockNonGlobalIps = true → strict.blockNonGlobalIps = true

end EgressPolicy

/-! ### The networks -/

theorem IpNetwork.version_of_contains {network : IpNetwork} {address : IpAddress}
    (h : network.contains address = true) : address.version = network.version := by
  cases network with
  | v4 ip prefixlen =>
    cases address with
    | v4 ip => rfl
    | v6 ip scopeId => exact absurd h (by simp [IpNetwork.contains])
  | v6 ip scopeId prefixlen =>
    cases address with
    | v4 ip => exact absurd h (by simp [IpNetwork.contains])
    | v6 ip scopeId => rfl

namespace EgressPolicy

/-- **The address test of the code.** -/
theorem validateExternalIp_eq_ok {policy : EgressPolicy} {text : PyStr} {u : Unit} :
    policy.validateExternalIp text = .ok u ↔ ∃ address, ipAddress text = some address ∧
      (∀ network ∈ policy.parsedBlockedNetworks, network.contains address = false) ∧
      (policy.blockNonGlobalIps = true → address.isGlobal = true) := by
  unfold validateExternalIp
  cases haddress : ipAddress text with
  | none => simp
  | some address =>
    have hfound : (policy.parsedBlockedNetworks.find? fun network =>
        decide (address.version = network.version) && network.contains address) = none ↔
        ∀ network ∈ policy.parsedBlockedNetworks, network.contains address = false := by
      rw [List.find?_eq_none]
      refine forall₂_congr fun network _ => ?_
      rw [Bool.and_eq_true, decide_eq_true_eq, ← Bool.not_eq_true]
      -- The comparison of the versions is a part of the test of the network.
      exact not_congr ⟨fun h => h.2, fun h => ⟨IpNetwork.version_of_contains h, h⟩⟩
    dsimp only
    split
    · rename_i network hsome
      rw [hsome] at hfound
      refine iff_of_false (by simp) ?_
      rintro ⟨_, heq, hblocked, -⟩
      cases heq
      cases hfound.mpr hblocked
    · rename_i hnone
      rw [requirePolicy_eq_ok]
      constructor
      · intro hglobal
        refine ⟨address, rfl, hfound.mp hnone, fun hblock => ?_⟩
        by_contra hlocal
        exact hglobal ⟨hblock, hlocal⟩
      · rintro ⟨_, heq, -, hglobal⟩ ⟨hblock, hlocal⟩
        cases heq
        exact hlocal (hglobal hblock)

/-- An address that passes is permitted, or it is a mapped one that the test does not see through. -/
theorem permittedAddress_or_evades {policy : EgressPolicy} {text : PyStr}
    (h : policy.validateExternalIp text = .ok ()) :
    policy.PermittedAddress text ↔ ¬policy.EvadesNetworks text := by
  obtain ⟨address, haddress, hblocked, hglobal⟩ := validateExternalIp_eq_ok.mp h
  cases hmapped : address.ipv4Mapped with
  | none =>
    refine iff_of_true ⟨address, haddress, ?_⟩ ?_
    · rw [IpAddress.host_of_not_mapped hmapped]
      exact hblocked
    · rintro ⟨other, ip, hother, hip, -⟩
      rw [haddress, Option.some.injEq] at hother
      rw [← hother, hmapped] at hip
      exact absurd hip (by nofun)
  | some ip =>
    have hhost := IpAddress.host_of_ipv4Mapped hmapped
    constructor
    · rintro ⟨other, hother, hpermitted⟩ ⟨again, ip', hagain, hip, ⟨network, hmem, hcontains⟩, -⟩
      rw [haddress, Option.some.injEq] at hother hagain
      rw [← hagain, hmapped, Option.some.injEq] at hip
      have hnot := hpermitted network hmem
      rw [← hother, hhost, hip, hcontains] at hnot
      exact absurd hnot (by decide)
    · intro hevades
      refine ⟨address, haddress, fun network hmem => ?_⟩
      rw [hhost, ← Bool.not_eq_true]
      intro hcontains
      exact hevades ⟨address, ip, haddress, hmapped, ⟨network, hmem, hcontains⟩, hblocked, hglobal⟩

/-! ### The rules -/

/-- **A rule matches what it covers**, where the host can be normalised. -/
theorem matchesRequest_eq_ok_true {rule : DestinationRule} {request : EgressRequest}
    (hip : request.ip ≠ some []) :
    rule.matchesRequest builtins request = .ok true ↔
      (∃ host, normalizedHost builtins request.host = .ok host) ∧ rule.Covers builtins request := by
  unfold DestinationRule.matchesRequest DestinationRule.matchesIdentity
  cases hhost : normalizedHost builtins request.host with
  | error error =>
    refine iff_of_false (by nofun) ?_
    rintro ⟨⟨host, h⟩, -⟩
    exact absurd h (by nofun)
  | ok host =>
    have hidentity : (host.any (fun host => decide (host ∈ rule.hosts)) ||
        request.ip.any fun ip => ip != [] && decide (ip ∈ rule.ips)) = true ↔
        rule.ListsIdentity builtins request := by
      rw [DestinationRule.ListsIdentity, hhost, Bool.or_eq_true, Option.any_eq_true, Option.any_eq_true]
      refine or_congr ?_ ?_
      · constructor
        · rintro ⟨name, hname, hmem⟩
          exact ⟨name, by rw [hname], of_decide_eq_true hmem⟩
        · rintro ⟨name, hname, hmem⟩
          exact ⟨name, Except.ok.inj hname, decide_eq_true hmem⟩
      · refine exists_congr fun ip => and_congr_right fun hsome => ?_
        rw [Bool.and_eq_true, bne_iff_ne, decide_eq_true_eq]
        exact ⟨fun h => h.2, fun h => ⟨fun hnil => hip (by rw [hsome, hnil]), h⟩⟩
    show (Except.ok _ : Except EgressPolicyError Bool) = .ok true ↔ _
    rw [Except.ok.injEq, Bool.and_eq_true, Bool.and_eq_true, Bool.and_eq_true, hidentity]
    simp only [decide_eq_true_eq]
    constructor
    · rintro ⟨⟨⟨hidentity, hscheme⟩, hport⟩, hmethod⟩
      exact ⟨⟨host, rfl⟩, hidentity, hscheme, hport, hmethod⟩
    · rintro ⟨-, hidentity, hscheme, hport, hmethod⟩
      exact ⟨⟨⟨hidentity, hscheme⟩, hport⟩, hmethod⟩

/-- A rule either raises for every rule or for none: only the host of the request decides. -/
theorem matchesRequest_ok {rule : DestinationRule} (other : DestinationRule) {request : EgressRequest}
    {b : Bool} (h : rule.matchesRequest builtins request = .ok b) :
    ∃ b', other.matchesRequest builtins request = .ok b' := by
  obtain ⟨_, hidentity, -⟩ := bind_eq_ok.mp h
  obtain ⟨host, hhost, -⟩ := bind_eq_ok.mp hidentity
  unfold DestinationRule.matchesRequest DestinationRule.matchesIdentity
  rw [hhost]
  exact ⟨_, rfl⟩

/-- The loop stops at a rule exactly where some rule matches. -/
theorem firstMatch_eq_some {request : EgressRequest} {rules : List DestinationRule} :
    (∃ rule, firstMatch builtins request rules = .ok (some rule)) ↔
      ∃ rule ∈ rules, rule.matchesRequest builtins request = .ok true := by
  induction rules with
  | nil =>
    refine iff_of_false ?_ ?_
    · rintro ⟨rule, h⟩
      exact absurd h (by nofun)
    · rintro ⟨rule, hmem, -⟩
      exact absurd hmem List.not_mem_nil
  | cons rule rules ih =>
    rw [firstMatch]
    cases hmatch : rule.matchesRequest builtins request with
    | error error =>
      refine iff_of_false ?_ ?_
      · rintro ⟨found, h⟩
        exact absurd h (by nofun)
      · rintro ⟨found, -, hfound⟩
        obtain ⟨b, hb⟩ := matchesRequest_ok rule hfound
        rw [hmatch] at hb
        exact absurd hb (by nofun)
    | ok b =>
      cases b with
      | true => exact iff_of_true ⟨rule, rfl⟩ ⟨rule, List.mem_cons_self, hmatch⟩
      | false =>
        refine Iff.trans ih ?_
        constructor
        · rintro ⟨found, hmem, hfound⟩
          exact ⟨found, List.mem_cons_of_mem rule hmem, hfound⟩
        · rintro ⟨found, hmem, hfound⟩
          rcases List.mem_cons.mp hmem with rfl | hmem
          · rw [hmatch] at hfound
            exact absurd hfound (by nofun)
          · exact ⟨found, hmem, hfound⟩

/-! ### The decision -/

/-- **When a request is allowed.** -/
theorem allowed_iff {policy : EgressPolicy} {request : EgressRequest} :
    policy.Allows builtins request ↔ request.port ∉ policy.blockedPorts ∧
      (∀ ip, request.ip = some ip → policy.validateExternalIp ip = .ok ()) ∧
      ∃ rule ∈ policy.rules,
        rule.matchesRequest builtins (normalizeRequest builtins request) = .ok true := by
  have hrules : (∃ decision, policy.evaluateRules builtins (normalizeRequest builtins request) =
        .ok decision ∧ decision.allowed = true) ↔ ∃ rule ∈ policy.rules,
        rule.matchesRequest builtins (normalizeRequest builtins request) = .ok true := by
    rw [← firstMatch_eq_some]
    unfold evaluateRules
    cases hfirst : firstMatch builtins (normalizeRequest builtins request) policy.rules with
    | error error =>
      refine iff_of_false ?_ (by simp)
      rintro ⟨decision, h, -⟩
      cases h
    | ok found =>
      cases found with
      | none =>
        refine iff_of_false ?_ (by simp)
        rintro ⟨decision, h, hallowed⟩
        rw [← Except.ok.inj h] at hallowed
        exact absurd hallowed (by decide)
      | some rule => exact iff_of_true ⟨_, rfl, rfl⟩ ⟨rule, rfl⟩
  have hip : (policy.validateRequestIp request.ip = .ok ()) ↔
      ∀ ip, request.ip = some ip → policy.validateExternalIp ip = .ok () := by
    cases request.ip with
    | none => simp [validateRequestIp]
    | some ip => exact ⟨fun h other heq => Option.some.inj heq ▸ h, fun h => h ip rfl⟩
  rw [← hrules, ← hip]
  unfold Allows evaluateRequest
  show (∃ decision, (if request.port ∈ policy.blockedPorts then _ else _) = _ ∧ _) ↔ _
  split
  · rename_i hport
    refine iff_of_false ?_ (fun h => h.1 hport)
    rintro ⟨decision, h, hallowed⟩
    rw [← Except.ok.inj h] at hallowed
    exact absurd hallowed Bool.false_ne_true
  · rename_i hport
    cases hvalid : policy.validateRequestIp request.ip with
    | error error =>
      refine iff_of_false ?_ (fun h => by cases h.2.1)
      rintro ⟨decision, h, hallowed⟩
      rw [← Except.ok.inj h] at hallowed
      exact absurd hallowed Bool.false_ne_true
    | ok u => exact ⟨fun h => ⟨hport, rfl, h⟩, fun h => h.2.2⟩

/-- **An allowed request is permitted** unless its address evades the networks. -/
theorem allows_permitted_iff {policy : EgressPolicy} {request : EgressRequest} :
    (policy.Allows builtins request → policy.Permitted builtins request) ↔
      ¬policy.Evades builtins request := by
  constructor
  · rintro hsound ⟨hport, ⟨ip, hip, hevades⟩, hrule⟩
    obtain ⟨address, ip', haddress, hmapped, hinside, hblocked, hglobal⟩ := id hevades
    have hvalid : policy.validateExternalIp ip = .ok () :=
      validateExternalIp_eq_ok.mpr ⟨address, haddress, hblocked, hglobal⟩
    have hallows : policy.Allows builtins request := by
      refine allowed_iff.mpr ⟨hport, fun other hother => ?_, hrule⟩
      rw [hip, Option.some.injEq] at hother
      exact hother ▸ hvalid
    exact (permittedAddress_or_evades hvalid).mp ((hsound hallows).address ip hip) hevades
  · intro hevades hallows
    obtain ⟨hport, hvalid, rule, hmem, hmatch⟩ := allowed_iff.mp hallows
    refine ⟨hport, fun ip hip => ?_, rule, hmem, ?_⟩
    · refine (permittedAddress_or_evades (hvalid ip hip)).mpr fun h => ?_
      exact hevades ⟨hport, ⟨ip, hip, h⟩, rule, hmem, hmatch⟩
    · refine ((matchesRequest_eq_ok_true ?_).mp hmatch).2
      intro hnil
      -- An empty address is not one.
      obtain ⟨address, haddress, -⟩ := validateExternalIp_eq_ok.mp (hvalid [] hnil)
      have hnone : ipAddress [] = none := by decide
      rw [hnone] at haddress
      exact absurd haddress (by nofun)

/-! ### Resolved addresses -/

/-- The loop accepts the addresses that pass one by one, and returns them as they are. -/
theorem validateIps_eq_ok {policy : EgressPolicy} {addresses validated : List PyStr} :
    policy.validateIps addresses = .ok validated ↔
      validated = addresses ∧ ∀ text ∈ addresses, policy.validateExternalIp text = .ok () := by
  induction addresses generalizing validated with
  | nil =>
    rw [validateIps, Except.ok.injEq]
    exact ⟨fun h => ⟨h.symm, by simp⟩, fun h => h.1.symm⟩
  | cons value values ih =>
    rw [validateIps]
    constructor
    · intro h
      obtain ⟨_, hvalue, hrest⟩ := bind_eq_ok.mp h
      obtain ⟨rest, hrest, heq⟩ := bind_eq_ok.mp hrest
      obtain ⟨rfl, hall⟩ := ih.mp hrest
      refine ⟨(Except.ok.inj heq).symm, fun text hmem => ?_⟩
      rcases List.mem_cons.mp hmem with rfl | hmem
      · exact hvalue
      · exact hall text hmem
    · rintro ⟨rfl, hall⟩
      refine bind_eq_ok.mpr ⟨(), hall value List.mem_cons_self, bind_eq_ok.mpr ⟨values, ?_, rfl⟩⟩
      exact ih.mpr ⟨rfl, fun text hmem => hall text (List.mem_cons_of_mem value hmem)⟩

/-- **Which lists of addresses are accepted.** -/
theorem validateResolvedIps_eq_ok {policy : EgressPolicy} {host : PyStr}
    {addresses validated : List PyStr} :
    policy.validateResolvedIps host addresses = .ok validated ↔ validated = addresses ∧
      addresses ≠ [] ∧ ∀ text ∈ addresses, policy.validateExternalIp text = .ok () := by
  unfold validateResolvedIps
  constructor
  · intro h
    obtain ⟨ips, hips, hrest⟩ := bind_eq_ok.mp h
    obtain ⟨_, hnonempty, heq⟩ := bind_eq_ok.mp hrest
    obtain ⟨rfl, hall⟩ := validateIps_eq_ok.mp hips
    exact ⟨(Except.ok.inj heq).symm, requirePolicy_eq_ok.mp hnonempty, hall⟩
  · rintro ⟨rfl, hnonempty, hall⟩
    refine bind_eq_ok.mpr ⟨validated, validateIps_eq_ok.mpr ⟨rfl, hall⟩, ?_⟩
    exact bind_eq_ok.mpr ⟨(), requirePolicy_eq_ok.mpr hnonempty, rfl⟩

/-- An address passes the tests of the networks and of the special ones. -/
def Unblocked (policy : EgressPolicy) (text : PyStr) : Prop :=
  ∃ address, ipAddress text = some address ∧
    (∀ network ∈ policy.parsedBlockedNetworks, network.contains address = false) ∧
    (policy.blockNonGlobalIps = true → address.isGlobal = true)

/-- **Accepted lists have permitted addresses only**, unless one of them evades the networks. -/
theorem validateResolvedIps_permitted_iff {policy : EgressPolicy} {host : PyStr}
    {addresses : List PyStr} :
    (∀ validated, policy.validateResolvedIps host addresses = .ok validated →
      validated = addresses ∧ ∀ text ∈ addresses, policy.PermittedAddress text) ↔
    ¬((∀ text ∈ addresses, policy.Unblocked text) ∧ ∃ text ∈ addresses, policy.EvadesNetworks text) := by
  constructor
  · rintro hsound ⟨hall, text, hmem, hevades⟩
    have hvalid : ∀ text ∈ addresses, policy.validateExternalIp text = .ok () :=
      fun text hmem => validateExternalIp_eq_ok.mpr (hall text hmem)
    have haccepted : policy.validateResolvedIps host addresses = .ok addresses :=
      validateResolvedIps_eq_ok.mpr ⟨rfl, List.ne_nil_of_mem hmem, hvalid⟩
    have hpermitted := (hsound addresses haccepted).2 text hmem
    exact (permittedAddress_or_evades (hvalid text hmem)).mp hpermitted hevades
  · intro hevades validated haccepted
    obtain ⟨rfl, -, hall⟩ := validateResolvedIps_eq_ok.mp haccepted
    refine ⟨rfl, fun text hmem => (permittedAddress_or_evades (hall text hmem)).mpr fun h => ?_⟩
    exact hevades ⟨fun text hmem => validateExternalIp_eq_ok.mp (hall text hmem), text, hmem, h⟩

/-! ### Stricter policies -/

/-- The networks of a stricter policy contain those of the other one. -/
theorem Stricter.parsed_subset {strict policy : EgressPolicy} (h : strict.Stricter policy)
    {network : IpNetwork} (hmem : network ∈ policy.parsedBlockedNetworks) :
    network ∈ strict.parsedBlockedNetworks := by
  have hsome : some network ∈ policy.blockedNetworks.map ipNetwork := by
    rw [policy.parsed]
    exact List.mem_map_of_mem hmem
  obtain ⟨text, htext, hread⟩ := List.mem_map.mp hsome
  have hstrict : some network ∈ strict.parsedBlockedNetworks.map some := by
    rw [← strict.parsed, ← hread]
    exact List.mem_map_of_mem (h.networks text htext)
  obtain ⟨other, hother, heq⟩ := List.mem_map.mp hstrict
  exact Option.some.inj heq ▸ hother

/-- **A stricter policy does not allow more.** -/
theorem Stricter.allows {strict policy : EgressPolicy} (h : strict.Stricter policy)
    {request : EgressRequest} (hallows : strict.Allows builtins request) :
    policy.Allows builtins request := by
  obtain ⟨hport, hvalid, rule, hmem, hmatch⟩ := allowed_iff.mp hallows
  refine allowed_iff.mpr ⟨fun hblocked => hport (h.ports _ hblocked), fun ip hip => ?_, rule,
    h.rules rule hmem, hmatch⟩
  obtain ⟨address, haddress, hblocked, hglobal⟩ := validateExternalIp_eq_ok.mp (hvalid ip hip)
  refine validateExternalIp_eq_ok.mpr ⟨address, haddress, fun network hnetwork => ?_, fun hblock => ?_⟩
  · exact hblocked network (h.parsed_subset hnetwork)
  · exact hglobal (h.global hblock)

end EgressPolicy

open EgressPolicy

/-- **The egress policy lets out what it permits**, except for IPv4-mapped addresses of blocked hosts, and
a stricter policy lets out no more. -/
theorem egressPolicy_sound (builtins : PyBuiltins) (policy : EgressPolicy) :
    (∀ request, (policy.Allows builtins request → policy.Permitted builtins request) ↔
      ¬policy.Evades builtins request) ∧
    (∀ host addresses, (∀ validated, policy.validateResolvedIps host addresses = .ok validated →
        validated = addresses ∧ ∀ text ∈ addresses, policy.PermittedAddress text) ↔
      ¬((∀ text ∈ addresses, policy.Unblocked text) ∧
        ∃ text ∈ addresses, policy.EvadesNetworks text)) ∧
    ∀ strict : EgressPolicy, strict.Stricter policy →
      ∀ request, strict.Allows builtins request → policy.Allows builtins request :=
  ⟨fun _ => allows_permitted_iff, fun _ _ => validateResolvedIps_permitted_iff,
    fun _ hstricter _ hallows => hstricter.allows hallows⟩

/-! ### A mapped address -/

/-- The built-in functions, on ASCII texts. -/
def asciiBuiltins : PyBuiltins where
  lower := List.map fun c => if 0x41 ≤ c ∧ c ≤ 0x5A then c + 0x20 else c
  upper := List.map fun c => if 0x61 ≤ c ∧ c ≤ 0x7A then c - 0x20 else c
  decimalDigit c := if 0x30 ≤ c ∧ c ≤ 0x39 then some (c - 0x30) else none
  str _ := []
  float n := some (.finite n)

/-- A policy that blocks `8.8.8.0/24` and allows `example.com`. -/
def mappedPolicyDocument : Json :=
  .obj [(py "schema_version", .int 1), (py "mode", .str (py "brokered_fetch")),
    (py "default_action", .str (py "deny")),
    (py "blocked_networks", .arr [.str (py "8.8.8.0/24")]),
    (py "allowed_destinations",
      .arr [.obj [(py "match", .obj [(py "hosts", .arr [.str (py "example.com")])])]])]

/-- A request to `example.com`, resolved to the address `8.8.8.8` in its IPv4-mapped form. -/
def mappedRequest : EgressRequest where
  host := some (py "example.com")
  ip := some (py "::ffff:8.8.8.8")
  scheme := py "https"
  port := 443
  method := py "GET"

/-- A mapped address of a blocked network is allowed. -/
theorem mappedRequest_allowed : ∃ policy, loadEgressPolicy asciiBuiltins mappedPolicyDocument = .ok policy ∧
    policy.Allows asciiBuiltins mappedRequest ∧ ¬policy.Permitted asciiBuiltins mappedRequest := by
  refine ⟨_, rfl, ⟨_, rfl, rfl⟩, fun h => ?_⟩
  obtain ⟨address, haddress, hpermitted⟩ := h.address _ rfl
  have hread : ipAddress (py "::ffff:8.8.8.8") = some (.v6 0xFFFF08080808#128 none) := by decide
  rw [hread, Option.some.injEq] at haddress
  have hblocked := hpermitted (.v4 0x08080800#32 24) (List.mem_singleton.mpr rfl)
  rw [← haddress] at hblocked
  exact absurd hblocked (by decide)

end TaintForge
