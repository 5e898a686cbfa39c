import TaintForge.Env.ListenerPlan
import TaintForge.Env.Equiv.EgressPolicy

/-!
# Where planned listeners are apart

A port that is free when it is probed is still free when the next service probes it, so services that prefer
one port, or that are pushed on to one, are planned on the same address.

* `Apart`: listeners that can all be bound.
* `policy_apart_iff`: the policy of the known services.
* `planServices_ok`, `plan_apart_iff`: the plan of the controlled network.
* `listeners_apart_iff`: both.
-/

namespace TaintForge

/-- Listeners with different addresses and real ports. -/
def Apart (listeners : List (PyStr × ℤ)) : Prop :=
  listeners.Nodup ∧ ∀ listener ∈ listeners, 1 ≤ listener.2 ∧ listener.2 ≤ 65535

/-! ### The policy of the known services -/

section Policy

variable (ports : HostPorts) (host : PyStr) (check : Bool)

/-- The dependencies that get a listener. -/
def tcpDependencies (deps : List NetworkDependency) : List NetworkDependency :=
  deps.filter fun dep => dep.transport = py "tcp"

/-- A dependency keeps its port. -/
def keepsPort (dep : NetworkDependency) : Bool := !check || ports.free host dep.port

/-- The ports of the dependencies that keep them. -/
def keptPorts (deps : List NetworkDependency) : List ℕ :=
  ((tcpDependencies deps).filter (keepsPort ports host check)).map NetworkDependency.port

/-- How many dependencies get a port of the system. -/
def movedCount (deps : List NetworkDependency) : ℕ :=
  (tcpDependencies deps).countP fun dep => !keepsPort ports host check dep

/-- The ports that the system gives, from some time on. -/
def givenPorts (asked count : ℕ) : List ℕ := (List.range' asked count).filterMap (ports.given host)

variable {ports host check} {deps : List NetworkDependency}

theorem any_eq_ok {asked port next : ℕ} :
    ports.any host asked = .ok (port, next) ↔ ports.given host asked = some port ∧ next = asked + 1 := by
  unfold HostPorts.any
  cases ports.given host asked with
  | none => exact iff_of_false (by nofun) (by nofun)
  | some p =>
    dsimp only
    rw [Except.ok.injEq, Prod.mk.injEq, Option.some.injEq]
    exact and_congr_right fun _ => eq_comm

/-- A dependency keeps its port, or it gets the next one that the system gives. -/
theorem chooseTcpBindPort_ok {dep : NetworkDependency} {asked port next : ℕ}
    (h : chooseTcpBindPort ports host (some dep.port) check asked = .ok (port, next)) :
    (keepsPort ports host check dep = true ∧ port = dep.port ∧ next = asked) ∨
      (keepsPort ports host check dep = false ∧ ports.given host asked = some port ∧ next = asked + 1) := by
  unfold chooseTcpBindPort at h
  unfold keepsPort
  dsimp only at h
  split at h
  · rename_i hcheck
    cases h
    exact Or.inl ⟨by rw [hcheck]; rfl, rfl, rfl⟩
  · rename_i hcheck
    rw [Bool.not_eq_false] at hcheck
    rw [hcheck, Bool.not_true, Bool.false_or]
    split at h
    · rename_i hfree
      cases h
      exact Or.inl ⟨hfree, rfl, rfl⟩
    · rename_i hbusy
      exact Or.inr ⟨eq_false_of_ne_true hbusy, any_eq_ok.mp h⟩

/-- **The ports of the services** are those that are kept and those that the system gives. -/
theorem buildServices_ok {asked : ℕ} {services : List NetworkServicePolicy}
    (h : buildServices ports host check deps asked = .ok services) :
    (services.map NetworkServicePolicy.bindPort).Perm
        (keptPorts ports host check deps ++ givenPorts ports host asked (movedCount ports host check deps)) ∧
      ∀ service ∈ services, service.bindIp = host := by
  induction deps generalizing asked services with
  | nil =>
    cases h
    exact ⟨.nil, by simp⟩
  | cons dep rest ih =>
    simp only [buildServices, bind_eq_ok, pure_eq_ok] at h
    obtain ⟨⟨service, next⟩, hservice, others, hothers, rfl⟩ := h
    obtain ⟨hperm, hip⟩ := ih hothers
    unfold buildServicePolicy at hservice
    split at hservice
    · -- not a TCP service
      rename_i htcp
      cases hservice
      have hskip : tcpDependencies (dep :: rest) = tcpDependencies rest :=
        List.filter_cons_of_neg (by simpa using htcp)
      rw [keptPorts, movedCount, hskip]
      exact ⟨hperm, hip⟩
    · rename_i htcp
      simp only [bind_eq_ok, pure_eq_ok] at hservice
      obtain ⟨⟨port, asked'⟩, hport, hservice⟩ := hservice
      cases hservice
      have htake : tcpDependencies (dep :: rest) = dep :: tcpDependencies rest :=
        List.filter_cons_of_pos (by simpa using htcp)
      constructor
      · rw [Option.toList_some, List.singleton_append, List.map_cons, keptPorts, movedCount, htake]
        rcases chooseTcpBindPort_ok hport with ⟨hkeep, rfl, rfl⟩ | ⟨hmove, hgiven, rfl⟩
        · rw [List.filter_cons_of_pos hkeep, List.countP_cons_of_neg (by rw [hkeep]; decide), List.map_cons,
            List.cons_append]
          exact hperm.cons _
        · rw [List.filter_cons_of_neg (by rw [hmove]; decide), List.countP_cons_of_pos (by rw [hmove]; rfl),
            givenPorts, List.range'_succ, List.filterMap_cons_some hgiven]
          exact (hperm.cons port).trans List.perm_middle.symm
      · intro service hservice
        rcases List.mem_cons.mp hservice with rfl | hservice
        · rfl
        · exact hip service hservice

variable (ports host check deps) in
/-- **No two services of a policy share a port**: services that keep their ports have different ones, and
the system gives different ports that are not kept.  The catch-all has ports of its own. -/
structure PolicyApart (enableCatchAll : Bool) (catchAllPort : ℤ) : Prop where
  kept : (keptPorts ports host check deps).Nodup
  given : (givenPorts ports host 0 (movedCount ports host check deps)).Nodup
  fresh : ∀ port ∈ keptPorts ports host check deps,
    port ∉ givenPorts ports host 0 (movedCount ports host check deps)
  catchAll : enableCatchAll = true → (1 ≤ catchAllPort ∧ catchAllPort ≤ 65535 ∧ catchAllPort ≠ 40001) ∧
    (host = localhost → ∀ port ∈ keptPorts ports host check deps ++
      givenPorts ports host 0 (movedCount ports host check deps),
        (port : ℤ) ≠ catchAllPort ∧ (port : ℤ) ≠ 40001)

/-- The listeners of a policy. -/
theorem listeners_eq {mode : PyStr} {enableCatchAll : Bool} {catchAllPort : ℤ} {policy : NetworkPolicy}
    (h : buildNetworkPolicy ports deps mode host check enableCatchAll catchAllPort = .ok policy) :
    ∃ bound : List ℕ, policy.listeners = bound.map (fun port : ℕ => (host, (port : ℤ))) ++
        (if enableCatchAll then [(localhost, catchAllPort), (localhost, (40001 : ℤ))] else []) ∧
      bound.Perm (keptPorts ports host check deps ++
        givenPorts ports host 0 (movedCount ports host check deps)) := by
  simp only [buildNetworkPolicy, bind_eq_ok, pure_eq_ok] at h
  obtain ⟨services, hservices, rfl⟩ := h
  obtain ⟨hperm, hip⟩ := buildServices_ok hservices
  refine ⟨services.map NetworkServicePolicy.bindPort, ?_, hperm⟩
  rw [NetworkPolicy.listeners, List.map_map]
  congr 1
  exact List.map_congr_left fun service hservice => by
    rw [Function.comp_apply, hip service hservice]

/-- A port of a service is a port. -/
theorem bound_range {port : ℕ} (h : port ∈ keptPorts ports host check deps ++
    givenPorts ports host 0 (movedCount ports host check deps)) : 1 ≤ port ∧ port ≤ 65535 := by
  rcases List.mem_append.mp h with hkept | hgiven
  · obtain ⟨dep, -, rfl⟩ := List.mem_map.mp hkept
    exact ⟨dep.one_le_port, dep.port_le⟩
  · obtain ⟨asked, -, hasked⟩ := List.mem_filterMap.mp hgiven
    exact ports.given_range hasked

/-- **When the listeners of a policy are apart.** -/
theorem policy_apart_iff {mode : PyStr} {enableCatchAll : Bool} {catchAllPort : ℤ} {policy : NetworkPolicy}
    (h : buildNetworkPolicy ports deps mode host check enableCatchAll catchAllPort = .ok policy) :
    Apart policy.listeners ↔ PolicyApart ports host check deps enableCatchAll catchAllPort := by
  obtain ⟨bound, hlisteners, hperm⟩ := listeners_eq h
  have hinjective : Function.Injective fun port : ℕ => (host, (port : ℤ)) := fun a b hab => by
    simpa using hab
  have hnodup : bound.Nodup ↔ (keptPorts ports host check deps).Nodup ∧
      (givenPorts ports host 0 (movedCount ports host check deps)).Nodup ∧
      ∀ port ∈ keptPorts ports host check deps,
        port ∉ givenPorts ports host 0 (movedCount ports host check deps) := by
    rw [hperm.nodup_iff, List.nodup_append']
    rfl
  have hrange : ∀ port ∈ bound, 1 ≤ port ∧ port ≤ 65535 := fun port hport =>
    bound_range (hperm.mem_iff.mp hport)
  unfold Apart
  rw [hlisteners]
  cases enableCatchAll with
  | false =>
    rw [if_neg Bool.false_ne_true, List.append_nil, List.nodup_map_iff hinjective, hnodup]
    constructor
    · rintro ⟨⟨hkept, hgiven, hfresh⟩, -⟩
      exact ⟨hkept, hgiven, hfresh, nofun⟩
    · rintro ⟨hkept, hgiven, hfresh, -⟩
      refine ⟨⟨hkept, hgiven, hfresh⟩, ?_⟩
      intro listener hlistener
      obtain ⟨port, hport, rfl⟩ := List.mem_map.mp hlistener
      have hports := hrange port hport
      dsimp only
      omega
  | true =>
    have hmem : ∀ port : ℕ, port ∈ bound ↔ port ∈ keptPorts ports host check deps ++
        givenPorts ports host 0 (movedCount ports host check deps) := fun port => hperm.mem_iff
    rw [if_pos rfl, List.nodup_append', List.nodup_map_iff hinjective, hnodup]
    constructor
    · rintro ⟨⟨⟨hkept, hgiven, hfresh⟩, hcatch, hdisjoint⟩, hports⟩
      refine ⟨hkept, hgiven, hfresh, fun _ => ⟨?_, ?_⟩⟩
      · obtain ⟨hlo, hhi⟩ := hports (localhost, catchAllPort) (by simp)
        refine ⟨hlo, hhi, ?_⟩
        rintro rfl
        exact absurd hcatch (by simp)
      · rintro hhost port hport
        have hapart : (host, (port : ℤ)) ∉ [(localhost, catchAllPort), (localhost, (40001 : ℤ))] :=
          hdisjoint (List.mem_map_of_mem ((hmem port).mpr hport))
        rw [hhost] at hapart
        simpa [not_or] using hapart
    · rintro ⟨hkept, hgiven, hfresh, hcatch⟩
      obtain ⟨⟨hlo, hhi, hudp⟩, hunused⟩ := hcatch rfl
      refine ⟨⟨⟨hkept, hgiven, hfresh⟩, by simp [hudp], ?_⟩, ?_⟩
      · intro listener hservice hcatch
        obtain ⟨port, hport, rfl⟩ := List.mem_map.mp hservice
        simp only [List.mem_cons, List.not_mem_nil, or_false, Prod.mk.injEq] at hcatch
        rcases hcatch with ⟨hhost, hsame⟩ | ⟨hhost, hsame⟩
        · exact (hunused hhost port ((hmem port).mp hport)).1 hsame
        · exact (hunused hhost port ((hmem port).mp hport)).2 hsame
      · intro listener hlistener
        rcases List.mem_append.mp hlistener with hservice | hcatch
        · obtain ⟨port, hport, rfl⟩ := List.mem_map.mp hservice
          have hports := hrange port hport
          dsimp only
          omega
        · simp only [List.mem_cons, List.not_mem_nil, or_false] at hcatch
          rcases hcatch with rfl | rfl
          · exact ⟨hlo, hhi⟩
          · exact ⟨by decide, by decide⟩

end Policy

/-! ### The plan of the controlled network -/

section Plan

/-- The entry of a service that is skipped. -/
def ServiceDecision.skipped? : ServiceDecision → Option Json
  | .skipped entry => some entry
  | _ => none

/-- The mapping of a service that stays on the loopback. -/
def ServiceDecision.loopback? : ServiceDecision → Option NetworkServiceMapping
  | .loopback mapping => some mapping
  | _ => none

/-- What a service of the host is asked to be. -/
def ServiceDecision.host? : ServiceDecision → Option (PyStr × PyStr × ℤ × Option PyStr)
  | .host role remoteIp remotePort protocolHint => some (role, remoteIp, remotePort, protocolHint)
  | _ => none

/-- What a mapping says about its service. -/
def NetworkServiceMapping.request (mapping : NetworkServiceMapping) :
    PyStr × PyStr × ℤ × Option PyStr :=
  (mapping.role, mapping.remoteIp, mapping.remotePort, mapping.protocolHint)

variable (builtins : PyBuiltins)

/-- The requested services are placed on the host. -/
def onHost (item : Json × ℕ) : Bool :=
  match classifyService builtins item.2 item.1 with
  | .ok decision => decision.host?.isSome
  | .error _ => false

/-- The decisions about requested services. -/
def Decides (index : ℕ) (services : List Json) (decisions : List ServiceDecision) : Prop :=
  List.Forall₂ (fun item decision => classifyService builtins item.2 item.1 = .ok decision)
    (services.zipIdx index) decisions

/-- **Every requested service is planned once**: on the host, on the loopback or as skipped. -/
structure Accounted (services : List Json) (plan : ControlledNetworkPlan)
    (decisions : List ServiceDecision) : Prop where
  decided : Decides builtins 0 services decisions
  host : plan.hostServices.map NetworkServiceMapping.request = decisions.filterMap ServiceDecision.host?
  loopback : plan.loopbackServices = decisions.filterMap ServiceDecision.loopback?
  skipped : plan.skippedServices = decisions.filterMap ServiceDecision.skipped?

variable {builtins} {ports : HostPorts} {hostIp : PyStr} {seed : ℕ}

/-- A port that the allocator gives. -/
theorem allocate_eq_ok {preferred port : ℕ} :
    SocketPortAllocator.allocate ports hostIp preferred = .ok port ↔
      firstFree (ports.free hostIp) 20000 39999 preferred = some port := by
  unfold SocketPortAllocator.allocate SocketPortAllocator.minPort SocketPortAllocator.maxPort
  cases firstFree (ports.free hostIp) 20000 39999 preferred with
  | none => exact iff_of_false (by nofun) (by nofun)
  | some found => exact ⟨fun h => by cases h; rfl, fun h => by cases h; rfl⟩

/-- The services of the host that the loop adds. -/
structure PlacedOnHost (ports : HostPorts) (hostIp : PyStr) (seed start : ℕ)
    (decisions : List ServiceDecision) (placed : List NetworkServiceMapping) : Prop where
  request : placed.map NetworkServiceMapping.request = decisions.filterMap ServiceDecision.host?
  bindIp : ∀ mapping ∈ placed, mapping.bindIp = hostIp
  bindPort : placed.map (fun mapping => some mapping.bindPort) = (List.range' start placed.length).map fun k =>
    (firstFree (ports.free hostIp) 20000 39999 (seed + k)).map Nat.cast

/-- **What the loop plans**, from the decisions about the services. -/
theorem planServices_ok {services : List Json} {index : ℕ} {planned result : PlannedServices}
    (h : planServices builtins ports hostIp seed index planned services = .ok result) :
    ∃ decisions placed, Decides builtins index services decisions ∧
      PlacedOnHost ports hostIp seed planned.host.length decisions placed ∧
      result.host = planned.host ++ placed ∧
      result.loopback = planned.loopback ++ decisions.filterMap ServiceDecision.loopback? ∧
      result.skipped = planned.skipped ++ decisions.filterMap ServiceDecision.skipped? := by
  induction services generalizing index planned with
  | nil =>
    cases h
    exact ⟨[], [], .nil, ⟨rfl, by simp, rfl⟩, by simp, by simp, by simp⟩
  | cons item rest ih =>
    simp only [planServices, bind_eq_ok] at h
    obtain ⟨decision, hdecision, next, hnext, hrest⟩ := h
    obtain ⟨decisions, placed, hdecides, hplaced, hhost, hloopback, hskipped⟩ := ih hrest
    have hall : Decides builtins index (item :: rest) (decision :: decisions) := .cons hdecision hdecides
    cases decision with
    | skipped entry =>
      cases hnext
      refine ⟨_, placed, hall, ⟨hplaced.request, hplaced.bindIp, hplaced.bindPort⟩, hhost, hloopback, ?_⟩
      rw [hskipped, List.append_assoc]
      rfl
    | loopback mapping =>
      cases hnext
      refine ⟨_, placed, hall, ⟨hplaced.request, hplaced.bindIp, hplaced.bindPort⟩, hhost, ?_, hskipped⟩
      rw [hloopback, List.append_assoc]
      rfl
    | host role remoteIp remotePort protocolHint =>
      simp only [placeService, bind_eq_ok, pure_eq_ok, allocate_eq_ok] at hnext
      obtain ⟨port, hport, rfl⟩ := hnext
      rw [List.append_assoc] at hhost
      refine ⟨_, _, hall, ⟨?_, ?_, ?_⟩, hhost, hloopback, hskipped⟩
      · rw [List.singleton_append, List.map_cons, hplaced.request]
        rfl
      · rintro mapping hmapping
        rcases List.mem_cons.mp hmapping with rfl | hmapping
        · rfl
        · exact hplaced.bindIp mapping hmapping
      · have hbind := hplaced.bindPort
        rw [List.length_append, List.length_singleton] at hbind
        rw [List.singleton_append, List.map_cons, hbind, List.length_cons, List.range'_succ, List.map_cons,
          hport]
        rfl

/-- How many requested services are placed on the host. -/
theorem length_of_decides {services : List Json} {index : ℕ} {decisions : List ServiceDecision}
    (h : Decides builtins index services decisions) :
    (decisions.filterMap ServiceDecision.host?).length = (services.zipIdx index).countP (onHost builtins) := by
  induction services generalizing index decisions with
  | nil =>
    cases h
    rfl
  | cons item rest ih =>
    obtain _ | ⟨hdecision, hrest⟩ := h
    rename_i decision decisions
    have hhost : onHost builtins (item, index) = decision.host?.isSome := by
      unfold onHost
      rw [hdecision]
    rw [List.zipIdx_cons, List.countP_cons, ← ih hrest, hhost, List.filterMap_cons]
    cases decision.host? <;> rfl

/-- The ports of the services that are placed. -/
theorem PlacedOnHost.apart_iff {decisions : List ServiceDecision} {placed : List NetworkServiceMapping}
    (h : PlacedOnHost ports hostIp seed 0 decisions placed) (hseed : 20000 ≤ seed) :
    Apart (placed.map fun mapping => (mapping.bindIp, mapping.bindPort)) ↔
      placed.length ≤ 1 ∨ Spread (ports.free hostIp) 20000 39999 seed placed.length := by
  have hports : placed.map (fun mapping => some mapping.bindPort) = (List.range placed.length).map fun k =>
      (firstFree (ports.free hostIp) 20000 39999 (seed + k)).map Nat.cast := by
    rw [h.bindPort, List.range_eq_range']
  have hfound : ∀ k < placed.length, (firstFree (ports.free hostIp) 20000 39999 (seed + k)).isSome := by
    intro k hk
    have hget := congrArg (·[k]?) hports
    simp only [List.getElem?_map, List.getElem?_eq_getElem hk, List.getElem?_range hk, Option.map_some,
      Option.some.injEq] at hget
    rw [← Option.isSome_map, ← hget]
    rfl
  have hrange : ∀ mapping ∈ placed, 1 ≤ mapping.bindPort ∧ mapping.bindPort ≤ 65535 := by
    intro mapping hmapping
    have hmem : some mapping.bindPort ∈ placed.map fun mapping => some mapping.bindPort :=
      List.mem_map_of_mem hmapping
    rw [hports] at hmem
    obtain ⟨k, -, hk⟩ := List.mem_map.mp hmem
    obtain ⟨port, hport, hcast⟩ := Option.map_eq_some_iff.mp hk
    obtain ⟨hlo, hhi, -⟩ := firstFree_mem (by decide) hport
    omega
  have hpairs : (placed.map fun mapping => (mapping.bindIp, mapping.bindPort)) =
      (placed.map fun mapping => mapping.bindPort).map fun port => (hostIp, port) := by
    rw [List.map_map]
    exact List.map_congr_left fun mapping hmapping => by
      rw [Function.comp_apply, h.bindIp mapping hmapping]
  have hpair : Function.Injective fun port : ℤ => (hostIp, port) := fun a b hab => by simpa using hab
  have hsome : (placed.map fun mapping => some mapping.bindPort) =
      (placed.map fun mapping => mapping.bindPort).map some := by
    rw [List.map_map]
    rfl
  have hcasts : ((List.range placed.length).map fun k =>
      (firstFree (ports.free hostIp) 20000 39999 (seed + k)).map (Nat.cast : ℕ → ℤ)) =
      ((List.range placed.length).map fun k => firstFree (ports.free hostIp) 20000 39999 (seed + k)).map
        (Option.map Nat.cast) := by
    rw [List.map_map]
    rfl
  rw [Apart, and_iff_left, hpairs, List.nodup_map_iff hpair,
    ← List.nodup_map_iff (Option.some_injective ℤ), ← hsome, hports, hcasts,
    List.nodup_map_iff (Option.map_injective Nat.cast_injective),
    nodup_firstFree_iff (by decide) hseed hfound]
  intro listener hlistener
  obtain ⟨mapping, hmapping, rfl⟩ := List.mem_map.mp hlistener
  exact hrange mapping hmapping

variable {sha : Sha256} {sessionId : PyStr} {iterationIndex : ℕ} {requested : List (PyStr × Json)}
  {plan : ControlledNetworkPlan}

/-- What a plan says about the services. -/
theorem buildPlan_ok (h : buildPlan builtins sha ports sessionId iterationIndex requested hostIp = .ok plan) :
    ∃ services planned, fieldOr (py "services") (.arr []) requested = .arr services ∧
      planServices builtins ports hostIp (portSeed sha sessionId iterationIndex) 0 ⟨[], [], []⟩ services =
        .ok planned ∧
      plan.hostServices = planned.host ∧ plan.loopbackServices = planned.loopback ∧
      plan.skippedServices = planned.skipped := by
  unfold buildPlan at h
  split at h
  · rename_i services hservices
    split at h
    · cases h
    · simp only [bind_eq_ok] at h
      obtain ⟨planned, hplanned, h⟩ := h
      split at h
      · simp only [bind_eq_ok] at h
        obtain ⟨tcpPort, -, udpPort, -, h⟩ := h
        split at h
        · cases h
        · cases h
          exact ⟨services, planned, hservices, hplanned, rfl, rfl, rfl⟩
      · cases h
  · cases h

/-- **When the services of a plan are apart**, and that each is planned once. -/
theorem plan_apart_iff {services : List Json}
    (h : buildPlan builtins sha ports sessionId iterationIndex requested hostIp = .ok plan)
    (hservices : fieldOr (py "services") (.arr []) requested = .arr services) :
    (Apart (plan.hostServices.map fun mapping => (mapping.bindIp, mapping.bindPort)) ↔
      services.zipIdx.countP (onHost builtins) ≤ 1 ∨
        Spread (ports.free hostIp) 20000 39999 (portSeed sha sessionId iterationIndex)
          (services.zipIdx.countP (onHost builtins))) ∧
      ∃ decisions, Accounted builtins services plan decisions := by
  obtain ⟨_, planned, hsame, hplanned, hhost, hloopback, hskipped⟩ := buildPlan_ok h
  obtain rfl := Json.arr.inj (hservices.symm.trans hsame)
  obtain ⟨decisions, placed, hdecides, hplaced, hhost', hloopback', hskipped'⟩ := planServices_ok hplanned
  rw [List.nil_append] at hhost' hloopback' hskipped'
  rw [List.length_nil] at hplaced
  have hlength : placed.length = services.zipIdx.countP (onHost builtins) := by
    rw [← length_of_decides hdecides, ← hplaced.request, List.length_map]
  constructor
  · rw [hhost, hhost', ← hlength]
    exact hplaced.apart_iff (Nat.le_add_right _ _)
  · refine ⟨decisions, hdecides, ?_, ?_, ?_⟩
    · rw [hhost, hhost', hplaced.request]
    · rw [hloopback, hloopback']
    · rw [hskipped, hskipped']

end Plan

/-! ### Both planners -/

section Both

variable {builtins : PyBuiltins} {sha : Sha256} {ports : HostPorts} {deps : List NetworkDependency}
  {mode host sessionId hostIp : PyStr} {check enableCatchAll : Bool} {catchAllPort : ℤ} {iterationIndex : ℕ}
  {requested : List (PyStr × Json)} {services : List Json} {policy : NetworkPolicy}
  {plan : ControlledNetworkPlan}

/-- **When planned listeners do not collide**, and that every requested service is planned once. -/
theorem listeners_apart_iff
    (hpolicy : buildNetworkPolicy ports deps mode host check enableCatchAll catchAllPort = .ok policy)
    (hplan : buildPlan builtins sha ports sessionId iterationIndex requested hostIp = .ok plan)
    (hservices : fieldOr (py "services") (.arr []) requested = .arr services) :
    (Apart policy.listeners ↔ PolicyApart ports host check deps enableCatchAll catchAllPort) ∧
      (Apart (plan.hostServices.map fun mapping => (mapping.bindIp, mapping.bindPort)) ↔
        services.zipIdx.countP (onHost builtins) ≤ 1 ∨
          Spread (ports.free hostIp) 20000 39999 (portSeed sha sessionId iterationIndex)
            (services.zipIdx.countP (onHost builtins))) ∧
      ∃ decisions, Accounted builtins services plan decisions :=
  ⟨policy_apart_iff hpolicy, plan_apart_iff hplan hservices⟩

end Both

/-! ### A port that two services prefer -/

/-- A host where one port is taken. -/
def probePorts : HostPorts where
  free _ port := decide (port ≠ 33191)
  given _ asked := if asked < 100 then some (50000 + asked) else none
  given_free {_ asked port} h := by
    split at h
    · cases h
      rw [decide_eq_true_iff]
      omega
    · cases h
  given_range {_ asked port} h := by
    split at h
    · cases h
      omega
    · cases h

/-- The digest of `probe:1`. -/
def probeSha : Sha256 where
  hexdigest _ := py "a8b733447704b16aec75835e3d7d8a95e02944e704f5e3fd0fbbedc7d5bba48c"
  isSha256_hexdigest _ := by decide

/-- Two web servers that are reached at one port. -/
def webServers : List NetworkDependency :=
  [⟨py "1.1.1.1", 8080, py "http", by decide, by decide⟩,
    ⟨py "2.2.2.2", 8080, py "http", by decide, by decide⟩]

/-- The request for a service. -/
def requestService (ip : PyStr) : Json :=
  .obj [(py "service_type", .str (py "tcp")), (py "remote_ip", .str ip), (py "remote_port", .int 8080)]

example : portSeed probeSha (py "probe") 1 = 33191 := by decide

/-- One web server gets a listener from each planner. -/
theorem listeners_apart_iff_webServer :
    ∃ policy plan,
      buildNetworkPolicy probePorts (webServers.take 1) (py "controlled") localhost true true 40000 =
        .ok policy ∧
      buildPlan asciiBuiltins probeSha probePorts (py "probe") 1
        [(py "services", .arr [requestService (py "1.1.1.1")])] (py "10.200.0.1") = .ok plan ∧
      Apart policy.listeners ∧
      Apart (plan.hostServices.map fun mapping => (mapping.bindIp, mapping.bindPort)) := by
  refine ⟨_, _, rfl, rfl, ?_⟩
  have hboth := @listeners_apart_iff asciiBuiltins probeSha probePorts (webServers.take 1) (py "controlled")
    localhost (py "probe") (py "10.200.0.1") true true 40000 1
    [(py "services", .arr [requestService (py "1.1.1.1")])] _ _ _ rfl rfl rfl
  constructor
  · apply hboth.1.mpr
    exact ⟨by decide, by decide, by decide, fun _ => ⟨by decide, fun _ => by decide⟩⟩
  · exact hboth.2.1.mpr (Or.inl (by decide))

/-- Two services are planned on one port, by both planners. -/
theorem services_share_port :
    (∃ policy, buildNetworkPolicy probePorts webServers (py "controlled") localhost true true 40000 = .ok policy ∧
      ¬ Apart policy.listeners) ∧
    ∃ plan, buildPlan asciiBuiltins probeSha probePorts (py "probe") 1
        [(py "services", .arr [requestService (py "1.1.1.1"), requestService (py "2.2.2.2")])]
        (py "10.200.0.1") = .ok plan ∧
      ¬ Apart (plan.hostServices.map fun mapping => (mapping.bindIp, mapping.bindPort)) := by
  constructor
  · refine ⟨_, rfl, ?_⟩
    rintro ⟨hnodup, -⟩
    revert hnodup
    decide
  · refine ⟨_, rfl, ?_⟩
    rintro ⟨hnodup, -⟩
    revert hnodup
    decide

end TaintForge
