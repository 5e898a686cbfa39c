import TaintForge.Env.EgressPolicy
import TaintForge.Lib.FirstFree

/-!
# Where the network services listen

Two planners give a port to every service that a sample talks to.  One binds the port of the service itself
when it is free, the other one numbers the services from a port that depends on the iteration.  Both probe a
port with a socket that is closed again.  The files that the plans are written to are left out, and of the
topology of the controlled network all but the address of the host.

* `HostPorts`: which ports can be bound.
* `buildNetworkPolicy`: the policy of the known services and its catch-all.
* `buildPlan`: the plan of the controlled network.
-/

namespace TaintForge

/-! ### Ports of the host -/

/-- The ports of a host while a plan is made: those that a TCP socket can be bound to, and those that the
system gives, one time after the other, to a socket that asks for any port. -/
structure HostPorts where
  free : PyStr → ℕ → Bool
  given : PyStr → ℕ → Option ℕ
  given_free : ∀ {host k port}, given host k = some port → free host port = true
  given_range : ∀ {host k port}, given host k = some port → 1 ≤ port ∧ port ≤ 65535

/-- Why no port is chosen: a `ValueError`, or an `OSError` of the system. -/
inductive PortError
  | value (message : PyStr)
  | os
  deriving DecidableEq

/-- `socket.bind((host, 0))`, and the port that it got. -/
def HostPorts.any (ports : HostPorts) (host : PyStr) (asked : ℕ) : Except PortError (ℕ × ℕ) :=
  match ports.given host asked with
  | some port => .ok (port, asked + 1)
  | none => .error .os

/-- `choose_tcp_bind_port`; `asked` counts how often the system was asked for any port. -/
def chooseTcpBindPort (ports : HostPorts) (host : PyStr) (preferredPort : Option ℕ)
    (checkAvailability : Bool) (asked : ℕ) : Except PortError (ℕ × ℕ) :=
  match preferredPort with
  | some port =>
    if checkAvailability = false then .ok (port, asked)
    else if ports.free host port then .ok (port, asked)
    else ports.any host asked
  | none =>
    if checkAvailability = false then
      .error (.value (py "preferred_port is required when check_availability = False"))
    else ports.any host asked

/-! ### The policy of the known services -/

/-- `NetworkDependency`, with a port that passes `validate_port`. -/
structure NetworkDependency where
  ip : PyStr
  port : ℕ
  type : PyStr
  one_le_port : 1 ≤ port
  port_le : port ≤ 65535

/-- `NetworkDependency.transport`. -/
def NetworkDependency.transport (dep : NetworkDependency) : PyStr :=
  if dep.type = py "dns" then py "udp"
  else if dep.type = py "ntp" then py "udp"
  else if dep.type ∈ [py "udp"] then py "udp"
  else py "tcp"

structure CatchAllPolicy where
  enabled : Bool
  tcpBindIp : PyStr
  tcpBindPort : ℤ
  udpEnabled : Bool
  udpBindIp : PyStr
  udpBindPort : ℤ
  unknownPolicy : PyStr

structure NetworkServicePolicy where
  serviceType : PyStr
  role : PyStr
  remoteIp : PyStr
  remotePort : ℕ
  bindIp : PyStr
  bindPort : ℕ
  protocolHint : PyStr

structure NetworkPolicy where
  mode : PyStr
  allowInternet : Bool
  services : List NetworkServicePolicy
  catchAll : CatchAllPolicy

/-- `build_service_policy`. -/
def buildServicePolicy (ports : HostPorts) (dep : NetworkDependency) (defaultBindIp : PyStr)
    (checkBindAvailability : Bool) (asked : ℕ) :
    Except PortError (Option NetworkServicePolicy × ℕ) :=
  if dep.transport ≠ py "tcp" then .ok (none, asked)
  else do
    let (bindPort, asked) ←
      chooseTcpBindPort ports defaultBindIp (some dep.port) checkBindAvailability asked
    return (some
      { serviceType := py "tcp"
        role := dep.type
        remoteIp := dep.ip
        remotePort := dep.port
        bindIp := defaultBindIp
        bindPort := bindPort
        protocolHint := dep.type }, asked)

/-- The loop of `build_network_policy`. -/
def buildServices (ports : HostPorts) (defaultBindIp : PyStr) (checkBindAvailability : Bool) :
    List NetworkDependency → ℕ → Except PortError (List NetworkServicePolicy)
  | [], _ => .ok []
  | dep :: rest, asked => do
    let (service, asked) ← buildServicePolicy ports dep defaultBindIp checkBindAvailability asked
    let services ← buildServices ports defaultBindIp checkBindAvailability rest asked
    return service.toList ++ services

/-- `127.0.0.1`. -/
def localhost : PyStr := py "127.0.0.1"

/-- `build_network_policy`. -/
def buildNetworkPolicy (ports : HostPorts) (networkDependencies : List NetworkDependency) (mode : PyStr)
    (defaultBindIp : PyStr) (checkBindAvailability enableCatchAll : Bool) (catchAllPort : ℤ) :
    Except PortError NetworkPolicy := do
  let services ← buildServices ports defaultBindIp checkBindAvailability networkDependencies 0
  return {
    mode := mode
    allowInternet := false
    services := services
    catchAll :=
      { enabled := enableCatchAll
        tcpBindIp := localhost
        tcpBindPort := catchAllPort
        udpEnabled := true
        udpBindIp := localhost
        udpBindPort := 40001
        unknownPolicy := py "transparent_redirect_and_log" } }

/-- The addresses and ports that a policy makes listeners for. -/
def NetworkPolicy.listeners (policy : NetworkPolicy) : List (PyStr × ℤ) :=
  policy.services.map (fun service => (service.bindIp, (service.bindPort : ℤ))) ++
    if policy.catchAll.enabled then
      [(policy.catchAll.tcpBindIp, policy.catchAll.tcpBindPort),
        (policy.catchAll.udpBindIp, policy.catchAll.udpBindPort)]
    else []

/-! ### The plan of the controlled network -/

/-- Why there is no plan: a `ControlledNetworkError`, or an exception that is not caught. -/
inductive ControlledNetworkError
  | invalid (message : PyStr)
  | overflow
  | encode
  deriving DecidableEq

namespace SocketPortAllocator

def minPort : ℕ := 20000

def maxPort : ℕ := 39999

/-- `SocketPortAllocator.allocate`. -/
def allocate (ports : HostPorts) (host : PyStr) (preferredStart : ℕ) : Except ControlledNetworkError ℕ :=
  match firstFree (ports.free host) minPort maxPort preferredStart with
  | some port => .ok port
  | none =>
    .error (.invalid (py "no free TCP port available on " ++ host ++ py " in " ++ decimal minPort ++ py "-" ++
      decimal maxPort))

end SocketPortAllocator

structure NetworkServiceMapping where
  serviceType : PyStr
  role : PyStr
  remoteIp : PyStr
  remotePort : ℤ
  protocolHint : Option PyStr
  placement : PyStr
  bindIp : PyStr
  bindPort : ℤ
  deriving DecidableEq

structure ControlledNetworkPlan where
  hostIp : PyStr
  catchAllEnabled : Bool
  catchAllTcpPort : ℤ
  catchAllUdpPort : ℤ
  hostServices : List NetworkServiceMapping
  loopbackServices : List NetworkServiceMapping
  skippedServices : List Json

/-- What the loop of `_build_plan` does with a requested service. -/
inductive ServiceDecision
  | skipped (entry : Json)
  | loopback (mapping : NetworkServiceMapping)
  | host (role remoteIp : PyStr) (remotePort : ℤ) (protocolHint : Option PyStr)

section Builtins

variable (builtins : PyBuiltins)

/-- `int(value)`, with nothing for a `TypeError` or a `ValueError`. -/
def intOrNone : Json → Except ControlledNetworkError (Option ℤ)
  | .float (.inf _) => .error .overflow
  | value => .ok (builtins.intOf value).toOption

/-- `str(value or "tcp")`. -/
def textOrTcp (value : Json) : PyStr := if value.truthy then builtins.strOf value else py "tcp"

/-- The decision about the service with an index. -/
def classifyService (index : ℕ) (item : Json) : Except ControlledNetworkError ServiceDecision :=
  let skip (reason : PyStr) (more : List (PyStr × Json)) : ServiceDecision :=
    .skipped (.obj ([(py "index", .int index), (py "reason", .str reason)] ++ more))
  match item with
  | .obj fields => do
    let serviceType := builtins.lower (textOrTcp builtins (field (py "service_type") fields))
    if serviceType ≠ py "tcp" then
      return skip (py "controlled backend v1 supports known TCP services only")
        [(py "service_type", .str serviceType)]
    else
      match field (py "remote_ip") fields with
      | .str [] => return skip (py "remote_ip is missing") []
      | .str remoteIpRaw =>
        match ipAddress remoteIpRaw with
        | none => return skip (py "remote_ip is invalid") [(py "remote_ip", .str remoteIpRaw)]
        | some (.v6 _ _) =>
          return skip (py "controlled backend v1 supports IPv4 only") [(py "remote_ip", .str remoteIpRaw)]
        | some (.v4 remoteIp) => do
          let remotePort ← intOrNone builtins (field (py "remote_port") fields)
          match remotePort with
          | none => return skip (py "remote_port is invalid") []
          | some remotePort =>
            if ¬ (1 ≤ remotePort ∧ remotePort ≤ 65535) then
              return skip (py "remote_port is out of range") [(py "remote_port", .int remotePort)]
            else
              let role := textOrTcp builtins (field (py "role") fields)
              let protocolHint :=
                match field (py "protocol_hint") fields with
                | .null => none
                | value => some (builtins.strOf value)
              -- `is_loopback` of an IPv4 address.
              if (IpNetwork.v4 (IpAddress.quad 127 0 0 0) 8).contains (.v4 remoteIp) then
                return .loopback
                  { serviceType := py "tcp"
                    role := role
                    remoteIp := ipv4Text remoteIp
                    remotePort := remotePort
                    protocolHint := protocolHint
                    placement := py "namespace_loopback"
                    bindIp := ipv4Text remoteIp
                    bindPort := remotePort }
              else return .host role (ipv4Text remoteIp) remotePort protocolHint
      | _ => return skip (py "remote_ip is missing") []
  | _ => return skip (py "service is not an object") []

/-- What the loop of `_build_plan` has planned. -/
structure PlannedServices where
  host : List NetworkServiceMapping
  loopback : List NetworkServiceMapping
  skipped : List Json

/-- The rest of the body of the loop. -/
def placeService (ports : HostPorts) (hostIp : PyStr) (portSeed : ℕ) (planned : PlannedServices) :
    ServiceDecision → Except ControlledNetworkError PlannedServices
  | .skipped entry => .ok { planned with skipped := planned.skipped ++ [entry] }
  | .loopback mapping => .ok { planned with loopback := planned.loopback ++ [mapping] }
  | .host role remoteIp remotePort protocolHint => do
    let bindPort ← SocketPortAllocator.allocate ports hostIp (portSeed + planned.host.length)
    return { planned with
      host := planned.host ++
        [{ serviceType := py "tcp"
           role := role
           remoteIp := remoteIp
           remotePort := remotePort
           protocolHint := protocolHint
           placement := py "host_gateway"
           bindIp := hostIp
           bindPort := bindPort }] }

/-- The loop of `_build_plan`. -/
def planServices (ports : HostPorts) (hostIp : PyStr) (portSeed : ℕ) :
    ℕ → PlannedServices → List Json → Except ControlledNetworkError PlannedServices
  | _, planned, [] => .ok planned
  | index, planned, item :: rest => do
    let decision ← classifyService builtins index item
    let planned ← placeService ports hostIp portSeed planned decision
    planServices ports hostIp portSeed (index + 1) planned rest

/-- `_validated_port`. -/
def validatedPort (value : Json) (label : PyStr) : Except ControlledNetworkError ℤ := do
  let port ← intOrNone builtins value
  match port with
  | none => .error (.invalid (label ++ py " must be an integer"))
  | some port =>
    if 1 ≤ port ∧ port ≤ 65535 then .ok port else .error (.invalid (label ++ py " is out of range"))

/-- The port that the first service prefers. -/
def portSeed (sha : Sha256) (sessionId : PyStr) (iterationIndex : ℕ) : ℕ :=
  let digest := sha.hexdigest (sessionId ++ py ":" ++ decimal iterationIndex)
  20000 + (hexDigits (digest.take 4) 0).getD 0 % 15000

/-- `_build_plan`. -/
def buildPlan (sha : Sha256) (ports : HostPorts) (sessionId : PyStr) (iterationIndex : ℕ)
    (requested : List (PyStr × Json)) (hostIp : PyStr) :
    Except ControlledNetworkError ControlledNetworkPlan :=
  match fieldOr (py "services") (.arr []) requested with
  | .arr services =>
    if ¬ PyStr.encodable sessionId then .error .encode
    else do
      let planned ← planServices builtins ports hostIp (portSeed sha sessionId iterationIndex) 0
        ⟨[], [], []⟩ services
      match fieldOr (py "catch_all") (.obj []) requested with
      | .obj catchAll => do
        let tcpPort ← validatedPort builtins (fieldOr (py "tcp_bind_port") (.int 40000) catchAll)
          (py "catch_all.tcp_bind_port")
        let udpPort ← validatedPort builtins (fieldOr (py "udp_bind_port") (.int 40001) catchAll)
          (py "catch_all.udp_bind_port")
        if tcpPort = udpPort then
          .error (.invalid (py "TCP and UDP catch-all ports must be different"))
        else
          return {
            hostIp := hostIp
            catchAllEnabled := (fieldOr (py "enabled") (.bool true) catchAll).truthy
            catchAllTcpPort := tcpPort
            catchAllUdpPort := udpPort
            hostServices := planned.host
            loopbackServices := planned.loopback
            skippedServices := planned.skipped }
      | _ => .error (.invalid (py "network policy catch_all must be a JSON object"))
  | _ => .error (.invalid (py "network policy services must be a JSON array"))

end Builtins

end TaintForge
