import Sart.Rib.Manager

/-!
# Routes of the FIB daemon

The FIB daemon keeps its own routes.  They come from the kernel and, as messages of
the BGP daemon, over gRPC.  Routes are compared by their administrative distance only.
-/

namespace Sart.Fib

open Sart.Lib

inductive Error where
  | invalidIpVersion
  | invalidProtocol
  | invalidScope
  | invalidType
  | invalidADValue
  | invalidNextHopFlag
  | multipathIsNotEqual
  deriving DecidableEq

inductive IpVersion where
  | v4
  | v6
  deriving DecidableEq

inductive NextHopFlags where
  | empty
  | dead
  | pervasive
  | onlink
  | offload
  | linkdown
  | unresolved
  deriving DecidableEq

inductive Scope where
  | universe
  | site
  | link
  | host
  | nowhere
  deriving DecidableEq

inductive Kind where
  | unspecType
  | unicast
  | local
  | broadcast
  | anycast
  | multicast
  | blackhole
  | unreachable
  | prohibit
  | throw
  | nat
  deriving DecidableEq

inductive AdministrativeDistance where
  | connected
  | static
  | ebgp
  | ospf
  | rip
  | ibgp
  deriving DecidableEq

inductive Protocol where
  | unspec
  | redirect
  | kernel
  | boot
  | static
  | bgp
  | ospf
  | rip
  | other (value : UInt8)
  deriving DecidableEq

structure NextHop where
  gateway : IpAddr
  weight : UInt32
  flags : NextHopFlags
  interface : UInt32
  deriving DecidableEq

structure Route where
  destination : IpNet
  version : IpVersion
  protocol : Protocol
  scope : Scope
  kind : Kind
  nextHops : List NextHop
  source : Option IpAddr
  priority : UInt32
  ad : AdministrativeDistance
  table : UInt8
  deriving DecidableEq

def NextHopFlags.tryFrom (value : UInt32) : Except Error NextHopFlags :=
  if value = 0 then .ok .empty
  else if value = 1 then .ok .dead
  else if value = 2 then .ok .pervasive
  else if value = 3 then .ok .onlink
  else if value = 4 then .ok .offload
  else if value = 16 then .ok .linkdown
  else if value = 32 then .ok .unresolved
  else .error .invalidNextHopFlag

def Scope.tryFrom (value : Int32) : Except Error Scope :=
  if value = 0 then .ok .universe
  else if value = 200 then .ok .site
  else if value = 253 then .ok .link
  else if value = 254 then .ok .host
  else if value = 255 then .ok .nowhere
  else .error .invalidScope

def Kind.tryFrom (value : Int32) : Except Error Kind :=
  if value = 0 then .ok .unspecType
  else if value = 1 then .ok .unicast
  else if value = 2 then .ok .local
  else if value = 3 then .ok .broadcast
  else if value = 4 then .ok .anycast
  else if value = 5 then .ok .multicast
  else if value = 6 then .ok .blackhole
  else if value = 7 then .ok .unreachable
  else if value = 8 then .ok .prohibit
  else if value = 9 then .ok .throw
  else if value = 10 then .ok .nat
  else .error .invalidType

namespace AdministrativeDistance

def value : AdministrativeDistance → ℕ
  | .connected => 0
  | .static => 1
  | .ebgp => 20
  | .ospf => 110
  | .rip => 120
  | .ibgp => 200

def tryFrom (value : UInt8) : Except Error AdministrativeDistance :=
  if value = 0 then .ok .connected
  else if value = 1 then .ok .static
  else if value = 20 then .ok .ebgp
  else if value = 110 then .ok .ospf
  else if value = 120 then .ok .rip
  else if value = 200 then .ok .ibgp
  else .error .invalidADValue

end AdministrativeDistance

def Protocol.from (value : UInt8) : Protocol :=
  if value = 0 then .unspec
  else if value = 1 then .redirect
  else if value = 2 then .kernel
  else if value = 3 then .boot
  else if value = 4 then .static
  else if value = 186 then .bgp
  else if value = 188 then .ospf
  else if value = 189 then .rip
  else .other value

def lowOctet (value : Int32) : UInt8 := value.toInt8.toUInt8

def NextHop.tryFrom (value : Sart.NextHop) : Except Error NextHop := do
  let flags ← NextHopFlags.tryFrom value.flags
  .ok ⟨value.gateway, value.weight, flags, value.interface⟩

namespace Route

/-- The route of a message.  Its source is an address or nothing, as the text is read. -/
def tryFrom (parse : String → Option IpAddr) (value : Sart.Route) : Except Error Route := do
  let version ←
    if value.version = 2 then .ok IpVersion.v4
    else if value.version = 10 then .ok IpVersion.v6
    else .error .invalidIpVersion
  let nextHops ← value.nextHops.mapM NextHop.tryFrom
  let scope ← Scope.tryFrom value.scope
  let kind ← Kind.tryFrom value.type
  let ad ← AdministrativeDistance.tryFrom (lowOctet value.ad)
  .ok {
    destination := value.destination
    version := version
    protocol := Protocol.from (lowOctet value.protocol)
    scope := scope
    kind := kind
    nextHops := nextHops
    source := parse value.source
    priority := value.priority
    ad := ad
    table := value.table.toUInt8 }

def default (destination : IpNet) (version : IpVersion) : Route where
  destination := destination
  version := version
  protocol := .unspec
  scope := .universe
  kind := .unspecType
  nextHops := []
  source := none
  priority := 0
  ad := .static
  table := 0

def gateways (route : Route) : List IpAddr := route.nextHops.map NextHop.gateway

def comparable (route other : Route) : Bool :=
  route.destination == other.destination && route.version == other.version &&
    route.protocol == other.protocol && route.scope == other.scope && route.kind == other.kind &&
    route.ad == other.ad && route.table == other.table

def mergeMultipath (route other : Route) : Except Error Route :=
  if route.comparable other then
    .ok { route with
      nextHops := route.nextHops ++ other.nextHops.filter fun hop => hop.gateway ∉ route.gateways }
  else .error .multipathIsNotEqual

def popMultipath (route other : Route) : Except Error Route :=
  if route.comparable other then
    .ok { route with nextHops := route.nextHops.filter fun hop => hop.gateway ∉ other.gateways }
  else .error .multipathIsNotEqual

/-- The comparison with a route to be removed.  The last gateway is not compared, and without
next hops its index is below zero. -/
def sameHops (route other : Route) : Outcome Error Bool :=
  if route.nextHops.length ≠ other.nextHops.length then .ok false
  else
    match route.nextHops.length with
    | 0 => .panic
    | last + 1 => .ok (route.gateways.take last == other.gateways.take last)

end Route

/-! ## A route

A route of the BGP daemon, for the runs on fixed inputs in other modules. -/

def sampleHop (gateway : Ipv4Addr) : NextHop := ⟨.v4 gateway, 1, .empty, 0⟩

def sampleNet : IpNet := .v4 (.ofLength 0x0a000000 24)

def sampleRoute (hops : List NextHop) (ad : AdministrativeDistance) : Route where
  destination := sampleNet
  version := .v4
  protocol := .bgp
  scope := .universe
  kind := .unicast
  nextHops := hops
  source := none
  priority := 20
  ad := ad
  table := 254

end Sart.Fib
