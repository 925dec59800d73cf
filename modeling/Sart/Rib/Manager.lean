import Sart.Lib.Effect
import Sart.Rib.LocRib

/-!
# The RIB manager

The manager writes the paths of an event into the Loc-RIB one by one, asks the FIB
endpoint to follow, and then tells the registered peers which best paths changed.

An event is an effect on the manager and on the history of what left it.  Whether
a channel is open and a request is served is up to the environment.  An event
that fails keeps what it did before.
-/

namespace Sart

open Sart.Lib Sart.Lib.Effect

namespace Bgp

def RTPROTO_BGP : UInt8 := 186

def RT_SCOPE_UNIVERSE : UInt8 := 0

def AD_EBGP : UInt8 := 20

def AD_IBGP : UInt8 := 200

end Bgp

/-! ## Requests to the FIB endpoint

Networks and addresses are sent as text; here they stand for themselves. -/

structure NextHop where
  gateway : IpAddr
  weight : UInt32
  flags : UInt32
  interface : UInt32
  deriving DecidableEq

structure Route where
  table : UInt32
  version : Int32
  destination : IpNet
  protocol : Int32
  scope : Int32
  type : Int32
  nextHops : List NextHop
  source : String
  ad : Int32
  priority : UInt32
  ibgp : Bool
  deriving DecidableEq

inductive FibRequest where
  | addRoute (table : UInt32) (version : Int32) (route : Route) (replace : Bool)
  | addMultiPathRoute (table : UInt32) (version : Int32) (route : Route)
  | deleteMultiPathRoute (table : UInt32) (version : Int32) (destination : IpNet)
      (gateways : List IpAddr)
  | deleteRoute (table : UInt32) (version : Int32) (destination : IpNet)
  deriving DecidableEq

inductive RibEvent where
  | setAsn (asn : UInt32)
  | setRouterId (id : Ipv4Addr)
  | setMultiPath (enable : Bool)
  | addPeer (neighbor : NeighborPair)
  | deletePeer (neighbor : NeighborPair)
  | init (family : AddressFamily) (neighbor : NeighborPair)
  | flush (family : AddressFamily) (neighbor : NeighborPair)
  | addPath (networks : List IpNet) (attrs : List Attribute)
  | deletePath (family : AddressFamily) (networks : List IpNet)
  | installPaths (neighbor : NeighborPair) (paths : List Path)
  | dropPaths (neighbor : NeighborPair) (family : AddressFamily)
      (pathIds : List (IpNet × UInt64))
  | advertise (paths : List Path)
  | withdraw (networks : List IpNet)
  | getPath (family : AddressFamily)
  | getPathByPrefix (pfx : IpNet) (family : AddressFamily)
  deriving DecidableEq

inductive Output where
  | send (peer : NeighborPair) (event : RibEvent)
  | fib (request : FibRequest)
  | api (paths : List Path)
  deriving DecidableEq

/-- The surroundings of the manager: the hasher and the clock of the standard library, and
the answer to each output, where a status refuses it. -/
structure Env where
  hash : PathBuilder → UInt64
  clock : List Output → ℕ → ℕ
  refuses : List Output → Output → Option Status

abbrev Env.ServesFib (env : Env) : Prop := ∀ sent request, env.refuses sent (.fib request) = none

structure RibManager where
  asn : UInt32
  routerId : Ipv4Addr
  locRib : LocRib
  /-- Whether a FIB endpoint is configured. -/
  endpoint : Bool
  tableId : UInt8
  /-- The peers whose channel is registered. -/
  peersTx : AList fun _ : NeighborPair => Unit

structure RibState where
  rib : RibManager
  sent : List Output

namespace RibState

def withLocRib (state : RibState) (locRib : LocRib) : RibState :=
  { state with rib := { state.rib with locRib := locRib } }

def put (state : RibState) (out : Output) : RibState :=
  { state with sent := state.sent ++ [out] }

end RibState

abbrev RibM := Effect RibState Error

namespace RibManager

def new (asn : UInt32) (routerId : Ipv4Addr) (endpoint : Bool) (tableId : UInt8)
    (protocols : List Afi) (multiPath : Bool) : RibManager where
  asn := asn
  routerId := routerId
  locRib := LocRib.new protocols multiPath
  endpoint := endpoint
  tableId := tableId
  peersTx := ∅

def peers (rib : RibManager) : List NeighborPair := rib.peersTx.keys

end RibManager

namespace RibM

def modifyRib (change : RibManager → RibManager) : RibM PUnit := fun state =>
  (.ok ⟨⟩, { state with rib := change state.rib })

def onLocRib (call : LocRib → Except Error LocRibStatus × LocRib) : RibM LocRibStatus :=
  fun state =>
    let state' := state.withLocRib (call state.rib.locRib).2
    match (call state.rib.locRib).1 with
    | .ok status => (.ok status, state')
    | .error cause => (.error cause, state')

def output (env : Env) (out : Output) : RibM PUnit := fun state =>
  match env.refuses state.sent out, out with
  | none, _ => (.ok ⟨⟩, state.put out)
  | some status, .fib _ => (.error (.endpoint status), state)
  | some _, _ => (.error (.control .failedToSendRecvChannel), state)

end RibM

open RibM

namespace RibManager

def priority (path : Path) : UInt8 :=
  if !path.isExternal then Bgp.AD_IBGP else Bgp.AD_EBGP

def version (family : AddressFamily) : Int32 := family.afi.inet.toUInt32.toInt32

def route (rib : RibManager) (path : Path) (nextHop : IpAddr) : Route where
  table := rib.tableId.toUInt32
  version := version path.family
  destination := path.pfx
  protocol := Bgp.RTPROTO_BGP.toUInt32.toInt32
  scope := Bgp.RT_SCOPE_UNIVERSE.toUInt32.toInt32
  type := path.family.safi.inet.toUInt32.toInt32
  nextHops := [⟨nextHop, (priority path).toUInt32, 0, 0⟩]
  source := ""
  ad := (priority path).toUInt32.toInt32
  priority := (priority path).toUInt32
  ibgp := !path.isExternal

def addRouteRequest (rib : RibManager) (path : Path) (nextHop : IpAddr) : FibRequest :=
  .addRoute rib.tableId.toUInt32 (version path.family) (rib.route path nextHop) true

def addMultiPathRouteRequest (rib : RibManager) (path : Path) (nextHop : IpAddr) :
    FibRequest :=
  .addMultiPathRoute rib.tableId.toUInt32 (version path.family) (rib.route path nextHop)

/-- Ask the FIB endpoint for the first next hop of a path, which must have one. -/
def applyPath (env : Env) (applyToFib : Bool)
    (request : RibManager → Path → IpAddr → FibRequest) (path : Path) : RibM PUnit := do
  let rib ← Effect.read RibState.rib
  if applyToFib && rib.endpoint then
    match path.nextHops with
    | [] => fail (.rib .nextHopMustBeSet)
    | nextHop :: _ => output env (.fib (request rib path nextHop))
  else pure ⟨⟩

def applyRequest (env : Env) (applyToFib : Bool) (request : RibManager → FibRequest) :
    RibM PUnit := do
  let rib ← Effect.read RibState.rib
  if applyToFib && rib.endpoint then output env (.fib (request rib)) else pure ⟨⟩

def addPeer (neighbor : NeighborPair) : RibM PUnit := do
  let rib ← Effect.read RibState.rib
  if neighbor ∈ rib.peersTx then fail (.rib .peerAlreadyRegistered)
  else modifyRib fun rib => { rib with peersTx := rib.peersTx.insert neighbor () }

def deletePeer (neighbor : NeighborPair) : RibM PUnit := do
  let rib ← Effect.read RibState.rib
  if neighbor ∈ rib.peersTx then
    modifyRib fun rib => { rib with peersTx := rib.peersTx.erase neighbor }
  else fail (.rib .peerNotFound)

def initFilter (rib : RibManager) (neighbor : NeighborPair) (path : Path) : Bool :=
  path.peerAddr != neighbor.addr ||
    if rib.asn = neighbor.asn then path.kind != .internal else false

def init (env : Env) (family : AddressFamily) (neighbor : NeighborPair) : RibM PUnit := do
  let rib ← Effect.read RibState.rib
  match rib.locRib.getAllBest family with
  | some paths =>
    if neighbor ∈ rib.peersTx then
      output env (.send neighbor (.advertise (paths.filter (rib.initFilter neighbor))))
    else fail (.rib .peerNotFound)
  | none => pure ⟨⟩

def skips (rib : RibManager) (neighbor peer : NeighborPair) : PathKind → Bool
  | .local => false
  | .external => peer == neighbor
  | .internal => rib.asn == peer.asn

def skipsSuccessor (rib : RibManager) (peer : NeighborPair) : PathKind → Bool
  | .local => false
  | .external => false
  | .internal => rib.asn == peer.asn

/-- The changed paths that are not skipped.  Each is looked up again by its identifier. -/
def advertised (rib : RibManager) (family : AddressFamily) (skip : PathKind → Bool) :
    List (IpNet × UInt64) → Outcome Error (List Path)
  | [] => .ok []
  | (pfx, id) :: rest =>
    match rib.locRib.getById family pfx id with
    | none => .error (.rib .pathNotFound)
    | some path => do
        let others ← rib.advertised family skip rest
        .ok (if skip path.kind then others else path :: others)

def advertise (env : Env) (family : AddressFamily)
    (skip : RibManager → NeighborPair → PathKind → Bool) (changed : List (IpNet × UInt64)) :
    RibM PUnit := do
  let rib ← Effect.read RibState.rib
  forEach (fun peer => do
    let paths ← lift (rib.advertised family (skip rib peer) changed)
    if paths.isEmpty then pure ⟨⟩ else output env (.send peer (.advertise paths))) rib.peers

def withdrawnFor (rib : RibManager) (neighbor peer : NeighborPair)
    (withdrawn : List (IpNet × PathKind)) : List IpNet :=
  (withdrawn.filter fun entry => !rib.skips neighbor peer entry.2).map Prod.fst

def withdraw (env : Env) (neighbor : NeighborPair) (withdrawn : List (IpNet × PathKind)) :
    RibM PUnit := do
  let rib ← Effect.read RibState.rib
  forEach (fun peer =>
    if (rib.withdrawnFor neighbor peer withdrawn).isEmpty then pure ⟨⟩
    else output env (.send peer (.withdraw (rib.withdrawnFor neighbor peer withdrawn)))) rib.peers

/-- One element of a batch: the network and the path to announce when its best path changed. -/
def installPath (env : Env) (family : AddressFamily) (applyToFib : Bool) (path : Path) :
    RibM (List (IpNet × UInt64)) := do
  match ← onLocRib fun locRib => locRib.insert family path with
  | .bestPathChanged pfx id =>
    applyPath env applyToFib addRouteRequest path
    pure [(pfx, id)]
  | .multiPathAdded =>
    applyPath env applyToFib addMultiPathRouteRequest path
    pure []
  | _ => pure []

def installPaths (env : Env) (neighbor : NeighborPair) (paths : List Path)
    (applyToFib : Bool) : RibM PUnit :=
  match paths with
  | [] => pure ⟨⟩
  | first :: rest => do
      let changed ← collect (installPath env first.family applyToFib) (first :: rest)
      advertise env first.family (fun rib peer => rib.skips neighbor peer) changed

inductive Notice where
  | advertise (pfx : IpNet) (id : UInt64)
  | withdraw (pfx : IpNet) (kind : PathKind)
  deriving DecidableEq

def Notice.advertise? : Notice → Option (IpNet × UInt64)
  | .advertise pfx id => some (pfx, id)
  | .withdraw _ _ => none

def Notice.withdraw? : Notice → Option (IpNet × PathKind)
  | .advertise _ _ => none
  | .withdraw pfx kind => some (pfx, kind)

def findPath (family : AddressFamily) (pfx : IpNet) (id : UInt64) : RibM Path := do
  let rib ← Effect.read RibState.rib
  match rib.locRib.getById family pfx id with
  | some path => pure path
  | none => fail (.rib .pathNotFound)

def dropPath (env : Env) (family : AddressFamily) (applyToFib : Bool)
    (pathId : IpNet × UInt64) : RibM (List Notice) := do
  match ← onLocRib fun locRib => locRib.drop family pathId.1 pathId.2 with
  | .bestPathChanged pfx id =>
    let path ← findPath family pfx id
    applyPath env applyToFib addRouteRequest path
    pure [.advertise pfx id]
  | .multiPathWithdrawn pfx id gateway =>
    let path ← findPath family pfx id
    match gateway with
    | some gateway =>
      applyRequest env applyToFib fun rib =>
        .deleteMultiPathRoute rib.tableId.toUInt32 (version path.family) pfx [gateway]
    | none => pure ⟨⟩
    pure []
  | .withdrawn pfx kind =>
    applyRequest env applyToFib fun rib =>
      .deleteRoute rib.tableId.toUInt32 (version family) pfx
    pure [.withdraw pfx kind]
  | _ => pure []

/-- All withdrawals go out before the paths that take over. -/
def dropPaths (env : Env) (neighbor : NeighborPair) (family : AddressFamily)
    (pathIds : List (IpNet × UInt64)) (applyToFib : Bool) : RibM PUnit := do
  let notices ← collect (dropPath env family applyToFib) pathIds
  withdraw env neighbor (notices.filterMap Notice.withdraw?)
  advertise env family skipsSuccessor (notices.filterMap Notice.advertise?)

def addPathBuild (env : Env) (state : RibState) (networks : List IpNet)
    (attrs : List Attribute) : Outcome Error (List Path) := do
  let builder ← (PathBuilder.builderLocal state.rib.routerId state.rib.asn).attrs attrs
  (builder.addNlri (networks.map fun network => ⟨network, none⟩)).build env.hash
    (env.clock state.sent)

def addPath (env : Env) (networks : List IpNet) (attrs : List Attribute) : RibM PUnit := do
  let state ← Effect.read id
  let paths ← lift (addPathBuild env state networks attrs)
  installPaths env ⟨.v4 state.rib.routerId, state.rib.asn⟩ paths false

def deletePathIds (rib : RibManager) (family : AddressFamily) (networks : List IpNet) :
    List (IpNet × UInt64) :=
  networks.flatMap fun pfx =>
    match rib.locRib.get family pfx with
    | some paths => (paths.filter Path.isLocalOriginated).map fun path => (path.pfx, path.id)
    | none => []

def deletePath (env : Env) (family : AddressFamily) (networks : List IpNet) : RibM PUnit := do
  let rib ← Effect.read RibState.rib
  dropPaths env ⟨.v4 rib.routerId, rib.asn⟩ family (rib.deletePathIds family networks) false

def getPath (env : Env) (family : AddressFamily) : RibM PUnit := do
  let rib ← Effect.read RibState.rib
  match rib.locRib.getAll family with
  | some paths => output env (.api paths)
  | none => pure ⟨⟩

def getPathByPrefix (env : Env) (pfx : IpNet) (family : AddressFamily) : RibM PUnit := do
  let rib ← Effect.read RibState.rib
  match rib.locRib.get family pfx with
  | some paths => output env (.api paths)
  | none => pure ⟨⟩

def handle (env : Env) : RibEvent → RibM PUnit
  | .setAsn asn => modifyRib fun rib => { rib with asn := asn }
  | .setRouterId id => modifyRib fun rib => { rib with routerId := id }
  | .setMultiPath enable =>
    modifyRib fun rib => { rib with locRib := { rib.locRib with multiPath := enable } }
  | .addPeer neighbor => addPeer neighbor
  | .deletePeer neighbor => deletePeer neighbor
  | .init family neighbor => init env family neighbor
  | .flush _ _ => pure ⟨⟩
  | .addPath networks attrs => addPath env networks attrs
  | .deletePath family networks => deletePath env family networks
  | .installPaths neighbor paths => installPaths env neighbor paths true
  | .dropPaths neighbor family pathIds => dropPaths env neighbor family pathIds true
  | .getPath family => getPath env family
  | .getPathByPrefix pfx family => getPathByPrefix env pfx family
  | .advertise _ | .withdraw _ => fail (.rib .unhandlableEvent)

end RibManager

def RibState.start (rib : RibManager) : RibState := ⟨rib, []⟩

def RibState.apply (env : Env) (state : RibState) (event : RibEvent) : RibState :=
  (RibManager.handle env event state).2

/-- A sequence of events; the manager goes on after one that fails. -/
def RibState.run (env : Env) (state : RibState) (events : List RibEvent) : RibState :=
  events.foldl (RibState.apply env) state

def sampleEnv : Env := ⟨fun _ => 0, fun _ _ => 0, fun _ _ => none⟩

def sampleRib (multiPath : Bool) : RibManager :=
  .new 65000 sampleRouter false 254 [.ipv4] multiPath

def sampleNeighbor (peer : Ipv4Addr) (asn : UInt32) : NeighborPair := ⟨.v4 peer, asn⟩

end Sart
