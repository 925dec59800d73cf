import Sart.Lib.Run
import Sart.Rib.Manager

/-!
# The channels of the daemon

One loop serves the control plane and the RIB manager, and every peer has a loop of its own.  All
channels are bounded, and who sends to a full one waits.

The server loop is the only consumer of the events for the manager, but it is a producer, too.  And
while it waits for room in the channel of a peer, it takes no event.
-/

namespace Sart

open Sart.Lib

inductive ControlEvent where
  | health
  | getBgpInfo
  | getPeer (addr : IpAddr)
  | listPeer
  | getPath (family : AddressFamily)
  | getNeighborPath (addr : IpAddr) (family : AddressFamily)
  | getPathByPrefix (pfx : IpNet) (family : AddressFamily)
  | setAsn (asn : UInt32)
  | setRouterId (id : Ipv4Addr)
  | clearBgpInfo
  | addPeer (neighbor : NeighborPair)
  | deletePeer (addr : IpAddr)
  | addPath (networks : List IpNet) (attrs : List Attribute)
  | deletePath (family : AddressFamily) (networks : List IpNet)
  | configureMultiPath (enable : Bool)
  deriving DecidableEq

structure Server where
  asn : UInt32
  routerId : Ipv4Addr
  peerManagers : AList fun _ : IpAddr => UInt32

namespace Server

/-- The event for the manager that a control event is passed on as.  The numbers are only set
once. -/
def request (server : Server) : ControlEvent → Option RibEvent
  | .getPath family => some (.getPath family)
  | .getPathByPrefix pfx family => some (.getPathByPrefix pfx family)
  | .setAsn asn => if server.asn ≠ 0 then none else some (.setAsn asn)
  | .setRouterId id => if server.routerId ≠ 0 then none else some (.setRouterId id)
  | .addPeer neighbor =>
    if neighbor.addr ∈ server.peerManagers then none else some (.addPeer neighbor)
  | .deletePeer addr =>
    (server.peerManagers.lookup addr).map fun asn => .deletePeer ⟨addr, asn⟩
  | .addPath networks attrs => some (.addPath networks attrs)
  | .deletePath family networks => some (.deletePath family networks)
  | .configureMultiPath enable => some (.setMultiPath enable)
  | .health | .getBgpInfo | .getPeer _ | .listPeer | .getNeighborPath _ _ | .clearBgpInfo => none

def handleEvent (server : Server) : ControlEvent → Server
  | .setAsn asn => if server.asn ≠ 0 then server else { server with asn := asn }
  | .setRouterId id => if server.routerId ≠ 0 then server else { server with routerId := id }
  | .addPeer neighbor =>
    if neighbor.addr ∈ server.peerManagers then server
    else { server with peerManagers := server.peerManagers.insert neighbor.addr neighbor.asn }
  | .deletePeer addr => { server with peerManagers := server.peerManagers.erase addr }
  | _ => server

end Server

inductive PeerReport where
  | init (family : AddressFamily)
  | installPaths (paths : List Path)
  | dropPaths (family : AddressFamily) (pathIds : List (IpNet × UInt64))
  deriving DecidableEq

def PeerReport.event (neighbor : NeighborPair) : PeerReport → RibEvent
  | .init family => .init family neighbor
  | .installPaths paths => .installPaths neighbor paths
  | .dropPaths family pathIds => .dropPaths neighbor family pathIds

structure PeerTask where
  neighbor : NeighborPair
  queue : List RibEvent
  reports : List RibEvent
  deriving DecidableEq

inductive Sending where
  | rib (event : RibEvent)
  | peer (channel : ℕ) (event : RibEvent)
  deriving DecidableEq

/-- How many messages the manager sends at most to one peer for an event. -/
def RibEvent.messages : RibEvent → ℕ
  | .deletePath _ _ | .dropPaths _ _ _ => 2
  | .init _ _ | .addPath _ _ | .installPaths _ _ => 1
  | _ => 0

namespace Sending

def isRib : Sending → Bool
  | .rib _ => true
  | .peer _ _ => false

def isFor (channel : ℕ) : Sending → Bool
  | .rib _ => false
  | .peer other _ => channel == other

end Sending

/-- The server loop with the manager, and the loops of the peers.  A peer has the channel with its
place in the list; the manager knows the channels of the registered peers. -/
structure Daemon where
  server : Server
  rib : RibManager
  registered : AList fun _ : NeighborPair => ℕ
  seen : ℕ
  ribQueue : List RibEvent
  pending : List Sending
  peers : List PeerTask

inductive DaemonStep where
  | control (event : ControlEvent)
  | handle (env : Env)
  | deliver
  | wake (channel : ℕ) (reports : List PeerReport)
  | report (channel : ℕ)
  | receive (channel : ℕ)

namespace Daemon

def CAPACITY : ℕ := 128

def new (asn : UInt32) (routerId : Ipv4Addr) (endpoint : Bool) (tableId : UInt8)
    (multiPath : Bool) : Daemon where
  server := ⟨asn, routerId, ∅⟩
  rib := RibManager.new asn routerId endpoint tableId [.ipv4, .ipv6] multiPath
  registered := ∅
  seen := 0
  ribQueue := []
  pending := []
  peers := []

/-- The channels of the registered peers after an event.  The event that adds a peer carries its
channel. -/
def register (daemon : Daemon) : RibEvent → AList fun _ : NeighborPair => ℕ
  | .addPeer neighbor =>
    if neighbor ∈ daemon.rib.peersTx then daemon.registered
    else daemon.registered.insert neighbor daemon.seen
  | .deletePeer neighbor => daemon.registered.erase neighbor
  | _ => daemon.registered

def sendings (registered : AList fun _ : NeighborPair => ℕ) (outputs : List Output) :
    List Sending :=
  outputs.filterMap fun out =>
    match out with
    | .send peer event => (registered.lookup peer).map fun channel => .peer channel event
    | _ => none

def start (peers : List PeerTask) : RibEvent → List PeerTask
  | .addPeer neighbor => peers ++ [⟨neighbor, [], []⟩]
  | _ => peers

def onRibEvent (env : Env) (daemon : Daemon) (event : RibEvent) (rest : List RibEvent) : Daemon :=
  let state := (RibManager.handle env event ⟨daemon.rib, []⟩).2
  { daemon with
    rib := state.rib
    registered := daemon.register event
    seen := match event with
      | .addPeer _ => daemon.seen + 1
      | _ => daemon.seen
    ribQueue := rest
    pending := sendings daemon.registered state.sent }

def step (daemon : Daemon) : DaemonStep → Daemon
  | .control event =>
    if daemon.pending = [] then
      { daemon with
        server := daemon.server.handleEvent event
        pending := (daemon.server.request event).toList.map .rib }
    else daemon
  | .handle env =>
    match daemon.pending, daemon.ribQueue with
    | [], event :: rest => daemon.onRibEvent env event rest
    | _, _ => daemon
  | .deliver =>
    match daemon.pending with
    | [] => daemon
    | .rib event :: rest =>
      if daemon.ribQueue.length < CAPACITY then
        { daemon with
          ribQueue := daemon.ribQueue ++ [event], pending := rest
          peers := start daemon.peers event }
      else daemon
    | .peer channel event :: rest =>
      match daemon.peers[channel]? with
      | none => { daemon with pending := rest }
      | some task =>
        if task.queue.length < CAPACITY then
          { daemon with
            pending := rest
            peers := daemon.peers.set channel { task with queue := task.queue ++ [event] } }
        else daemon
  | .wake channel reports =>
    match daemon.peers[channel]? with
    | none => daemon
    | some task =>
      if task.reports = [] then
        { daemon with
          peers := daemon.peers.set channel
            { task with reports := reports.map (PeerReport.event task.neighbor) } }
      else daemon
  | .report channel =>
    match daemon.peers[channel]? with
    | none => daemon
    | some task =>
      match task.reports with
      | [] => daemon
      | event :: rest =>
        if daemon.ribQueue.length < CAPACITY then
          { daemon with
            ribQueue := daemon.ribQueue ++ [event]
            peers := daemon.peers.set channel { task with reports := rest } }
        else daemon
  | .receive channel =>
    match daemon.peers[channel]? with
    | none => daemon
    | some task =>
      if task.reports = [] then
        { daemon with peers := daemon.peers.set channel { task with queue := task.queue.tail } }
      else daemon

def WaitsForItself (daemon : Daemon) : Prop :=
  ∃ event rest, daemon.pending = .rib event :: rest ∧ CAPACITY ≤ daemon.ribQueue.length

def WaitsInCircle (daemon : Daemon) : Prop :=
  ∃ channel event rest task, daemon.pending = .peer channel event :: rest ∧
    daemon.peers[channel]? = some task ∧ CAPACITY ≤ task.queue.length ∧ task.reports ≠ [] ∧
    CAPACITY ≤ daemon.ribQueue.length

def Deadlocked (daemon : Daemon) : Prop := daemon.WaitsForItself ∨ daemon.WaitsInCircle

def waiting (daemon : Daemon) : ℕ := daemon.pending.countP Sending.isRib

/-- The condition on a step.  The server loop takes a control event when there is room for what it
passes on, and a peer leaves that room.  It takes an event for the manager when every registered
peer has room for what the manager may send for it. -/
def Roomy (daemon : Daemon) : DaemonStep → Prop
  | .control event =>
    daemon.pending = [] → daemon.server.request event ≠ none → daemon.ribQueue.length < CAPACITY
  | .handle _ => daemon.pending = [] → ∀ event ∈ daemon.ribQueue.head?, ∀ peer channel task,
      daemon.registered.lookup peer = some channel → daemon.peers[channel]? = some task →
        task.queue.length + event.messages ≤ CAPACITY
  | .report _ => daemon.waiting ≠ 0 → daemon.ribQueue.length + daemon.waiting < CAPACITY
  | _ => True

end Daemon

end Sart
