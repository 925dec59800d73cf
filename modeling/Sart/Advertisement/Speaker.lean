import Sart.Advertisement.Agent
import Sart.Rib.LocalNetworks

/-!
# The speaker behind the agent

The agent sees its speaker as the list of the networks of its local paths.  Behind it is the RIB
manager, which answers a call before it handles the event.  An event does to the Loc-RIB what the
agent expects, as long as the Loc-RIB can take a path of the network in and no path of a peer is
taken for a local one (`Served`).  So the list and the Loc-RIB have the same local paths of the
network (`Carries`), step by step and over every row of requests.

`follows_iff_settled` is about the Loc-RIB: it has a local path of the network exactly if the
written status has it advertised for an established peer.
-/

namespace Sart

open Sart.Lib Sart.Lib.Effect

namespace LocRib

def Holds (locRib : LocRib) (net : IpNet) : Prop :=
  ∃ afi, ∃ path ∈ locRib.paths afi net, path.isLocalOriginated = true

/-- The Loc-RIB has as many local paths of the network as the list of the speaker, and all of its
local paths are in the table for IPv4. -/
structure Carries (locRib : LocRib) (net : IpNet) (speaker : Speaker) : Prop where
  locals : (locRib.paths .ipv4 net).countP Path.isLocalOriginated = speaker.count net
  own : ∀ afi pfx, ∀ path ∈ locRib.paths afi pfx,
    path.pfx = pfx ∧ (path.isLocalOriginated = true → afi = .ipv4)
  registered : locRib.Registered .ipv4

/-- No path of a peer has the identifier of a local path of the network. -/
def Unmixed (locRib : LocRib) (net : IpNet) : Prop :=
  ∀ path ∈ locRib.paths .ipv4 net, path.isLocalOriginated = true →
    ∀ other ∈ locRib.paths .ipv4 net, other.id = path.id → other.isLocalOriginated = true
  deriving Decidable

/-- The list of the network is empty or has a best path, so that a path can be added. -/
def Marked (locRib : LocRib) (net : IpNet) : Prop :=
  locRib.paths .ipv4 net = [] ∨ ∃ path ∈ locRib.paths .ipv4 net, path.best = true
  deriving Decidable

variable {locRib : LocRib} {net : IpNet} {speaker : Speaker} {path : Path}

theorem Carries.holds_iff (carries : locRib.Carries net speaker) :
    locRib.Holds net ↔ net ∈ speaker := by
  have counted : net ∈ speaker ↔ 0 < (locRib.paths .ipv4 net).countP Path.isLocalOriginated := by
    rw [carries.locals, List.count_pos_iff]
  rw [counted, List.countP_pos_iff]
  constructor
  · rintro ⟨afi, path, member, isLocal⟩
    have table := (carries.own afi net path member).2 isLocal
    subst table
    exact ⟨path, member, isLocal⟩
  · rintro ⟨path, member, isLocal⟩
    exact ⟨.ipv4, path, member, isLocal⟩

theorem Carries.insert (carries : locRib.Carries path.pfx speaker)
    (isLocal : path.isLocalOriginated = true) {status : LocRibStatus}
    (returned : (locRib.insert .ipv4Unicast path).1 = .ok status) :
    (locRib.insert .ipv4Unicast path).2.Carries path.pfx (path.pfx :: speaker) where
  locals := by
    rw [countLocal_insert isLocal returned, carries.locals, List.count_cons_self,
      if_pos ⟨rfl, rfl⟩]
  own := forall_mem_insert (fun afi pfx path => path.pfx = pfx ∧
    (path.isLocalOriginated = true → afi = .ipv4)) carries.own ⟨rfl, fun _ => rfl⟩
  registered := (locRib.insert_registered ..).mpr carries.registered

end LocRib

namespace RibManager

open RibM

variable {env : Env} {state : RibState} {locRib : LocRib} {net : IpNet} {speaker : Speaker}

/-- The path is still to be added, or it is in. -/
def Coming (path : Path) (speaker : Speaker) (todo : List Path) (locRib : LocRib) : Prop :=
  todo = [path] ∧ locRib.Carries path.pfx speaker ∧ locRib.Marked path.pfx ∨
    todo = [] ∧ locRib.Carries path.pfx (path.pfx :: speaker)

theorem Coming.insert {path next : Path} {todo : List Path}
    (isLocal : path.isLocalOriginated = true)
    (coming : Coming path speaker (next :: todo) locRib) :
    (∃ status, (locRib.insert .ipv4Unicast next).1 = .ok status) ∧
      Coming path speaker todo (locRib.insert .ipv4Unicast next).2 := by
  rcases coming with ⟨parts, carries, marked⟩ | ⟨none, -⟩
  · rcases List.cons_eq_cons.mp parts with ⟨rfl, rfl⟩
    have returns : ∃ status, (locRib.insert .ipv4Unicast next).1 = .ok status :=
      LocRib.insert_returns carries.registered marked
    rcases returns with ⟨status, returned⟩
    exact ⟨⟨status, returned⟩, .inr ⟨rfl, carries.insert isLocal returned⟩⟩
  · cases none

theorem addPath_carries (carries : state.rib.locRib.Carries net speaker)
    (marked : state.rib.locRib.Marked net) :
    (addPath env [net] [] state).2.rib.locRib.Carries net (net :: speaker) := by
  rcases addPathBuild_eq env state [net] with ⟨paths, built, networks, ofBuilder⟩
  rcases List.map_eq_singleton_iff.mp networks with ⟨path, rfl, rfl⟩
  rcases ofBuilder path (by simp) with ⟨isLocal, unicast⟩
  have ran : addPath env [path.pfx] [] state =
      installPaths env ⟨.v4 state.rib.routerId, state.rib.asn⟩ [path] false state := by
    simp [addPath, bind_apply, Effect.read, Effect.lift, built]
  rw [ran]
  refine Spec.final (((Spec.collect (fun todo _ (state : RibState) =>
    Coming path speaker todo state.rib.locRib) ?_ [path] []).implies fun _ _ coming => ?_).bind
      fun changed => advertise_rib fun rib => rib.locRib.Carries path.pfx (path.pfx :: speaker))
    (.inl ⟨rfl, carries, marked⟩)
  · intro next todo _
    rw [unicast]
    exact installPath_silent (fun state coming => (coming.insert isLocal).1)
      fun state coming => (coming.insert isLocal).2
  · exact (coming.resolve_left (by simp)).2

/-- The local paths of the network are those with the given identifiers, and they are still to be
dropped. -/
structure Leftover (net : IpNet) (todo : List (IpNet × UInt64)) (locRib : LocRib) : Prop where
  ids : (((locRib.paths .ipv4 net).filter Path.isLocalOriginated).map Path.id).Perm
    (todo.map Prod.snd)
  network : ∀ pathId ∈ todo, pathId.1 = net
  isLocal : ∀ pathId ∈ todo, ∀ path ∈ locRib.paths .ipv4 net, path.id = pathId.2 →
    path.isLocalOriginated = true
  own : ∀ afi pfx, ∀ path ∈ locRib.paths afi pfx,
    path.pfx = pfx ∧ (path.isLocalOriginated = true → afi = .ipv4)
  registered : locRib.Registered .ipv4

theorem ids_unmarked (paths : List Path) : (paths.filter Path.isLocalOriginated).map Path.id =
    ((paths.map Path.unmarked).filter Path.isLocalOriginated).map Path.id := by
  rw [List.filter_map, List.map_map]
  rfl

theorem Leftover.drop {pathId : IpNet × UInt64} {todo : List (IpNet × UInt64)}
    (leftover : Leftover net (pathId :: todo) locRib) :
    (∃ status, (locRib.drop .ipv4Unicast pathId.1 pathId.2).1 = .ok status) ∧
      Leftover net todo (locRib.drop .ipv4Unicast pathId.1 pathId.2).2 := by
  have here := leftover.network pathId (by simp)
  have listed : pathId.2 ∈ ((locRib.paths .ipv4 net).filter Path.isLocalOriginated).map Path.id :=
    leftover.ids.mem_iff.mpr (by simp)
  rcases List.mem_map.mp listed with ⟨path, member, same⟩
  rw [here, ← same]
  have returns : ∃ status, (locRib.drop .ipv4Unicast net path.id).1 = .ok status :=
    LocRib.drop_returns (List.mem_filter.mp member).1
  rcases returns with ⟨status, returned⟩
  refine ⟨⟨status, returned⟩, ?_⟩
  rcases LocRib.drop_ok returned with
    ⟨before, removed, after, stored, split, shape, dropped, updated⟩
  rcases splitById_eq_some split with ⟨-, sameId, -⟩
  change locRib.paths .ipv4 net = before ++ removed :: after at shape
  have removedLocal : removed.isLocalOriginated = true :=
    leftover.isLocal pathId (by simp) removed (by simp [shape]) (sameId.trans same)
  refine ⟨?_, fun other isTodo => leftover.network other (by simp [isTodo]), ?_, ?_, ?_⟩
  · have ids := leftover.ids
    rw [shape, List.filter_append, List.filter_cons_of_pos removedLocal, List.map_append,
      List.map_cons, sameId, same, List.map_cons] at ids
    rw [updated, if_pos ⟨rfl, rfl⟩, ids_unmarked, dropped.map_unmarked, ← ids_unmarked,
      List.filter_append, List.map_append]
    exact (List.perm_middle.symm.trans ids).cons_inv
  · intro other isTodo old oldMem sameOther
    rcases LocRib.mem_drop oldMem with ⟨first, firstMem, unmarked⟩
    rw [Path.isLocalOriginated_of_unmarked unmarked]
    exact leftover.isLocal other (by simp [isTodo]) first firstMem
      ((Path.id_of_unmarked unmarked).symm.trans sameOther)
  · exact LocRib.forall_mem_drop (fun afi pfx path => path.pfx = pfx ∧
      (path.isLocalOriginated = true → afi = .ipv4)) leftover.own
  · exact (locRib.drop_registered ..).mpr leftover.registered

theorem dropPaths_leftover {neighbor : NeighborPair} {pathIds : List (IpNet × UInt64)} :
    Spec (fun state => Leftover net pathIds state.rib.locRib)
      (dropPaths env neighbor .ipv4Unicast pathIds false)
      (fun _ state => Leftover net [] state.rib.locRib)
      (fun _ state => Leftover net [] state.rib.locRib) := by
  refine (Spec.collect (fun todo _ (state : RibState) =>
    Leftover net todo state.rib.locRib) ?_ pathIds []).bind fun notices =>
      (withdraw_rib fun rib => Leftover net [] rib.locRib).bind fun _ =>
        advertise_rib fun rib => Leftover net [] rib.locRib
  intro pathId todo _
  exact dropPath_silent (fun state leftover => leftover.drop.1) fun state leftover =>
    leftover.drop.2

theorem deletePathIds_singleton (rib : RibManager) (family : AddressFamily) (net : IpNet) :
    rib.deletePathIds family [net] =
      ((rib.locRib.paths family.afi net).filter Path.isLocalOriginated).map
        fun path => (path.pfx, path.id) := by
  rw [deletePathIds_eq]
  exact List.append_nil _

theorem leftover_deletePathIds {rib : RibManager} (carries : rib.locRib.Carries net speaker)
    (unmixed : rib.locRib.Unmixed net) :
    Leftover net (rib.deletePathIds .ipv4Unicast [net]) rib.locRib := by
  rw [deletePathIds_singleton]
  refine ⟨?_, ?_, ?_, carries.own, carries.registered⟩
  · rw [List.map_map]
    exact .refl _
  · intro pathId member
    rcases List.mem_map.mp member with ⟨path, stored, rfl⟩
    exact (carries.own _ _ path (List.mem_filter.mp stored).1).1
  · intro pathId member path stored sameId
    rcases List.mem_map.mp member with ⟨other, otherStored, rfl⟩
    rcases List.mem_filter.mp otherStored with ⟨otherMem, isLocal⟩
    exact unmixed other otherMem isLocal path stored sameId

/-- A network that is deleted has no local path any more, unless the request is for the table in
which there is none anyway. -/
theorem deletePath_carries {ba : BGPAdvertisement}
    (carries : state.rib.locRib.Carries ba.cidr speaker)
    (unmixed : state.rib.locRib.Unmixed ba.cidr) :
    (deletePath env ba.protocol.family [ba.cidr] state).2.rib.locRib.Carries ba.cidr
      (speaker.handle ba.deletePath) := by
  change (dropPaths env ⟨.v4 state.rib.routerId, state.rib.asn⟩ ba.protocol.family
    (state.rib.deletePathIds ba.protocol.family [ba.cidr]) false state).2.rib.locRib.Carries _ _
  rw [Speaker.handle_deletePath]
  cases ba.protocol with
  | ipv4 =>
    have done : Leftover ba.cidr [] (dropPaths env ⟨.v4 state.rib.routerId, state.rib.asn⟩
        .ipv4Unicast (state.rib.deletePathIds .ipv4Unicast [ba.cidr]) false state).2.rib.locRib :=
      dropPaths_leftover.final (leftover_deletePathIds carries unmixed)
    refine ⟨?_, done.own, done.registered⟩
    have none := List.map_eq_nil_iff.mp (List.perm_nil.mp done.ids)
    rw [List.countP_eq_length_filter]
    exact (congrArg List.length none).trans (List.count_eq_zero.mpr (by simp)).symm
  | ipv6 =>
    have none : state.rib.deletePathIds .ipv6Unicast [ba.cidr] = [] := by
      rw [deletePathIds_singleton, List.map_eq_nil_iff, List.filter_eq_nil_iff]
      intro path member isLocal
      exact absurd ((carries.own _ _ path member).2 isLocal) (by decide)
    rw [Protocol.family, none]
    have keeps : Keeps (fun state : RibState => state.rib.locRib.Carries ba.cidr speaker)
        (dropPaths env ⟨.v4 state.rib.routerId, state.rib.asn⟩ .ipv6Unicast [] false) :=
      (Spec.pure fun _ holds => holds).bind fun _ =>
        (withdraw_rib fun rib => rib.locRib.Carries ba.cidr speaker).bind fun _ =>
          advertise_rib fun rib => rib.locRib.Carries ba.cidr speaker
    exact keeps.final carries

end RibManager

namespace Agent

variable {env : Env} {answers : AgentAnswers} {ba : BGPAdvertisement} {nb : NodeBGP}
  {bgpPeers : AList fun _ : String => BGPPeer} {peer : BGPPeerSlim} {speaker : Speaker}
  {state : RibState} {event : RibEvent} {run : AgentRun}

/-- The Loc-RIB can take in a path of the network that is to be added, and it does not take a path
of a peer for a local one that is to be deleted. -/
def Served (net : IpNet) (state : RibState) : RibEvent → Prop
  | .addPath _ _ => state.rib.locRib.Marked net
  | .deletePath _ _ => state.rib.locRib.Unmixed net
  | _ => True

def IsRequest (ba : BGPAdvertisement) (event : RibEvent) : Prop :=
  event = ba.addPath ∨ event = ba.deletePath

theorem apply_carries (isRequest : IsRequest ba event)
    (carries : state.rib.locRib.Carries ba.cidr speaker) (served : Served ba.cidr state event) :
    (RibState.apply env state event).rib.locRib.Carries ba.cidr (speaker.handle event) := by
  rcases isRequest with rfl | rfl
  · exact RibManager.addPath_carries carries served
  · exact RibManager.deletePath_carries carries served

theorem requests_carry {events : List RibEvent} (requests : ∀ event ∈ events, IsRequest ba event)
    (carries : state.rib.locRib.Carries ba.cidr speaker)
    (served : AllSteps (RibState.apply env) (Served ba.cidr) state events) :
    (events.foldl (RibState.apply env) state).rib.locRib.Carries ba.cidr
      (events.foldl Speaker.handle speaker) := by
  induction events generalizing state speaker with
  | nil => exact carries
  | cons event events ih =>
    refine ih (fun other member => requests other (by simp [member])) ?_ served.2
    exact apply_carries (requests event (by simp)) carries served.1

/-- The agent has sent requests for its network only, and its view of the speaker is what they
make of the first one. -/
structure Sent (ba : BGPAdvertisement) (speaker : Speaker) (run : AgentRun) : Prop where
  requests : ∀ event ∈ run.requests, IsRequest ba event
  handled : run.speaker = run.requests.foldl Speaker.handle speaker

theorem callSpeaker_sent (isRequest : IsRequest ba event) :
    Keeps (Sent ba speaker) (callSpeaker answers event) := by
  refine Spec.of_final fun run sent => ?_
  unfold callSpeaker
  split_ifs
  · refine ⟨fun other member => ?_, ?_⟩
    · rcases List.mem_append.mp member with old | new
      · exact sent.requests other old
      · exact List.mem_singleton.mp new ▸ isRequest
    · simp [sent.handled]
  · exact ⟨sent.requests, sent.handled⟩

theorem changeStatus_sent (change : AdvertiseTable → AdvertiseTable) :
    Keeps (Sent ba speaker) (changeStatus change) :=
  Keeps.modify fun _ sent => ⟨sent.requests, sent.handled⟩

theorem reconcilePeer_sent : Keeps (Sent ba speaker) (reconcilePeer answers ba bgpPeers peer) := by
  unfold reconcilePeer
  split
  · exact Keeps.fail
  split_ifs
  · exact Keeps.modify fun _ sent => ⟨sent.requests, sent.handled⟩
  refine Keeps.readState fun run => ?_
  split
  · exact Keeps.pure
  · exact (callSpeaker_sent (.inl rfl)).bind fun _ => changeStatus_sent _
  · exact callSpeaker_sent (.inl rfl)
  · exact (callSpeaker_sent (.inr rfl)).bind fun _ => changeStatus_sent _

theorem reconcile_sent : Keeps (Sent ba speaker) (reconcile answers ba nb bgpPeers) := by
  unfold reconcile
  split
  · exact Keeps.pure
  refine Keeps.bind (Keeps.forEach (fun _ => reconcilePeer_sent) _) fun _ => ?_
  refine Keeps.readState fun run => ?_
  split_ifs
  · exact Keeps.pure
  · exact Keeps.fail
  · exact Keeps.pure
  · exact Keeps.pure

/-- Whatever becomes of a reconcile: when its requests are handled, the Loc-RIB has the local paths
that the agent sees in its speaker. -/
theorem reconcile_carries (carries : state.rib.locRib.Carries ba.cidr speaker)
    (served : AllSteps (RibState.apply env) (Served ba.cidr) state
      (reconcile answers ba nb bgpPeers (AgentRun.new ba speaker)).2.requests) :
    ((reconcile answers ba nb bgpPeers (AgentRun.new ba speaker)).2.requests.foldl
        (RibState.apply env) state).rib.locRib.Carries ba.cidr
      (reconcile answers ba nb bgpPeers (AgentRun.new ba speaker)).2.speaker := by
  have sent : Sent ba speaker (reconcile answers ba nb bgpPeers (AgentRun.new ba speaker)).2 :=
    reconcile_sent.final ⟨by simp [AgentRun.new], rfl⟩
  rw [sent.handled]
  exact requests_carry sent.requests carries served

/-- From a Loc-RIB that has the network exactly if it is advertised for some peer of the node, an
agent that succeeds makes the Loc-RIB follow the status exactly under the condition. -/
theorem follows_iff_settled {action : Action} (carries : state.rib.locRib.Carries ba.cidr speaker)
    (start : state.rib.locRib.Holds ba.cidr ↔
      ∃ peer ∈ nb.peerList, statusOf ba.peers peer.name = some .advertised)
    (ran : reconcile answers ba nb bgpPeers (AgentRun.new ba speaker) = (.ok action, run))
    (served : AllSteps (RibState.apply env) (Served ba.cidr) state run.requests) :
    Follows nb bgpPeers run.peers
        ((run.requests.foldl (RibState.apply env) state).rib.locRib.Holds ba.cidr) ↔
      Settled ba nb bgpPeers := by
  have final : (run.requests.foldl (RibState.apply env) state).rib.locRib.Carries ba.cidr
      run.speaker := by
    have carried := @reconcile_carries env answers ba nb bgpPeers speaker state carries
    rw [ran] at carried
    exact carried served
  rw [final.holds_iff]
  exact speaker_follows_iff (carries.holds_iff.symm.trans start) ran

def sampleShared : BGPAdvertisement where
  name := "web-192.0.2.1"
  cidr := .v4 (.ofLength 0xC0000201 32)
  protocol := .ipv4
  peers := some (((∅ : AdvertiseTable).insert "spine" .advertised).insert "leaf" .withdraw)

def sampleSessions : AList fun _ : String => BGPPeer :=
  ((∅ : AList fun _ : String => BGPPeer).insert "spine"
    ⟨"spine", "node", some [.established]⟩).insert "leaf"
      ⟨"leaf", "node", some [.idle, .established]⟩

def sampleNode (names : List String) : NodeBGP where
  name := "node"
  peers := some (names.map fun name => ⟨name, none⟩)

def sampleWalk (names : List String) : Outcome AdvertiseError Action × AgentRun :=
  reconcile ⟨fun _ => true, true⟩ sampleShared (sampleNode names) sampleSessions
    (AgentRun.new sampleShared [sampleShared.cidr])

/-- A manager that has a local path of the network. -/
def sampleHolding : RibState :=
  RibState.apply sampleEnv (.start (routerRib 65000 sampleRouter false 254 false))
    sampleShared.addPath

def sampleFinal (names : List String) : RibState :=
  (sampleWalk names).2.requests.foldl (RibState.apply sampleEnv) sampleHolding

theorem carries_sampleHolding :
    sampleHolding.rib.locRib.Carries sampleShared.cidr [sampleShared.cidr] := by
  refine RibManager.addPath_carries ⟨rfl, fun afi pfx path member => ?_, rfl⟩ (.inl rfl)
  exact absurd member (by simp [RibState.start, routerRib, RibManager.new])

theorem settled_sampleNode :
    Settled sampleShared (sampleNode ["leaf", "spine"]) sampleSessions := by
  refine ⟨fun _ _ => ⟨[⟨"leaf", none⟩], ⟨"spine", none⟩, [], rfl, ?_, nofun⟩, ?_⟩
  · exact ⟨by decide, .inr (by decide)⟩
  · intro unwanted
    exact absurd ⟨by decide, .inr (by decide)⟩ (unwanted ⟨"spine", none⟩ (by decide))

theorem follows_sampleNode :
    Follows (sampleNode ["leaf", "spine"]) sampleSessions (sampleWalk ["leaf", "spine"]).2.peers
      ((sampleFinal ["leaf", "spine"]).rib.locRib.Holds sampleShared.cidr) := by
  have start : sampleHolding.rib.locRib.Holds sampleShared.cidr ↔
      ∃ peer ∈ (sampleNode ["leaf", "spine"]).peerList,
        statusOf sampleShared.peers peer.name = some .advertised :=
    carries_sampleHolding.holds_iff.trans (by decide)
  have ran : sampleWalk ["leaf", "spine"] =
      (.ok (.requeue 60), (sampleWalk ["leaf", "spine"]).2) := by rfl
  have unmixed : sampleHolding.rib.locRib.Unmixed sampleShared.cidr := by decide
  have marked : (RibState.apply sampleEnv sampleHolding sampleShared.deletePath).rib.locRib.Marked
      sampleShared.cidr := by decide
  exact (follows_iff_settled carries_sampleHolding start ran ⟨unmixed, marked, trivial⟩).mpr
    settled_sampleNode

/-- In the other order the Loc-RIB loses the network although it is advertised to the first peer. -/
theorem not_follows_sampleNode :
    (sampleHolding.rib.locRib.Holds sampleShared.cidr ↔
      ∃ peer ∈ (sampleNode ["spine", "leaf"]).peerList,
        statusOf sampleShared.peers peer.name = some .advertised) ∧
    (sampleWalk ["spine", "leaf"]).1 = .ok (.requeue 60) ∧
    ¬Follows (sampleNode ["spine", "leaf"]) sampleSessions (sampleWalk ["spine", "leaf"]).2.peers
      ((sampleFinal ["spine", "leaf"]).rib.locRib.Holds sampleShared.cidr) := by
  have marked : sampleHolding.rib.locRib.Marked sampleShared.cidr := by decide
  have unmixed : (RibState.apply sampleEnv sampleHolding sampleShared.addPath).rib.locRib.Unmixed
      sampleShared.cidr := by decide
  have final : (sampleFinal ["spine", "leaf"]).rib.locRib.Carries sampleShared.cidr [] :=
    reconcile_carries carries_sampleHolding ⟨marked, unmixed, trivial⟩
  refine ⟨carries_sampleHolding.holds_iff.trans (by decide), by decide, fun follows => ?_⟩
  have held := follows.mpr ⟨⟨"spine", none⟩, by decide⟩
  exact absurd (final.holds_iff.mp held) (by simp)

end Agent

end Sart
