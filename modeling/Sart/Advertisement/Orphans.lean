import Sart.Advertisement.Agent
import Sart.Advertisement.Slices
import Sart.Lib.Run

/-!
# Withdrawal of an advertisement

The finalizer of a deleted advertisement goes once the status lists no peer any more.  Until then
the agents delete the network at their speakers and take their peers out of the status.

A deleted peer is taken out as well, but the network stays at the speaker.  If it was the last peer
of its node, the finalizer goes while the speaker holds the network.

A reconciliation is one step: a write that is based on an old status is refused.
-/

namespace Sart

open Sart.Lib

inductive Stage where
  /-- Created, without the finalizer. -/
  | fresh
  /-- With the finalizer. -/
  | kept
  /-- With the finalizer, and to be deleted. -/
  | leaving
  /-- The finalizer was removed. -/
  | released
  /-- Deleted before it had the finalizer. -/
  | lost
  deriving DecidableEq

def Stage.present : Stage → Bool
  | .fresh | .kept | .leaving => true
  | .released | .lost => false

/-- An advertisement, the peers, and the nodes with their speakers. -/
structure AdvCluster where
  ba : BGPAdvertisement
  stage : Stage
  bgpPeers : AList fun _ : String => BGPPeer
  nodeBgps : AList fun _ : String => NodeBGP
  speakers : String → Speaker

inductive AdvStep where
  | delete
  | controller
  | agent (node : String)
  | peerCleanup (peer : String)
  | session (peer : String) (conditions : Option (List BGPPeerConditionStatus))
  | peerReset (peer : String)
  | retarget (targets : List String)

namespace AdvCluster

def peersOf (cluster : AdvCluster) (node : String) : List BGPPeerSlim :=
  ((cluster.nodeBgps.lookup node).map NodeBGP.peerList).getD []

def withPeers (cluster : AdvCluster) (peers : Option AdvertiseTable) : AdvCluster :=
  { cluster with ba := { cluster.ba with peers := peers } }

def delete (cluster : AdvCluster) : AdvCluster :=
  match cluster.stage with
  | .fresh => { cluster with stage := .lost }
  | .kept => { cluster with stage := .leaving }
  | .leaving | .released | .lost => cluster

/-- The finalizer is removed when no peer is left; before, all of them are to be withdrawn. -/
def cleanup (cluster : AdvCluster) : AdvCluster :=
  match cluster.ba.peers with
  | none => { cluster with stage := .released }
  | some peers =>
    if peers.entries.isEmpty then { cluster with stage := .released }
    else cluster.withPeers (some (Table.mapValues (fun _ => .withdraw) peers))

/-- The finalizer is added first.  The reconciliation itself only counts. -/
def controller (cluster : AdvCluster) : AdvCluster :=
  match cluster.stage with
  | .fresh => { cluster with stage := .kept }
  | .leaving => cluster.cleanup
  | .kept | .released | .lost => cluster

/-- All calls are served.  When a BGPPeer is missing, the agent gives up and writes nothing. -/
def agent (cluster : AdvCluster) (node : String) : AdvCluster :=
  match cluster.nodeBgps.lookup node with
  | none => cluster
  | some nb =>
    match Agent.reconcile ⟨fun _ => true, true⟩ cluster.ba nb cluster.bgpPeers
      (AgentRun.new cluster.ba (cluster.speakers node)) with
    | (outcome, run) =>
      let served := { cluster with speakers := Function.update cluster.speakers node run.speaker }
      match outcome with
      | .ok _ => served.withPeers run.peers
      | .error _ | .panic => served

/-- The peer is taken out of its NodeBGP and out of the status.  Its local paths stay. -/
def peerCleanup (cluster : AdvCluster) (peer : String) : AdvCluster :=
  match cluster.bgpPeers.lookup peer with
  | none => cluster
  | some bp =>
    match cluster.nodeBgps.lookup bp.nodeBgpRef with
    | none => cluster
    | some nb =>
      let left : NodeBGP := { nb with
        peers := nb.peers.map fun peers => peers.filter fun other => other.name ≠ peer }
      { cluster with
        bgpPeers := cluster.bgpPeers.erase peer
        nodeBgps := cluster.nodeBgps.insert bp.nodeBgpRef left
        ba := { cluster.ba with peers := cluster.ba.peers.map fun table => table.erase peer } }

def session (cluster : AdvCluster) (peer : String)
    (conditions : Option (List BGPPeerConditionStatus)) : AdvCluster :=
  match cluster.bgpPeers.lookup peer with
  | none => cluster
  | some bp =>
    { cluster with bgpPeers := cluster.bgpPeers.insert peer { bp with conditions := conditions } }

def peerReset (cluster : AdvCluster) (peer : String) : AdvCluster :=
  if statusOf cluster.ba.peers peer = some .advertised then
    cluster.withPeers (cluster.ba.peers.map fun table => table.insert peer .notAdvertised)
  else cluster

def retarget (cluster : AdvCluster) (targets : List String) : AdvCluster :=
  match cluster.ba.peers with
  | some peers => cluster.withPeers (some (syncTargetPeers peers targets).1)
  | none => cluster.withPeers (some (Slices.newStatus targets))

def step (cluster : AdvCluster) : AdvStep → AdvCluster
  | .delete => cluster.delete
  | .controller => cluster.controller
  | .agent node => if cluster.stage.present then cluster.agent node else cluster
  | .peerCleanup peer => cluster.peerCleanup peer
  | .session peer conditions => cluster.session peer conditions
  | .peerReset peer => if cluster.stage.present then cluster.peerReset peer else cluster
  | .retarget targets => if cluster.stage.present then cluster.retarget targets else cluster

def Listed (cluster : AdvCluster) (name : String) : Prop := statusOf cluster.ba.peers name ≠ none

/-- A speaker that holds the network has a peer in the status, and when the finalizer is removed no
speaker holds it. -/
structure Tracked (cluster : AdvCluster) : Prop where
  listed : cluster.stage.present = true → ∀ node, cluster.ba.cidr ∈ cluster.speakers node →
    ∃ peer ∈ cluster.peersOf node, cluster.Listed peer.name
  released : cluster.stage = .released → ∀ node, cluster.ba.cidr ∉ cluster.speakers node

/-- The condition on a step.  A peer is cleaned up only when every speaker that holds the network
has another peer in the status.  An agent works for peers that no other node lists; and for an IPv6
network that its speaker holds there is a peer that is not withdrawn. -/
def Safe (cluster : AdvCluster) : AdvStep → Prop
  | .agent node =>
    (cluster.ba.protocol = .ipv4 ∨ (cluster.ba.cidr ∈ cluster.speakers node →
      ∃ peer ∈ cluster.peersOf node, cluster.Listed peer.name ∧
        ¬Agent.Withdrawn cluster.bgpPeers cluster.ba.peers peer)) ∧
    ∀ other, other ≠ node → ∀ peer ∈ cluster.peersOf other,
      peer.name ∉ (cluster.peersOf node).map BGPPeerSlim.name
  | .peerCleanup peer => cluster.stage.present = true → ∀ node,
      cluster.ba.cidr ∈ cluster.speakers node →
        ∃ other ∈ cluster.peersOf node, other.name ≠ peer ∧ cluster.Listed other.name
  | .delete | .controller | .session _ _ | .peerReset _ | .retarget _ => True

namespace Tracked

variable {cluster next : AdvCluster}

section

variable (tracked : cluster.Tracked)

include tracked

theorem of_status {peers : Option AdvertiseTable}
    (kept : ∀ name, cluster.Listed name → statusOf peers name ≠ none) :
    (cluster.withPeers peers).Tracked where
  listed present node holds := by
    rcases tracked.listed present node holds with ⟨peer, member, listed⟩
    exact ⟨peer, member, kept peer.name listed⟩
  released gone := tracked.released gone

theorem delete : cluster.delete.Tracked := by
  unfold AdvCluster.delete
  cases stage : cluster.stage with
  | fresh => exact ⟨nofun, nofun⟩
  | kept => exact ⟨fun _ => tracked.listed (by rw [stage]; rfl), nofun⟩
  | leaving | released | lost => exact tracked

theorem cleanup (leaving : cluster.stage = .leaving) :
    cluster.cleanup.Tracked := by
  have releases : (∀ name, statusOf cluster.ba.peers name = none) →
      ({ cluster with stage := .released } : AdvCluster).Tracked := by
    intro empty
    refine ⟨nofun, fun _ node holds => ?_⟩
    rcases tracked.listed (by rw [leaving]; rfl) node holds with ⟨peer, -, listed⟩
    exact listed (empty peer.name)
  unfold AdvCluster.cleanup
  cases status : cluster.ba.peers with
  | none =>
    apply releases
    intro name
    rw [status]
    rfl
  | some peers =>
    dsimp only
    split_ifs with empty
    · apply releases
      intro name
      rw [status, statusOf_some, AList.lookup_eq_none, AList.mem_keys, AList.keys,
        List.isEmpty_iff.mp empty]
      exact List.not_mem_nil
    refine tracked.of_status fun name listed => ?_
    rw [Listed, status, statusOf_some] at listed
    rw [statusOf_some, Table.lookup_mapValues]
    cases found : peers.lookup name with
    | none => exact absurd found listed
    | some _ => nofun

theorem controller : cluster.controller.Tracked := by
  unfold AdvCluster.controller
  cases stage : cluster.stage with
  | fresh => exact ⟨fun _ => tracked.listed (by rw [stage]; rfl), nofun⟩
  | kept | released | lost => exact tracked
  | leaving => exact tracked.cleanup stage

theorem session (peer : String) (conditions : Option (List BGPPeerConditionStatus)) :
    (cluster.session peer conditions).Tracked := by
  unfold AdvCluster.session
  cases cluster.bgpPeers.lookup peer with
  | none => exact tracked
  | some bp => exact ⟨tracked.listed, tracked.released⟩

theorem peerReset (peer : String) : (cluster.peerReset peer).Tracked := by
  unfold AdvCluster.peerReset
  split_ifs with advertised
  · refine tracked.of_status fun name listed => ?_
    rw [statusOf_insert _ _ _ _ (by rw [advertised]; nofun)]
    split_ifs
    · nofun
    · exact listed
  · exact tracked

theorem retarget (targets : List String) : (cluster.retarget targets).Tracked := by
  unfold AdvCluster.retarget
  cases status : cluster.ba.peers with
  | none =>
    refine tracked.of_status fun name listed => ?_
    rw [Listed, status] at listed
    exact absurd rfl listed
  | some peers =>
    refine tracked.of_status fun name listed => ?_
    rw [Listed, status, statusOf_some] at listed
    rw [statusOf_some, lookup_syncTargetPeers]
    split_ifs
    · nofun
    · exact fun none => listed (Option.map_eq_none_iff.mp none)

theorem peerCleanup {peer : String}
    (safe : cluster.Safe (.peerCleanup peer)) : (cluster.peerCleanup peer).Tracked := by
  unfold AdvCluster.peerCleanup
  cases bgpPeer : cluster.bgpPeers.lookup peer with
  | none => exact tracked
  | some bp =>
    dsimp only
    cases nodeBgp : cluster.nodeBgps.lookup bp.nodeBgpRef with
    | none => exact tracked
    | some nb =>
      refine ⟨fun present node holds => ?_, tracked.released⟩
      rcases safe present node holds with ⟨other, member, different, listed⟩
      refine ⟨other, ?_, ?_⟩
      · unfold peersOf at member ⊢
        rw [Table.lookup_insert]
        split_ifs with here
        · rw [here, nodeBgp] at member
          simp only [Option.map_some, Option.getD_some, NodeBGP.peerList] at member ⊢
          cases listedPeers : nb.peers with
          | none => simp [listedPeers] at member
          | some peers =>
            rw [listedPeers] at member
            simpa [List.mem_filter, different] using member
        · exact member
      rw [Listed]
      rw [statusOf_erase, if_neg different]
      exact listed

end

end Tracked

variable {cluster : AdvCluster} {node : String} {nb : NodeBGP}

theorem agent_eq (found : cluster.nodeBgps.lookup node = some nb) :
    ∃ visited left peers, nb.peerList = visited ++ left ∧
      cluster.agent node = { cluster.withPeers peers with
        speakers := Function.update cluster.speakers node
          (visited.foldl (Agent.visit cluster.ba cluster.bgpPeers)
            ⟨cluster.speakers node, cluster.ba.peers⟩).speaker } ∧
      (peers = cluster.ba.peers ∨ peers = (visited.foldl
        (Agent.visit cluster.ba cluster.bgpPeers)
          ⟨cluster.speakers node, cluster.ba.peers⟩).peers) := by
  rcases Agent.reconcile_walk ⟨fun _ => true, true⟩ cluster.ba cluster.bgpPeers
    (AgentRun.new cluster.ba (cluster.speakers node)) nb with ⟨visited, left, parts, walked, -⟩
  unfold AdvCluster.agent
  rw [found]
  dsimp only
  rcases ended : Agent.reconcile ⟨fun _ => true, true⟩ cluster.ba nb cluster.bgpPeers
    (AgentRun.new cluster.ba (cluster.speakers node)) with ⟨action | cause | _, run⟩
  all_goals
    rw [ended] at walked
  · refine ⟨visited, left, run.peers, parts, ?_, .inr (congrArg Followed.peers walked)⟩
    rw [congrArg Followed.speaker walked]
    rfl
  all_goals
    refine ⟨visited, left, cluster.ba.peers, parts, ?_, .inl rfl⟩
    rw [congrArg Followed.speaker walked]
    rfl

variable {visited : List BGPPeerSlim}

theorem statusOf_walk_ne_none {ba : BGPAdvertisement} {bgpPeers : AList fun _ : String => BGPPeer}
    {view : Followed} {name : String} (listed : statusOf view.peers name ≠ none)
    (kept : name ∈ visited.map BGPPeerSlim.name → Agent.established bgpPeers name = true →
      statusOf view.peers name ≠ some .withdraw) :
    statusOf (visited.foldl (Agent.visit ba bgpPeers) view).peers name ≠ none := by
  rw [Agent.statusOf_walk]
  split_ifs with here
  · have other := kept here.2 here.1
    rcases status : statusOf view.peers name with _ | _ | _ | _
    · exact absurd status listed
    · nofun
    · nofun
    · exact absurd status other
  · exact listed

theorem exists_listed_of_walk (tracked : cluster.Tracked) (present : cluster.stage.present = true)
    (found : cluster.nodeBgps.lookup node = some nb) (safe : cluster.Safe (.agent node))
    {left : List BGPPeerSlim} (parts : nb.peerList = visited ++ left)
    (holds : cluster.ba.cidr ∈ (visited.foldl (Agent.visit cluster.ba cluster.bgpPeers)
      ⟨cluster.speakers node, cluster.ba.peers⟩).speaker) :
    ∃ peer ∈ nb.peerList, cluster.Listed peer.name ∧
      (peer.name ∈ visited.map BGPPeerSlim.name →
        ¬Agent.Withdrawn cluster.bgpPeers cluster.ba.peers peer) := by
  have peersOf : cluster.peersOf node = nb.peerList := by
    rw [AdvCluster.peersOf, found]
    rfl
  by_cases wanted : ∃ peer ∈ visited, Agent.Wanted cluster.bgpPeers cluster.ba.peers peer
  · rcases wanted with ⟨peer, member, wanted⟩
    refine ⟨peer, by simp [parts, member], ?_, fun _ => wanted.not_withdrawn⟩
    rcases wanted.2 with status | status
    all_goals simp [Listed, status]
  cases protocol : cluster.ba.protocol with
  | ipv4 =>
    rcases (Agent.mem_walk_ipv4 protocol visited).mp holds with ⟨held, none⟩ | outlasts
    · rcases tracked.listed present node held with ⟨peer, member, listed⟩
      rw [peersOf] at member
      refine ⟨peer, member, listed, fun seen withdrawn => ?_⟩
      rcases List.mem_map.mp seen with ⟨other, otherMem, same⟩
      apply none other otherMem
      rw [Agent.Withdrawn, same]
      exact withdrawn
    · rcases outlasts with ⟨before, target, after, rfl, isWanted, -⟩
      exact absurd ⟨target, by simp, isWanted⟩ wanted
  | ipv6 =>
    rcases (Agent.mem_walk_ipv6 protocol visited).mp holds with held | isWanted
    · have rest := safe.1.resolve_left (by simp [protocol]) held
      rw [peersOf] at rest
      rcases rest with ⟨peer, member, listed, other⟩
      exact ⟨peer, member, listed, fun _ => other⟩
    · exact absurd isWanted wanted

theorem Tracked.agent (tracked : cluster.Tracked) (present : cluster.stage.present = true)
    (safe : cluster.Safe (.agent node)) : (cluster.agent node).Tracked := by
  cases found : cluster.nodeBgps.lookup node with
  | none =>
    unfold AdvCluster.agent
    rw [found]
    exact tracked
  | some nb =>
    rcases agent_eq found with ⟨visited, left, peers, parts, result, written⟩
    have listedAfter : ∀ name, cluster.Listed name → (name ∈ visited.map BGPPeerSlim.name →
        Agent.established cluster.bgpPeers name = true →
          statusOf cluster.ba.peers name ≠ some .withdraw) → statusOf peers name ≠ none := by
      intro name listed kept
      rcases written with rfl | rfl
      · exact listed
      · exact statusOf_walk_ne_none listed kept
    rw [result]
    refine ⟨fun _ other holds => ?_, fun gone => ?_⟩
    · by_cases same : other = node
      · subst same
        simp only [Function.update_self] at holds
        rcases exists_listed_of_walk tracked present found safe parts holds with
          ⟨peer, member, listed, kept⟩
        refine ⟨peer, ?_, listedAfter peer.name listed fun seen live withdraw =>
          kept seen ⟨live, withdraw⟩⟩
        change peer ∈ cluster.peersOf other
        rwa [AdvCluster.peersOf, found]
      simp only [Function.update_of_ne same] at holds
      rcases tracked.listed present other holds with ⟨peer, member, listed⟩
      refine ⟨peer, member, listedAfter peer.name listed fun seen => ?_⟩
      have foreign := safe.2 other same peer member
      rw [AdvCluster.peersOf, found] at foreign
      refine absurd ?_ foreign
      change peer.name ∈ nb.peerList.map BGPPeerSlim.name
      rw [parts, List.map_append]
      exact List.mem_append_left _ seen
    · change cluster.stage = .released at gone
      rw [gone] at present
      cases present

theorem Tracked.step (tracked : cluster.Tracked) {event : AdvStep} (safe : cluster.Safe event) :
    (cluster.step event).Tracked := by
  cases event with
  | delete => exact tracked.delete
  | controller => exact tracked.controller
  | agent node =>
    rw [AdvCluster.step]
    split_ifs with present
    · exact tracked.agent present safe
    · exact tracked
  | peerCleanup peer => exact tracked.peerCleanup safe
  | session peer conditions => exact tracked.session peer conditions
  | peerReset peer =>
    rw [AdvCluster.step]
    split_ifs
    · exact tracked.peerReset peer
    · exact tracked
  | retarget targets =>
    rw [AdvCluster.step]
    split_ifs
    · exact tracked.retarget targets
    · exact tracked

/-- From an advertisement that is just created and that no speaker holds, in every run whose steps
all meet the condition: when the finalizer is removed, no speaker holds the network. -/
theorem no_orphans {start : AdvCluster} {events : List AdvStep} (fresh : start.stage = .fresh)
    (unheld : ∀ node, start.ba.cidr ∉ start.speakers node)
    (safe : AllSteps AdvCluster.step Safe start events)
    (released : (events.foldl AdvCluster.step start).stage = .released) (node : String) :
    (events.foldl AdvCluster.step start).ba.cidr ∉
      (events.foldl AdvCluster.step start).speakers node := by
  have tracked : start.Tracked := by
    refine ⟨fun _ node holds => absurd holds (unheld node), fun gone => ?_⟩
    rw [fresh] at gone
    cases gone
  exact (foldl_invariant Tracked (fun _ _ tracked safe => tracked.step safe) tracked safe).released
    released node

def sampleCluster : AdvCluster where
  ba := ⟨"web-192.0.2.1", .v4 (.ofLength 0xC0000201 32), .ipv4,
    some (AList.singleton "spine" .notAdvertised)⟩
  stage := .fresh
  bgpPeers := AList.singleton "spine" ⟨"spine", "node", some [.established]⟩
  nodeBgps := AList.singleton "node" ⟨"node", some [⟨"spine", none⟩]⟩
  speakers _ := []

theorem safe_agent_sample (nodes : cluster.nodeBgps = sampleCluster.nodeBgps)
    (ipv4 : cluster.ba.protocol = .ipv4) : cluster.Safe (.agent "node") := by
  refine ⟨.inl ipv4, fun other different peer member => ?_⟩
  have absent : sampleCluster.nodeBgps.lookup other = none := by
    rw [AList.lookup_eq_none]
    simpa [sampleCluster, AList.mem_keys, AList.singleton] using different
  rw [peersOf, nodes, absent] at member
  cases member

def sampleLife : List AdvStep :=
  [.controller, .agent "node", .delete, .controller, .agent "node", .controller]

theorem no_orphans_sampleLife : (sampleLife.foldl AdvCluster.step sampleCluster).stage = .released ∧
      (sampleLife.foldl AdvCluster.step sampleCluster).ba.cidr ∉
        (sampleLife.foldl AdvCluster.step sampleCluster).speakers "node" := by
  have released : (sampleLife.foldl AdvCluster.step sampleCluster).stage = .released := by rfl
  have safe : AllSteps AdvCluster.step Safe sampleCluster sampleLife :=
    ⟨trivial, safe_agent_sample rfl rfl, trivial, trivial, safe_agent_sample rfl rfl, trivial,
      trivial⟩
  exact ⟨released, no_orphans rfl (fun _ => List.not_mem_nil) safe released "node"⟩

/-- The peer is deleted while the network is announced, and the advertisement after it: the
finalizer goes, and the speaker keeps the network. -/
theorem orphan_samplePeerCleanup :
    sampleCluster.stage = .fresh ∧ (∀ node, sampleCluster.ba.cidr ∉ sampleCluster.speakers node) ∧
    let final := [AdvStep.controller, .agent "node", .peerCleanup "spine", .delete,
      .controller].foldl AdvCluster.step sampleCluster
    final.stage = .released ∧ final.ba.cidr ∈ final.speakers "node" :=
  ⟨rfl, fun _ => List.not_mem_nil, by decide⟩

end AdvCluster

end Sart
