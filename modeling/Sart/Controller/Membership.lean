import Sart.Controller.ClusterBgp
import Sart.Lib.Run

/-!
# The members of a ClusterBGP

After a reconciliation the nodes in the status are to be those that are selected, and the NodeBGPs
of the members, and only those, are to name the ClusterBGP and to list its peers.

A NodeBGP created for a new member does not name it, and one of a node that left keeps the name.
`Steady` states when this does not happen.
-/

namespace Sart

open Sart.Lib Sart.Lib.Effect

inductive MemberEvent where
  | nodes (nodes : AList fun _ : String => KubeNode)
  | collect (nodeName : String)
  | register (nodeName : String) (nb : ClusterNodeBGP)
  | reconcile (name : String)

namespace BgpNodes

def step (config : ClusterConfig) (cluster : BgpNodes) : MemberEvent → BgpNodes
  | .nodes nodes => { cluster with nodes := nodes }
  | .collect nodeName => { cluster with nodeBgps := cluster.nodeBgps.erase nodeName }
  | .register nodeName nb =>
    match cluster.nodeBgps.lookup nodeName with
    | some _ => cluster
    | none => { cluster with nodeBgps := cluster.nodeBgps.insert nodeName nb }
  | .reconcile name => (config.reconcile name cluster).2

/-- The NodeBGPs that name a ClusterBGP and list its peers are those of its members. -/
structure Agrees (config : ClusterConfig) (cluster : BgpNodes) (name : String) (cb : ClusterBGP) :
    Prop where
  refs : ∀ nodeName nb, cluster.nodeBgps.lookup nodeName = some nb →
    (name ∈ nb.refs ↔ nodeName ∈ cluster.memberList name)
  peers : ∀ nodeName nb, cluster.nodeBgps.lookup nodeName = some nb →
    ∀ generated, config.getPeers cb nodeName nb.labels = .ok generated →
      ∀ peer ∈ generated, (peer.name ∈ nb.peerNames ↔ nodeName ∈ cluster.memberList name)

/-- The members are the nodes that are selected, and the NodeBGPs agree with them. -/
structure Consistent (config : ClusterConfig) (cluster : BgpNodes) (name : String)
    (cb : ClusterBGP) :
    Prop extends Agrees config cluster name cb where
  members : ∀ nodeName, nodeName ∈ cluster.memberList name ↔ nodeName ∈ cluster.matched cb

def Paired (config : ClusterConfig) (cluster : BgpNodes) : Prop :=
  ∀ name cb, config.clusterBgps.lookup name = some cb → cluster.Agrees config name cb

/-- A node can join: its AS number, its router identifier and its peers can be told, and it has a
NodeBGP already, for which no other ClusterBGP gives a peer of the same name. -/
def Joinable (config : ClusterConfig) (cluster : BgpNodes) (name : String) (cb : ClusterBGP)
    (nodeName : String) : Prop :=
  ∃ node asn routerId nb peers, cluster.nodes.lookup nodeName = some node ∧
    config.getAsn node cb.asnSelector = .ok asn ∧
    config.getRouterId node cb.routerIdSelector = .ok routerId ∧
    cluster.nodeBgps.lookup nodeName = some nb ∧
    config.getPeers cb nodeName nb.labels = .ok peers ∧
    ∀ other otherCb, config.clusterBgps.lookup other = some otherCb → other ≠ name →
      ∀ generated, config.getPeers otherCb nodeName nb.labels = .ok generated →
        ∀ peer ∈ generated, peer.name ∉ peers.map BGPPeerSlim.name

/-- The condition on an event.  The nodes that joined can join, and those that left have no NodeBGP
any more.  A NodeBGP that somebody else creates is for a node that is no member, and it names no
ClusterBGP and lists none of its peers. -/
def Steady (config : ClusterConfig) (cluster : BgpNodes) : MemberEvent → Prop
  | .nodes _ | .collect _ => True
  | .register nodeName nb => ∀ name cb, config.clusterBgps.lookup name = some cb →
      nodeName ∉ cluster.memberList name ∧ name ∉ nb.refs ∧
        ∀ generated, config.getPeers cb nodeName nb.labels = .ok generated →
          ∀ peer ∈ generated, peer.name ∉ nb.peerNames
  | .reconcile name => ∀ cb, config.clusterBgps.lookup name = some cb →
      (∀ nodeName ∈ cluster.matched cb, nodeName ∉ cluster.memberList name →
        cluster.Joinable config name cb nodeName) ∧
      ∀ nodeName ∈ cluster.memberList name, nodeName ∉ cluster.matched cb →
        cluster.nodeBgps.lookup nodeName = none

end BgpNodes

namespace ClusterNodeBGP

variable (nb : ClusterNodeBGP) (name other : String) (added : List BGPPeerSlim)

theorem mem_refs_addRef : other ∈ (nb.addRef name).refs ↔ other ∈ nb.refs ∨ other = name := by
  unfold addRef refs
  cases listed : nb.clusterBgpRefs with
  | none => simp
  | some refs =>
    dsimp only
    split_ifs with present
    · rw [listed, Option.getD_some]
      refine ⟨.inl, ?_⟩
      rintro (member | rfl)
      · exact member
      · exact present
    · simp

theorem peerNames_addRef : (nb.addRef name).peerNames = nb.peerNames := by
  unfold addRef
  cases nb.clusterBgpRefs with
  | none => rfl
  | some refs =>
    dsimp only
    split_ifs <;> rfl

theorem labels_addRef : (nb.addRef name).labels = nb.labels := by
  unfold addRef
  cases nb.clusterBgpRefs with
  | none => rfl
  | some refs =>
    dsimp only
    split_ifs <;> rfl

theorem mem_foldl_addPeer (peers : List BGPPeerSlim) :
    other ∈ (added.foldl addPeer peers).map BGPPeerSlim.name ↔
      other ∈ peers.map BGPPeerSlim.name ∨ other ∈ added.map BGPPeerSlim.name := by
  induction added generalizing peers with
  | nil => simp
  | cons peer rest ih =>
    have first : other ∈ (addPeer peers peer).map BGPPeerSlim.name ↔
        other ∈ peers.map BGPPeerSlim.name ∨ other = peer.name := by
      unfold addPeer
      split_ifs with present
      · refine ⟨.inl, ?_⟩
        rintro (member | rfl)
        · exact member
        · rcases List.any_eq_true.mp present with ⟨same, member, named⟩
          exact List.mem_map.mpr ⟨same, member, by simpa using named⟩
      · simp
    rw [List.foldl_cons, ih, first, List.map_cons, List.mem_cons, or_assoc]

theorem mem_peerNames_addPeers : other ∈ (nb.addPeers added).peerNames ↔
    other ∈ nb.peerNames ∨ other ∈ added.map BGPPeerSlim.name := by
  unfold addPeers peerNames NodeBGP.peerList
  cases nb.peers with
  | none => simp
  | some peers => exact mem_foldl_addPeer other added peers

theorem refs_addPeers : (nb.addPeers added).refs = nb.refs := by
  unfold addPeers
  cases nb.peers <;> rfl

theorem labels_addPeers : (nb.addPeers added).labels = nb.labels := by
  unfold addPeers
  cases nb.peers <;> rfl

end ClusterNodeBGP

namespace BgpNodes

structure Extended (config : ClusterConfig) (name : String) (cb : ClusterBGP) (joined : List String)
    (before after : BgpNodes) : Prop where
  nodes : after.nodes = before.nodes
  members : after.members = before.members
  kept : ∀ nodeName nb, before.nodeBgps.lookup nodeName = some nb →
    ∃ next, after.nodeBgps.lookup nodeName = some next ∧ next.labels = nb.labels
  present : ∀ nodeName next, after.nodeBgps.lookup nodeName = some next →
    ∃ nb, before.nodeBgps.lookup nodeName = some nb ∧ next.labels = nb.labels ∧
      (∀ other, other ∈ next.refs ↔ other ∈ nb.refs ∨ (other = name ∧ nodeName ∈ joined)) ∧
      ∀ peer, peer ∈ next.peerNames ↔ peer ∈ nb.peerNames ∨ (nodeName ∈ joined ∧
        ∃ peers, config.getPeers cb nodeName nb.labels = .ok peers ∧
          peer ∈ peers.map BGPPeerSlim.name)

variable {config : ClusterConfig} {name : String} {cb : ClusterBGP} {nodeName : String}
  {cluster next : BgpNodes}

theorem Extended.refl : Extended config name cb [] cluster cluster where
  nodes := rfl
  members := rfl
  kept _ nb found := ⟨nb, found, rfl⟩
  present _ next found := ⟨next, found, rfl, by simp, by simp⟩

variable {joined : List String}

theorem Extended.trans {more : List String} {middle after : BgpNodes}
    (first : Extended config name cb joined cluster middle)
    (second : Extended config name cb more middle after) :
    Extended config name cb (joined ++ more) cluster after where
  nodes := second.nodes.trans first.nodes
  members := second.members.trans first.members
  kept nodeName nb found := by
    rcases first.kept nodeName nb found with ⟨between, found, labels⟩
    rcases second.kept nodeName between found with ⟨last, found, sameLabels⟩
    exact ⟨last, found, sameLabels.trans labels⟩
  present nodeName last found := by
    rcases second.present nodeName last found with ⟨between, found, labels, refs, peers⟩
    rcases first.present nodeName between found with ⟨nb, found, oldLabels, oldRefs, oldPeers⟩
    refine ⟨nb, found, labels.trans oldLabels, fun other => ?_, fun peer => ?_⟩
    · rw [refs, oldRefs, List.mem_append]
      tauto
    · rw [peers, oldPeers, List.mem_append, oldLabels, or_assoc, ← or_and_right]

theorem Joinable.extend (joinable : cluster.Joinable config name cb nodeName)
    (extended : Extended config name cb joined cluster next) :
    next.Joinable config name cb nodeName := by
  rcases joinable with ⟨node, asn, routerId, nb, peers, found, gotAsn, gotId, nodeBgp, got,
      unshared⟩
  rcases extended.kept nodeName nb nodeBgp with ⟨last, nodeBgp, labels⟩
  refine ⟨node, asn, routerId, last, peers, ?_, gotAsn, gotId, nodeBgp, ?_, ?_⟩
  · rw [extended.nodes]
    exact found
  · rw [labels]
    exact got
  · rw [labels]
    exact unshared

theorem join_ok (joinable : cluster.Joinable config name cb nodeName) :
    ∃ next, config.join name cb nodeName cluster = (.ok [], next) ∧
      Extended config name cb [nodeName] cluster next := by
  rcases joinable with ⟨node, asn, routerId, nb, peers, found, gotAsn, gotId, nodeBgp, got, -⟩
  refine ⟨{ cluster with
    nodeBgps := cluster.nodeBgps.insert nodeName ((nb.addRef name).addPeers peers) }, ?_, ?_⟩
  · unfold ClusterConfig.join
    simp only [bind_apply, Effect.read, id, found, lift, gotAsn, gotId, nodeBgp, got]
    rfl
  have labels : ((nb.addRef name).addPeers peers).labels = nb.labels := by
    rw [ClusterNodeBGP.labels_addPeers, ClusterNodeBGP.labels_addRef]
  refine ⟨rfl, rfl, fun other old stored => ?_, fun other last stored => ?_⟩
  · dsimp only
    rw [Table.lookup_insert]
    split_ifs with same
    · rw [same, nodeBgp, Option.some.injEq] at stored
      subst stored
      exact ⟨_, rfl, labels⟩
    · exact ⟨old, stored, rfl⟩
  dsimp only at stored
  rw [Table.lookup_insert] at stored
  split_ifs at stored with same
  · subst same
    cases stored
    refine ⟨nb, nodeBgp, labels, fun ref => ?_, fun peer => ?_⟩
    · rw [ClusterNodeBGP.refs_addPeers, ClusterNodeBGP.mem_refs_addRef]
      simp
    · rw [ClusterNodeBGP.mem_peerNames_addPeers, ClusterNodeBGP.peerNames_addRef, got]
      simp
  · exact ⟨last, stored, rfl, by simp [same], by simp [same]⟩

theorem collect_join (joinable : ∀ nodeName ∈ joined, cluster.Joinable config name cb nodeName) :
    ∃ next, collect (config.join name cb) joined cluster = (.ok [], next) ∧
      Extended config name cb joined cluster next := by
  induction joined generalizing cluster with
  | nil => exact ⟨cluster, rfl, .refl⟩
  | cons first rest ih =>
    rcases join_ok (joinable first (by simp)) with ⟨middle, ran, extended⟩
    rcases ih fun other member => (joinable other (by simp [member])).extend extended with
      ⟨last, looped, more⟩
    refine ⟨last, ?_, extended.trans more⟩
    rw [collect_cons ran, looped]
    rfl

theorem forEach_leave {left : List String}
    (gone : ∀ nodeName ∈ left, cluster.nodeBgps.lookup nodeName = none) :
    forEach (config.leave name cb) left cluster = (.ok ⟨⟩, cluster) := by
  induction left with
  | nil => rfl
  | cons first rest ih =>
    have skipped : config.leave name cb first cluster = (.ok ⟨⟩, cluster) := by
      unfold ClusterConfig.leave
      simp only [bind_apply, Effect.read, id, gone first (by simp)]
      rfl
    rw [forEach, bind_of_ok skipped]
    exact ih fun other member => gone other (by simp [member])

variable {prev now : List String}

theorem mem_added :
    nodeName ∈ (diff prev now).1 ↔ nodeName ∈ now ∧ nodeName ∉ prev := by
  simp only [diff, List.mem_filter, decide_eq_true_eq]
  tauto

theorem mem_removed :
    nodeName ∈ (diff prev now).2.2 ↔ nodeName ∈ prev ∧ nodeName ∉ now := by
  simp [diff, List.mem_filter]

theorem mem_shared :
    nodeName ∈ (diff prev now).2.1 ↔ nodeName ∈ prev ∧ nodeName ∈ now := by
  simp [diff, List.mem_filter]

abbrev change (cluster : BgpNodes) (name : String) (cb : ClusterBGP) :
    List String × List String × List String :=
  diff (cluster.memberList name) (cluster.matched cb)

theorem reconcile_steady (found : config.clusterBgps.lookup name = some cb)
    (steady : cluster.Steady config (.reconcile name)) :
    ∃ next, config.reconcile name cluster = (.ok .awaitChange, next) ∧ next.nodes = cluster.nodes ∧
      (∀ nodeName, nodeName ∈ next.memberList name ↔ nodeName ∈ cluster.matched cb) ∧
      (∀ other, other ≠ name → next.memberList other = cluster.memberList other) ∧
      ∃ middle, next.nodeBgps = middle.nodeBgps ∧ Extended config name cb
        (cluster.change name cb).1 cluster middle := by
  rcases steady cb found with ⟨joins, leaves⟩
  have joinable : ∀ nodeName ∈ (cluster.change name cb).1,
      cluster.Joinable config name cb nodeName := by
    intro nodeName member
    rcases mem_added.mp member with ⟨selected, fresh⟩
    exact joins nodeName selected fresh
  rcases collect_join joinable with ⟨middle, joined, extended⟩
  have gone : ∀ nodeName ∈ (cluster.change name cb).2.2,
      middle.nodeBgps.lookup nodeName = none := by
    intro nodeName member
    rcases mem_removed.mp member with ⟨old, unselected⟩
    have absent := leaves nodeName old unselected
    cases stored : middle.nodeBgps.lookup nodeName with
    | none => rfl
    | some nb =>
      rcases extended.present nodeName nb stored with ⟨before, present, -⟩
      rw [absent] at present
      cases present
  have left : forEach (config.leave name cb)
      (cluster.change name cb).2.2 middle = (.ok ⟨⟩, middle) :=
    forEach_leave gone
  by_cases changed : (cluster.change name cb).1 ≠ [] ∨
      (cluster.change name cb).2.2 ≠ []
  · refine ⟨{ middle with
      members := middle.members.insert name
        (((cluster.change name cb).1 ++
          (cluster.change name cb).2.1).insertionSort
            fun left right => left ≤ right) }, ?_, extended.nodes, ?_, ?_, middle, rfl, extended⟩
    · unfold ClusterConfig.reconcile
      rw [found]
      simp only [bind_apply, Effect.read, id, joined, left, if_pos changed]
      rfl
    · intro nodeName
      unfold memberList
      rw [Table.lookup_insert, if_pos rfl, Option.getD_some, List.mem_insertionSort,
        List.mem_append, mem_added, mem_shared]
      tauto
    · intro other different
      unfold memberList
      rw [Table.lookup_insert, if_neg different, extended.members]
  · refine ⟨middle, ?_, extended.nodes, ?_, ?_, middle, rfl, extended⟩
    · unfold ClusterConfig.reconcile
      rw [found]
      simp only [bind_apply, Effect.read, id, joined, left, if_neg changed]
      rfl
    · intro nodeName
      rw [not_or, not_not, not_not] at changed
      have noneAdded : ¬(nodeName ∈ cluster.matched cb ∧ nodeName ∉ cluster.memberList name) := by
        rw [← mem_added, changed.1]
        exact List.not_mem_nil
      have noneRemoved : ¬(nodeName ∈ cluster.memberList name ∧ nodeName ∉ cluster.matched cb) := by
        rw [← mem_removed, changed.2]
        exact List.not_mem_nil
      rw [memberList, extended.members]
      tauto
    · intro other _
      rw [memberList, extended.members]
      rfl

variable {middle : BgpNodes}

theorem agrees_of_extended (agrees : cluster.Agrees config name cb)
    (leaves : ∀ nodeName ∈ cluster.memberList name, nodeName ∉ cluster.matched cb →
      cluster.nodeBgps.lookup nodeName = none)
    (members : ∀ nodeName, nodeName ∈ next.memberList name ↔ nodeName ∈ cluster.matched cb)
    (nodeBgps : next.nodeBgps = middle.nodeBgps)
    (extended : Extended config name cb (cluster.change name cb).1
      cluster middle) : next.Agrees config name cb := by
  -- a node with a NodeBGP did not leave
  have joined : ∀ nodeName nb, cluster.nodeBgps.lookup nodeName = some nb →
      (nodeName ∈ cluster.memberList name ∨
        nodeName ∈ (cluster.change name cb).1 ↔
          nodeName ∈ next.memberList name) := by
    intro nodeName nb stored
    have stays := leaves nodeName
    rw [stored] at stays
    rw [mem_added, members]
    by_cases selected : nodeName ∈ cluster.matched cb
    · tauto
    have notMember : nodeName ∉ cluster.memberList name := by
      intro member
      cases stays member selected
    tauto
  constructor
  · intro nodeName last stored
    rw [nodeBgps] at stored
    rcases extended.present nodeName last stored with ⟨nb, present, -, refs, -⟩
    rw [refs, agrees.refs nodeName nb present, ← joined nodeName nb present]
    tauto
  · intro nodeName last stored generated got peer member
    rw [nodeBgps] at stored
    rcases extended.present nodeName last stored with ⟨nb, present, labels, -, peers⟩
    rw [labels] at got
    rw [peers, agrees.peers nodeName nb present generated got peer member,
      ← joined nodeName nb present]
    exact or_congr_right (and_iff_left ⟨generated, got, List.mem_map_of_mem member⟩)

theorem agrees_other {other : String} {otherCb : ClusterBGP} (different : other ≠ name)
    (foundOther : config.clusterBgps.lookup other = some otherCb)
    (agrees : cluster.Agrees config other otherCb)
    (joins : ∀ nodeName ∈ cluster.matched cb, nodeName ∉ cluster.memberList name →
      cluster.Joinable config name cb nodeName)
    (members : next.memberList other = cluster.memberList other)
    (nodeBgps : next.nodeBgps = middle.nodeBgps)
    (extended : Extended config name cb (cluster.change name cb).1
      cluster middle) : next.Agrees config other otherCb := by
  constructor
  · intro nodeName last stored
    rw [nodeBgps] at stored
    rcases extended.present nodeName last stored with ⟨nb, present, -, refs, -⟩
    rw [refs, members, agrees.refs nodeName nb present]
    simp [different]
  · intro nodeName last stored generated got peer member
    rw [nodeBgps] at stored
    rcases extended.present nodeName last stored with ⟨nb, present, labels, -, peers⟩
    rw [labels] at got
    rw [peers, members, agrees.peers nodeName nb present generated got peer member]
    refine or_iff_left ?_
    rintro ⟨joining, ownPeers, gotOwn, shared⟩
    rcases mem_added.mp joining with ⟨selected, fresh⟩
    rcases joins nodeName selected fresh with
      ⟨-, -, -, nb', peers', -, -, -, present', got', unshared⟩
    rw [present, Option.some.injEq] at present'
    subst present'
    rw [gotOwn, Outcome.ok.injEq] at got'
    subst got'
    exact unshared other otherCb foundOther different generated got peer member shared

theorem reconcile_consistent {name : String} {cb : ClusterBGP}
    (found : config.clusterBgps.lookup name = some cb) (paired : cluster.Paired config)
    (steady : cluster.Steady config (.reconcile name)) :
    (config.reconcile name cluster).1 = .ok .awaitChange ∧
      (config.reconcile name cluster).2.Consistent config name cb ∧
      (config.reconcile name cluster).2.Paired config := by
  rcases steady cb found with ⟨joins, leaves⟩
  rcases reconcile_steady found steady with
    ⟨next, ran, nodes, members, others, middle, nodeBgps, extended⟩
  rw [ran]
  have own : next.Agrees config name cb :=
    agrees_of_extended (paired name cb found) leaves members nodeBgps extended
  refine ⟨rfl, ⟨own, fun nodeName => ?_⟩, fun other otherCb foundOther => ?_⟩
  · rw [members]
    unfold matched
    rw [nodes]
  by_cases same : other = name
  · subst same
    rw [found, Option.some.injEq] at foundOther
    subst foundOther
    exact own
  · exact agrees_other same foundOther (paired other otherCb foundOther) joins (others other same)
      nodeBgps extended

theorem Paired.step (paired : cluster.Paired config) {event : MemberEvent}
    (steady : cluster.Steady config event) : (cluster.step config event).Paired config := by
  cases event with
  | nodes nodes =>
    intro name cb found
    exact ⟨(paired name cb found).refs, (paired name cb found).peers⟩
  | collect nodeName =>
    intro name cb found
    constructor
    · intro other nb stored
      exact (paired name cb found).refs other nb (Table.lookup_erase_eq_some.mp stored).2
    · intro other nb stored
      exact (paired name cb found).peers other nb (Table.lookup_erase_eq_some.mp stored).2
  | register nodeName nb =>
    rw [BgpNodes.step]
    cases cluster.nodeBgps.lookup nodeName with
    | some _ => exact paired
    | none =>
      intro name cb found
      rcases steady name cb found with ⟨notMember, noRef, noPeer⟩
      constructor
      · intro other last stored
        rw [Table.lookup_insert] at stored
        split_ifs at stored with same
        · cases stored
          rw [same]
          exact iff_of_false noRef notMember
        · exact (paired name cb found).refs other last stored
      · intro other last stored generated got peer member
        rw [Table.lookup_insert] at stored
        split_ifs at stored with same
        · cases stored
          rw [same] at got ⊢
          exact iff_of_false (noPeer generated got peer member) notMember
        · exact (paired name cb found).peers other last stored generated got peer member
  | reconcile name =>
    rw [BgpNodes.step]
    cases found : config.clusterBgps.lookup name with
    | none =>
      unfold ClusterConfig.reconcile
      rw [found]
      exact paired
    | some cb => exact (reconcile_consistent found paired steady).2.2

/-- From NodeBGPs that agree with the members of all ClusterBGPs, in every run whose events all meet
the condition: after each reconciliation of a ClusterBGP, which wants no other one, its members are
the nodes that it selects and the NodeBGPs agree with them. -/
theorem consistent_of_steady {start : BgpNodes} {events : List MemberEvent} {name : String}
    {cb : ClusterBGP} (found : config.clusterBgps.lookup name = some cb)
    (paired : start.Paired config) (steady : AllSteps (BgpNodes.step config) (Steady config) start
      (events ++ [MemberEvent.reconcile name])) :
    (config.reconcile name (events.foldl (BgpNodes.step config) start)).1 = .ok .awaitChange ∧
      ((events ++ [MemberEvent.reconcile name]).foldl (BgpNodes.step config) start).Consistent
        config name cb := by
  have before : (events.foldl (BgpNodes.step config) start).Paired config :=
    foldl_invariant (Paired config) (fun _ _ paired steady => paired.step steady) paired
      steady.of_append
  have last := reconcile_consistent found before steady.append_right.1
  rw [List.foldl_append]
  exact ⟨last.1, last.2.1⟩

def sampleCb : ClusterBGP where
  nodeSelector := none
  asnSelector := ⟨.asn, some 65000⟩
  routerIdSelector := ⟨.routerId, some "192.0.2.9"⟩
  peers := some [⟨none, some ⟨some 65001, some "192.0.2.1", none⟩, none⟩]

def sampleConfig : ClusterConfig where
  clusterBgps := (∅ : AList fun _ : String => ClusterBGP).insert "rack" sampleCb
  templates := ∅
  parseAsn _ := none
  parseAddr _ := some 0xC0000209

def sampleNodes (nodeBgps : AList fun _ : String => ClusterNodeBGP) : BgpNodes where
  nodes := AList.singleton "node" ⟨∅, none⟩
  members := ∅
  nodeBgps := nodeBgps

def sampleNodeBgp : ClusterNodeBGP where
  name := "node"
  peers := none
  asn := 65000
  routerId := 0xC0000209
  labels := ∅
  clusterBgpRefs := none

def sampleOwned : BgpNodes :=
  sampleNodes ((∅ : AList fun _ : String => ClusterNodeBGP).insert "node" sampleNodeBgp)

theorem sampleConfig_lookup {name : String} {cb : ClusterBGP}
    (found : sampleConfig.clusterBgps.lookup name = some cb) : name = "rack" ∧ cb = sampleCb := by
  unfold sampleConfig at found
  rw [Table.lookup_insert] at found
  split_ifs at found with same
  · exact ⟨same, (Option.some.inj found).symm⟩
  · simp at found

theorem sampleNodes_paired {nodeBgps : AList fun _ : String => ClusterNodeBGP}
    (unnamed : ∀ nodeName nb, nodeBgps.lookup nodeName = some nb →
      nb.clusterBgpRefs = none ∧ nb.peers = none) : (sampleNodes nodeBgps).Paired sampleConfig := by
  intro name cb found
  constructor
  · intro nodeName nb stored
    unfold ClusterNodeBGP.refs
    rw [(unnamed nodeName nb stored).1]
    exact iff_of_false List.not_mem_nil List.not_mem_nil
  · intro nodeName nb stored generated got peer member
    unfold ClusterNodeBGP.peerNames NodeBGP.peerList
    rw [(unnamed nodeName nb stored).2]
    exact iff_of_false List.not_mem_nil List.not_mem_nil

theorem sampleOwned_steady : sampleOwned.Steady sampleConfig (.reconcile "rack") := by
  intro cb found
  rw [(sampleConfig_lookup found).2]
  constructor
  · intro nodeName selected fresh
    rw [List.mem_singleton.mp selected]
    refine ⟨⟨∅, none⟩, 65000, 0xC0000209, sampleNodeBgp, [⟨"node-65001-192.0.2.1", none⟩], by rfl,
      by rfl, by rfl, by rfl, by decide, fun other otherCb foundOther different => ?_⟩
    exact absurd (sampleConfig_lookup foundOther).1 different
  · intro nodeName member
    exact absurd member List.not_mem_nil

theorem consistent_sampleOwned : (sampleConfig.reconcile "rack" sampleOwned).1 = .ok .awaitChange ∧
      (sampleConfig.reconcile "rack" sampleOwned).2.Consistent sampleConfig "rack" sampleCb := by
  refine @consistent_of_steady sampleConfig sampleOwned [] "rack" sampleCb (by rfl)
    (sampleNodes_paired ?_) ⟨sampleOwned_steady, trivial⟩
  intro nodeName nb stored
  rw [Table.lookup_insert] at stored
  split_ifs at stored with same
  · cases stored
    exact ⟨rfl, rfl⟩
  · simp at stored

/-- Without a NodeBGP the first reconciliation creates it and asks for another one.  This finds the
node among the members and the NodeBGP without the name. -/
theorem not_consistent_sampleNodes : (sampleNodes ∅).Paired sampleConfig ∧
      (sampleConfig.reconcile "rack" (sampleConfig.reconcile "rack" (sampleNodes ∅)).2).1 =
        .ok .awaitChange ∧
      ¬(sampleConfig.reconcile "rack" (sampleConfig.reconcile "rack"
        (sampleNodes ∅)).2).2.Consistent
        sampleConfig "rack" sampleCb := by
  refine ⟨sampleNodes_paired (by simp), by decide, fun consistent => ?_⟩
  have named := (consistent.refs "node" _ rfl).mpr (by decide)
  exact absurd named (by decide)

end BgpNodes

end Sart
