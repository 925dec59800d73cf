import Sart.Advertisement.Objects
import Sart.Controller.Service

/-!
# Clusters of BGP nodes

A ClusterBGP selects nodes by their labels.  For every node that it selects there is to be a
NodeBGP, which names the ClusterBGP in its status and lists the peers that the templates give for
this node.  The API server ignores the status of a new object.
-/

namespace Sart

open Sart.Lib Sart.Lib.Effect

abbrev Labels := AList fun _ : String => String

structure KubeNode where
  labels : Labels
  addresses : Option (Option (List (String × String)))

inductive AsnSelectionType where
  | asn
  | label
  deriving DecidableEq

structure AsnSelector where
  source : AsnSelectionType
  asn : Option UInt32
  deriving DecidableEq

inductive RouterIdSelectionType where
  | internalAddress
  | label
  | routerId
  deriving DecidableEq

structure RouterIdSelector where
  source : RouterIdSelectionType
  routerId : Option String
  deriving DecidableEq

structure BGPPeerTemplate where
  asn : Option UInt32
  addr : Option String
  groups : Option (List String)
  deriving DecidableEq

structure PeerConfig where
  peerTemplateRef : Option String
  peerConfig : Option BGPPeerTemplate
  nodeBgpSelector : Option Labels

structure ClusterBGP where
  nodeSelector : Option Labels
  asnSelector : AsnSelector
  routerIdSelector : RouterIdSelector
  peers : Option (List PeerConfig)

structure ClusterNodeBGP extends NodeBGP where
  asn : UInt32
  routerId : Ipv4Addr
  labels : Labels
  clusterBgpRefs : Option (List String)

inductive ClusterError where
  | kube
  | nodeNotFound
  | asnNotFound
  | invalidAsnValue
  | addressNotFound
  | invalidAddress
  | failedToGetData (what : String)
  deriving DecidableEq

structure ClusterConfig where
  clusterBgps : AList fun _ : String => ClusterBGP
  templates : AList fun _ : String => BGPPeerTemplate
  parseAsn : String → Option UInt32
  parseAddr : String → Option Ipv4Addr

structure BgpNodes where
  nodes : AList fun _ : String => KubeNode
  members : AList fun _ : String => List String
  nodeBgps : AList fun _ : String => ClusterNodeBGP

def ASN_LABEL : String := "sart.terassyi.net/asn"

def ROUTER_ID_LABEL : String := "sart.terassyi.net/router-id"

def matchSelector (labels selector : Labels) : Bool :=
  selector.entries.all fun entry => labels.lookup entry.1 = some entry.2

namespace ClusterConfig

def getAsn (config : ClusterConfig) (node : KubeNode) (selector : AsnSelector) :
    Outcome ClusterError UInt32 :=
  match selector.source with
  | .label =>
    match node.labels.lookup ASN_LABEL with
    | none => .error .asnNotFound
    | some text =>
      match config.parseAsn text with
      | some asn => .ok asn
      | none => .error .invalidAsnValue
  | .asn =>
    match selector.asn with
    | some asn => .ok asn
    | none => .error .invalidAsnValue

def readAddr (config : ClusterConfig) : Option String → Outcome ClusterError Ipv4Addr
  | none => .error .addressNotFound
  | some text =>
    match config.parseAddr text with
    | some addr => .ok addr
    | none => .error .invalidAddress

def getRouterId (config : ClusterConfig) (node : KubeNode) (selector : RouterIdSelector) :
    Outcome ClusterError Ipv4Addr :=
  match selector.source with
  | .routerId => config.readAddr selector.routerId
  | .internalAddress =>
    match node.addresses with
    | none => .error (.failedToGetData "node.status")
    | some none => .error (.failedToGetData "node.status.addresses")
    | some (some addresses) =>
      config.readAddr ((addresses.find? fun entry => entry.1 = "InternalIP").map Prod.snd)
  | .label => config.readAddr (node.labels.lookup ROUTER_ID_LABEL)

/-- The peer of a node: the template, overridden by the configuration.  Its name tells where it
comes from. -/
def toPeer (config : ClusterConfig) (nodeName : String) (peer : PeerConfig) :
    Outcome ClusterError BGPPeerSlim := do
  let template ← match peer.peerTemplateRef with
    | some name =>
      match config.templates.lookup name with
      | some template => Outcome.ok template
      | none => .error .kube
    | none => .ok ⟨none, none, none⟩
  let asn := (peer.peerConfig.bind BGPPeerTemplate.asn).getD (template.asn.getD 0)
  let addr := (peer.peerConfig.bind BGPPeerTemplate.addr).getD (template.addr.getD "")
  let name := nodeName ++ "-" ++ toString asn.toNat ++ "-" ++ addr
  match peer.peerTemplateRef with
  | some ref => .ok ⟨ref ++ "-" ++ name, template.groups⟩
  | none => .ok ⟨name, template.groups⟩

def getPeers (config : ClusterConfig) (cb : ClusterBGP) (nodeName : String) (labels : Labels) :
    Outcome ClusterError (List BGPPeerSlim) :=
  ((cb.peers.getD []).filter fun peer =>
    match peer.nodeBgpSelector with
    | some selector => matchSelector labels selector
    | none => true).mapM (config.toPeer nodeName)

end ClusterConfig

def BgpNodes.matched (cluster : BgpNodes) (cb : ClusterBGP) : List String :=
  (cluster.nodes.entries.filter fun entry =>
    match cb.nodeSelector with
    | some selector => matchSelector entry.2.labels selector
    | none => true).map Sigma.fst

def BgpNodes.memberList (cluster : BgpNodes) (name : String) : List String :=
  (cluster.members.lookup name).getD []

namespace ClusterNodeBGP

def refs (nb : ClusterNodeBGP) : List String := nb.clusterBgpRefs.getD []

def peerNames (nb : ClusterNodeBGP) : List String := nb.peerList.map BGPPeerSlim.name

def addRef (nb : ClusterNodeBGP) (name : String) : ClusterNodeBGP :=
  match nb.clusterBgpRefs with
  | some refs =>
    if name ∈ refs then nb
    else { nb with
      clusterBgpRefs := some ((refs ++ [name]).insertionSort fun left right => left ≤ right) }
  | none => { nb with clusterBgpRefs := some [name] }

def addPeer (peers : List BGPPeerSlim) (peer : BGPPeerSlim) : List BGPPeerSlim :=
  if peers.any fun other => other.name = peer.name then peers else peers ++ [peer]

def addPeers (nb : ClusterNodeBGP) (added : List BGPPeerSlim) : ClusterNodeBGP :=
  match nb.peers with
  | some peers => { nb with peers := some (added.foldl addPeer peers) }
  | none => { nb with peers := some added }

/-- The reference is retained out of a list that does not have it. -/
def removeRef (nb : ClusterNodeBGP) (name : String) : ClusterNodeBGP :=
  { nb with clusterBgpRefs := nb.clusterBgpRefs.map fun refs =>
      if name ∉ refs then refs.filter fun ref => ref ≠ name else refs }

def removePeer (peers : List BGPPeerSlim) (peer : BGPPeerSlim) : List BGPPeerSlim :=
  if peers.any fun other => other.name = peer.name then
    peers.filter fun other => other.name ≠ peer.name
  else peers

def removePeers (nb : ClusterNodeBGP) (removed : List BGPPeerSlim) : ClusterNodeBGP :=
  { nb with peers := nb.peers.map fun peers => removed.foldl removePeer peers }

end ClusterNodeBGP

abbrev ClusterM := Effect BgpNodes ClusterError

namespace ClusterConfig

def writeNodeBgp (nodeName : String) (nb : ClusterNodeBGP) : ClusterM PUnit :=
  Effect.modify fun cluster => { cluster with nodeBgps := cluster.nodeBgps.insert nodeName nb }

def join (config : ClusterConfig) (name : String) (cb : ClusterBGP) (nodeName : String) :
    ClusterM (List String) := do
  let cluster ← Effect.read id
  match cluster.nodes.lookup nodeName with
  | none => fail .nodeNotFound
  | some node =>
    let asn ← lift (config.getAsn node cb.asnSelector)
    let routerId ← lift (config.getRouterId node cb.routerIdSelector)
    match cluster.nodeBgps.lookup nodeName with
    | some nb =>
      let peers ← lift (config.getPeers cb nodeName nb.labels)
      writeNodeBgp nodeName ((nb.addRef name).addPeers peers)
      pure []
    | none =>
      let peers ← lift (config.getPeers cb nodeName node.labels)
      writeNodeBgp nodeName
        { name := nodeName
          peers := some peers
          asn := asn
          routerId := routerId
          labels := node.labels
          clusterBgpRefs := none }
      pure [nodeName]

def leave (config : ClusterConfig) (name : String) (cb : ClusterBGP) (nodeName : String) :
    ClusterM PUnit := do
  let cluster ← Effect.read id
  match cluster.nodeBgps.lookup nodeName with
  | none => pure ⟨⟩
  | some nb =>
    let peers ← lift (config.getPeers cb nodeName nb.labels)
    writeNodeBgp nodeName ((nb.removeRef name).removePeers peers)

def reconcile (config : ClusterConfig) (name : String) : ClusterM Action :=
  match config.clusterBgps.lookup name with
  | none => pure .awaitChange
  | some cb => do
      let cluster ← Effect.read id
      let parts := diff (cluster.memberList name) (cluster.matched cb)
      let created ← collect (config.join name cb) parts.1
      forEach (config.leave name cb) parts.2.2
      if parts.1 ≠ [] ∨ parts.2.2 ≠ [] then
        Effect.modify fun cluster => { cluster with
          members := cluster.members.insert name
            ((parts.1 ++ parts.2.1).insertionSort fun left right => left ≤ right) }
      else pure ⟨⟩
      pure (if created.isEmpty then .awaitChange else .requeue 1)

end ClusterConfig

end Sart
