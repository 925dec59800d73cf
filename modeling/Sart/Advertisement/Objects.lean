import Sart.Basic
import Sart.Lib.Table

/-!
# Objects of the advertisements

A `BGPAdvertisement` names a network; its status tells for every peer that is to hear of it how far
this is.  The peers of a node are listed in its `NodeBGP`, and the `BGPPeer` of each of them tells
the state of the session.

Networks are text in the objects; here they stand for themselves.  A status and the part of it that
is used are one option.
-/

namespace Sart

inductive AdvertiseStatus where
  | notAdvertised
  | advertised
  | withdraw
  deriving DecidableEq

inductive Protocol where
  | ipv4
  | ipv6
  deriving DecidableEq

def Protocol.from : IpNet → Protocol
  | .v4 _ => .ipv4
  | .v6 _ => .ipv6

abbrev AdvertiseTable := AList fun _ : String => AdvertiseStatus

structure BGPAdvertisement where
  name : String
  cidr : IpNet
  protocol : Protocol
  peers : Option AdvertiseTable
  deriving DecidableEq

def statusOf (peers : Option AdvertiseTable) (name : String) : Option AdvertiseStatus :=
  peers.bind fun table => table.lookup name

inductive BGPPeerConditionStatus where
  | unknown
  | idle
  | active
  | connect
  | openSent
  | openConfirm
  | established
  deriving DecidableEq

structure BGPPeer where
  name : String
  nodeBgpRef : String
  conditions : Option (List BGPPeerConditionStatus)
  deriving DecidableEq

/-- The last condition is the one that counts. -/
def BGPPeer.isEstablished (peer : BGPPeer) : Bool :=
  match peer.conditions.bind List.getLast? with
  | some status => status == .established
  | none => false

structure BGPPeerSlim where
  name : String
  groups : Option (List String)
  deriving DecidableEq

structure NodeBGP where
  name : String
  peers : Option (List BGPPeerSlim)
  deriving DecidableEq

inductive Action where
  | requeue (seconds : ℕ)
  | awaitChange
  deriving DecidableEq

def NodeBGP.peerList (nb : NodeBGP) : List BGPPeerSlim := nb.peers.getD []

variable (peers : Option AdvertiseTable) (name other : String)

@[simp]
theorem statusOf_none : statusOf none name = none := rfl

@[simp]
theorem statusOf_some (table : AdvertiseTable) (name : String) :
    statusOf (some table) name = table.lookup name := rfl

theorem statusOf_insert (status : AdvertiseStatus) (present : statusOf peers name ≠ none) :
    statusOf (peers.map fun table => table.insert name status) other =
      if other = name then some status else statusOf peers other := by
  cases peers with
  | none => exact absurd rfl present
  | some table => exact Lib.Table.lookup_insert table name status other

theorem statusOf_erase :
    statusOf (peers.map fun table => table.erase name) other =
      if other = name then none else statusOf peers other := by
  cases peers with
  | none => simp
  | some table => exact Lib.Table.lookup_erase table name other

end Sart
