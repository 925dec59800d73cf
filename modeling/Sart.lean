import Sart.Packet.Stream
import Sart.Rib.PeerView
import Sart.Rib.BatchErrors
import Sart.Rib.LocalNetworks
import Sart.Rib.Upkeep
import Sart.Peer.Teardown
import Sart.Peer.ImplicitWithdraw
import Sart.Peer.UpdateSemantics
import Sart.Controller.Fulfilment
import Sart.Controller.Uniqueness
import Sart.Ipam.Bookkeeping
import Sart.Controller.Restart
import Sart.Agent.CniRestart
import Sart.EmptyBlocks
import Sart.Agent.Collector
import Sart.Fib.Publication
import Sart.Fib.Withdrawal
import Sart.Server.Deadlock
import Sart.Advertisement.SliceOrder
import Sart.Advertisement.Orphans
import Sart.Advertisement.Speaker
import Sart.Peer.Dissemination
import Sart.Peer.Reports
import Sart.Agent.Calls
import Sart.Controller.Membership
import Sart.Path.AsNumbers
import Sart.Peer.Faults
import Sart.Peer.HoldTimer
import Sart.Peer.Published
import Sart.Packet.Mandatory
