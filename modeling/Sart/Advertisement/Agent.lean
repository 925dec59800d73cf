import Sart.Advertisement.Objects
import Sart.Rib.Manager

/-!
# The agent and the advertisements

For every peer of its node with an established session the agent asks the local speaker to originate
the network or to give it up, as the status of the advertisement wants it for this peer.

The calls become events of the RIB manager, which answers before it handles them.  In this module
the speaker is the list of its local networks, and an event does to the list what the agent expects
(`Speaker.handle`).  `Sart.Advertisement.Speaker` relates the list to the Loc-RIB.

The speaker originates a network for all of its peers or for none.  `Settled` states when it follows
the status nevertheless.
-/

namespace Sart

open Sart.Lib Sart.Lib.Effect

/-- The networks of the local paths of a speaker, one for each path.  All of them are in the table
for IPv4, since local paths are built for this family only. -/
abbrev Speaker := List IpNet

/-- The paths that are deleted are looked up in the table of the given family. -/
def Speaker.handle (speaker : Speaker) : RibEvent → Speaker
  | .addPath networks _ => networks ++ speaker
  | .deletePath family networks =>
    match family.afi with
    | .ipv4 => speaker.filter fun net => net ∉ networks
    | .ipv6 => speaker
  | _ => speaker

def Protocol.family : Protocol → AddressFamily
  | .ipv4 => .ipv4Unicast
  | .ipv6 => .ipv6Unicast

namespace BGPAdvertisement

def addPath (ba : BGPAdvertisement) : RibEvent := .addPath [ba.cidr] []

def deletePath (ba : BGPAdvertisement) : RibEvent := .deletePath ba.protocol.family [ba.cidr]

end BGPAdvertisement

theorem Speaker.handle_deletePath (speaker : Speaker) (ba : BGPAdvertisement) :
    speaker.handle ba.deletePath =
      match ba.protocol with
      | .ipv4 => speaker.filter fun net => net ≠ ba.cidr
      | .ipv6 => speaker := by
  unfold BGPAdvertisement.deletePath
  cases ba.protocol with
  | ipv4 =>
    refine List.filter_congr fun net _ => ?_
    simp
  | ipv6 => rfl

inductive AdvertiseError where
  | kube
  | gotgPRC
  deriving DecidableEq

structure AgentAnswers where
  serves : ℕ → Bool
  replaces : Bool

structure Followed where
  speaker : Speaker
  peers : Option AdvertiseTable

/-- A reconcile of the agent.  `requests` are the events of the calls that were answered. -/
structure AgentRun extends Followed where
  requests : List RibEvent
  calls : ℕ
  needUpdate : Bool
  needRequeue : Bool

def AgentRun.new (ba : BGPAdvertisement) (speaker : Speaker) : AgentRun where
  speaker := speaker
  peers := ba.peers
  requests := []
  calls := 0
  needUpdate := false
  needRequeue := false

abbrev AgentM := Effect AgentRun AdvertiseError

namespace Agent

def callSpeaker (answers : AgentAnswers) (event : RibEvent) : AgentM PUnit := fun run =>
  if answers.serves run.calls then
    (.ok ⟨⟩, { run with
      speaker := run.speaker.handle event
      requests := run.requests ++ [event]
      calls := run.calls + 1 })
  else (.error .gotgPRC, { run with calls := run.calls + 1 })

def changeStatus (change : AdvertiseTable → AdvertiseTable) : AgentM PUnit :=
  Effect.modify fun run => { run with peers := run.peers.map change, needUpdate := true }

def reconcilePeer (answers : AgentAnswers) (ba : BGPAdvertisement)
    (bgpPeers : AList fun _ : String => BGPPeer) (peer : BGPPeerSlim) : AgentM PUnit :=
  match bgpPeers.lookup peer.name with
  | none => fail .kube
  | some bp =>
    if !bp.isEstablished then Effect.modify fun run => { run with needRequeue := true }
    else do
      let run ← Effect.read id
      match statusOf run.peers peer.name with
      | none => pure ⟨⟩
      | some .notAdvertised =>
        callSpeaker answers ba.addPath
        changeStatus fun table => table.insert peer.name .advertised
      | some .advertised => callSpeaker answers ba.addPath
      | some .withdraw =>
        callSpeaker answers ba.deletePath
        changeStatus fun table => table.erase peer.name

/-- A status is written only for a NodeBGP that lists peers. -/
def replaceStatus (answers : AgentAnswers) : AgentM Action := do
  let run ← Effect.read id
  if run.needUpdate then
    if answers.replaces then pure (.requeue 60) else fail .kube
  else if run.needRequeue then pure (.requeue 10)
  else pure .awaitChange

def reconcile (answers : AgentAnswers) (ba : BGPAdvertisement) (nb : NodeBGP)
    (bgpPeers : AList fun _ : String => BGPPeer) : AgentM Action := do
  match nb.peers with
  | none => pure .awaitChange
  | some peers =>
    forEach (reconcilePeer answers ba bgpPeers) peers
    replaceStatus answers

def established (bgpPeers : AList fun _ : String => BGPPeer) (name : String) : Bool :=
  (bgpPeers.lookup name).any BGPPeer.isEstablished

def visit (ba : BGPAdvertisement) (bgpPeers : AList fun _ : String => BGPPeer) (view : Followed)
    (peer : BGPPeerSlim) : Followed :=
  if established bgpPeers peer.name then
    match statusOf view.peers peer.name with
    | none => view
    | some .notAdvertised => ⟨view.speaker.handle ba.addPath,
        view.peers.map fun table => table.insert peer.name .advertised⟩
    | some .advertised => ⟨view.speaker.handle ba.addPath, view.peers⟩
    | some .withdraw => ⟨view.speaker.handle ba.deletePath,
        view.peers.map fun table => table.erase peer.name⟩
  else view

variable {answers : AgentAnswers} {ba : BGPAdvertisement}
  {bgpPeers : AList fun _ : String => BGPPeer} {peer : BGPPeerSlim} {run : AgentRun}

theorem reconcilePeer_cases : (∃ next, reconcilePeer answers ba bgpPeers peer run = (.ok ⟨⟩, next) ∧
      next.toFollowed = visit ba bgpPeers run.toFollowed peer) ∨
    ∃ cause next, reconcilePeer answers ba bgpPeers peer run = (.error cause, next) ∧
      next.toFollowed = run.toFollowed := by
  unfold reconcilePeer visit established
  cases found : bgpPeers.lookup peer.name with
  | none => exact .inr ⟨.kube, run, rfl, rfl⟩
  | some bp =>
    cases live : bp.isEstablished with
    | false =>
      refine .inl ⟨{ run with needRequeue := true }, ?_, ?_⟩
      · simp [live, Effect.modify]
      · simp [live]
    | true =>
      simp only [Bool.not_true, Bool.false_eq_true, if_false, Option.any_some, live, if_true]
      by_cases serves : answers.serves run.calls = true
      · refine .inl ?_
        rcases status : statusOf run.peers peer.name with _ | _ | _ | _
        all_goals
          simp [bind_apply, Effect.read, status, callSpeaker, serves, changeStatus,
            Effect.modify, pure_apply]
      rcases status : statusOf run.peers peer.name with _ | _ | _ | _
      · refine .inl ⟨run, ?_, rfl⟩
        simp [bind_apply, Effect.read, status, pure_apply]
      all_goals
        refine .inr ⟨.gotgPRC, { run with calls := run.calls + 1 }, ?_, rfl⟩
        simp [bind_apply, Effect.read, status, callSpeaker, serves]

variable (answers ba bgpPeers run)

theorem forEach_reconcilePeer (peers : List BGPPeerSlim) :
    ∃ visited left, peers = visited ++ left ∧
      (forEach (reconcilePeer answers ba bgpPeers) peers run).2.toFollowed =
        visited.foldl (visit ba bgpPeers) run.toFollowed ∧
      ((forEach (reconcilePeer answers ba bgpPeers) peers run).1 = .ok ⟨⟩ → left = []) := by
  induction peers generalizing run with
  | nil => exact ⟨[], [], rfl, rfl, fun _ => rfl⟩
  | cons peer rest ih =>
    rw [forEach, bind_apply]
    rcases reconcilePeer_cases with ⟨next, ran, same⟩ | ⟨cause, next, ran, same⟩
    · rw [ran]
      rcases ih next with ⟨visited, left, parts, walked, whole⟩
      refine ⟨peer :: visited, left, by rw [parts, List.cons_append], ?_, whole⟩
      rw [List.foldl_cons, ← same]
      exact walked
    · rw [ran]
      exact ⟨[], peer :: rest, rfl, same, nofun⟩

theorem reconcile_walk (nb : NodeBGP) :
    ∃ visited left, nb.peerList = visited ++ left ∧
      (reconcile answers ba nb bgpPeers run).2.toFollowed =
        visited.foldl (visit ba bgpPeers) run.toFollowed ∧
      ∀ action, (reconcile answers ba nb bgpPeers run).1 = .ok action → left = [] := by
  unfold reconcile NodeBGP.peerList
  cases nb.peers with
  | none => exact ⟨[], [], rfl, rfl, fun _ _ => rfl⟩
  | some peers =>
    rcases forEach_reconcilePeer answers ba bgpPeers run peers with
      ⟨visited, left, parts, walked, whole⟩
    have writes : ∀ middle, (replaceStatus answers middle).2 = middle := by
      intro middle
      simp only [replaceStatus, bind_apply, Effect.read, id]
      split_ifs <;> rfl
    refine ⟨visited, left, parts, ?_, ?_⟩
    · rw [← walked]
      dsimp only
      rw [bind_apply]
      rcases forEach (reconcilePeer answers ba bgpPeers) peers run with
        ⟨value | cause | _, middle⟩
      · exact congrArg AgentRun.toFollowed (writes middle)
      · rfl
      · rfl
    intro action ok
    apply whole
    dsimp only at ok
    rw [bind_apply] at ok
    rcases ended : forEach (reconcilePeer answers ba bgpPeers) peers run with
      ⟨value | cause | _, middle⟩
    · rfl
    all_goals
      rw [ended] at ok
      cases ok

def settle : Option AdvertiseStatus → Option AdvertiseStatus
  | some .notAdvertised | some .advertised => some .advertised
  | some .withdraw | none => none

theorem settle_settle (status : Option AdvertiseStatus) : settle (settle status) =
    settle status := by
  rcases status with _ | _ | _ | _ <;> rfl

variable (ba : BGPAdvertisement) (bgpPeers : AList fun _ : String => BGPPeer)

theorem statusOf_visit (view : Followed) (peer : BGPPeerSlim) (name : String) :
    statusOf (visit ba bgpPeers view peer).peers name =
      if established bgpPeers name = true ∧ name = peer.name then settle (statusOf view.peers name)
      else statusOf view.peers name := by
  unfold visit
  by_cases live : established bgpPeers peer.name = true
  · rw [if_pos live]
    rcases status : statusOf view.peers peer.name with _ | _ | _ | _
    · split_ifs with here
      · rw [here.2, status]
        rfl
      · rfl
    · dsimp only
      rw [statusOf_insert _ _ _ _ (by rw [status]; nofun)]
      by_cases same : name = peer.name
      · rw [if_pos same, if_pos ⟨same ▸ live, same⟩, same, status]
        rfl
      · rw [if_neg same, if_neg fun here => same here.2]
    · split_ifs with here
      · rw [here.2, status]
        rfl
      · rfl
    · dsimp only
      rw [statusOf_erase]
      by_cases same : name = peer.name
      · rw [if_pos same, if_pos ⟨same ▸ live, same⟩, same, status]
        rfl
      · rw [if_neg same, if_neg fun here => same here.2]
  · rw [if_neg live, if_neg]
    rintro ⟨here, rfl⟩
    exact live here

theorem statusOf_walk (peers : List BGPPeerSlim) (view : Followed) (name : String) :
    statusOf (peers.foldl (visit ba bgpPeers) view).peers name =
      if established bgpPeers name = true ∧ name ∈ peers.map BGPPeerSlim.name then
        settle (statusOf view.peers name)
      else statusOf view.peers name := by
  induction peers generalizing view with
  | nil => simp
  | cons peer rest ih =>
    rw [List.foldl_cons, ih, statusOf_visit, List.map_cons]
    by_cases live : established bgpPeers name = true
    · by_cases here : name = peer.name
      · rw [if_pos (c := established bgpPeers name = true ∧ name = peer.name) ⟨live, here⟩,
          if_pos (c := _ ∧ name ∈ peer.name :: _) ⟨live, by simp [here]⟩]
        split_ifs
        · exact settle_settle _
        · rfl
      · simp [live, here]
    · simp [live]

def Wanted (bgpPeers : AList fun _ : String => BGPPeer) (table : Option AdvertiseTable)
    (peer : BGPPeerSlim) : Prop :=
  established bgpPeers peer.name = true ∧
    (statusOf table peer.name = some .notAdvertised ∨ statusOf table peer.name = some .advertised)

def Withdrawn (bgpPeers : AList fun _ : String => BGPPeer) (table : Option AdvertiseTable)
    (peer : BGPPeerSlim) : Prop :=
  established bgpPeers peer.name = true ∧ statusOf table peer.name = some .withdraw

/-- A peer that is to hear of the network is visited after the last withdrawal.  The second visit of
a peer from which the network is withdrawn does nothing. -/
def Outlasts (bgpPeers : AList fun _ : String => BGPPeer) (table : Option AdvertiseTable)
    (peers : List BGPPeerSlim) : Prop :=
  ∃ before target after, peers = before ++ target :: after ∧ Wanted bgpPeers table target ∧
    ∀ peer ∈ after, Withdrawn bgpPeers table peer → peer.name ∈ before.map BGPPeerSlim.name

variable {ba : BGPAdvertisement} {bgpPeers : AList fun _ : String => BGPPeer} {view : Followed}
  {table : Option AdvertiseTable}

theorem Wanted.not_withdrawn (wanted : Wanted bgpPeers table peer) :
    ¬Withdrawn bgpPeers table peer := by
  rintro ⟨_, status⟩
  rcases wanted.2 with other | other
  all_goals
    rw [other] at status
    cases status

theorem mem_visit_of_wanted (wanted : Wanted bgpPeers view.peers peer) :
    ba.cidr ∈ (visit ba bgpPeers view peer).speaker := by
  rcases wanted with ⟨live, status | status⟩
  all_goals simp [visit, live, status, Speaker.handle, BGPAdvertisement.addPath]

theorem not_mem_visit_of_withdrawn (ipv4 : ba.protocol = .ipv4)
    (withdrawn : Withdrawn bgpPeers view.peers peer) :
    ba.cidr ∉ (visit ba bgpPeers view peer).speaker := by
  rcases withdrawn with ⟨live, status⟩
  simp [visit, live, status, Speaker.handle_deletePath, ipv4]

theorem visit_speaker_of_neither (notWanted : ¬Wanted bgpPeers view.peers peer)
    (kept : ba.protocol = .ipv4 → ¬Withdrawn bgpPeers view.peers peer) :
    (visit ba bgpPeers view peer).speaker = view.speaker := by
  unfold visit
  split_ifs with live
  · rcases status : statusOf view.peers peer.name with _ | _ | _ | _
    · rfl
    · exact absurd ⟨live, .inl status⟩ notWanted
    · exact absurd ⟨live, .inr status⟩ notWanted
    · cases protocol : ba.protocol with
      | ipv4 => exact absurd ⟨live, status⟩ (kept protocol)
      | ipv6 => rw [Speaker.handle_deletePath, protocol]
  · rfl

theorem wanted_walk (peers : List BGPPeerSlim) :
    Wanted bgpPeers (peers.foldl (visit ba bgpPeers) view).peers peer ↔
      Wanted bgpPeers view.peers peer := by
  unfold Wanted
  rw [statusOf_walk]
  refine and_congr_right fun _ => ?_
  split_ifs
  · rcases statusOf view.peers peer.name with _ | _ | _ | _ <;> simp [settle]
  · rfl

theorem withdrawn_walk (peers : List BGPPeerSlim) :
    Withdrawn bgpPeers (peers.foldl (visit ba bgpPeers) view).peers peer ↔
      Withdrawn bgpPeers view.peers peer ∧ peer.name ∉ peers.map BGPPeerSlim.name := by
  unfold Withdrawn
  rw [statusOf_walk, and_assoc]
  refine and_congr_right fun live => ?_
  by_cases visited : peer.name ∈ peers.map BGPPeerSlim.name
  · rw [if_pos ⟨live, visited⟩]
    refine iff_of_false ?_ fun both => both.2 visited
    rcases statusOf view.peers peer.name with _ | _ | _ | _ <;> simp [settle]
  · rw [if_neg fun both => visited both.2]
    exact (and_iff_left visited).symm

theorem mem_walk_ipv6 (ipv6 : ba.protocol = .ipv6) (peers : List BGPPeerSlim) :
    ba.cidr ∈ (peers.foldl (visit ba bgpPeers) view).speaker ↔
      ba.cidr ∈ view.speaker ∨ ∃ peer ∈ peers, Wanted bgpPeers view.peers peer := by
  induction peers using List.reverseRecOn with
  | nil => simp
  | append_singleton before peer ih =>
    rw [List.foldl_append, List.foldl_cons, List.foldl_nil]
    by_cases wanted : Wanted bgpPeers view.peers peer
    · exact iff_of_true (mem_visit_of_wanted ((wanted_walk before).mpr wanted))
        (.inr ⟨peer, by simp, wanted⟩)
    rw [visit_speaker_of_neither (mt (wanted_walk before).mp wanted) (by rw [ipv6]; nofun), ih]
    refine or_congr_right ⟨?_, ?_⟩
    · rintro ⟨other, member, holds⟩
      exact ⟨other, by simp [member], holds⟩
    rintro ⟨other, member, holds⟩
    rcases List.mem_append.mp member with earlier | last
    · exact ⟨other, earlier, holds⟩
    · rw [List.mem_singleton.mp last] at holds
      exact absurd holds wanted

theorem outlasts_append_singleton {before : List BGPPeerSlim} :
    Outlasts bgpPeers table (before ++ [peer]) ↔ Wanted bgpPeers table peer ∨
      (Outlasts bgpPeers table before ∧
        (Withdrawn bgpPeers table peer → peer.name ∈ before.map BGPPeerSlim.name)) := by
  constructor
  · rintro ⟨first, target, after, parts, wanted, later⟩
    rcases List.eq_nil_or_concat after with rfl | ⟨rest, last, rfl⟩
    · rw [List.append_inj_right' parts rfl |> List.singleton_inj.mp]
      exact .inl wanted
    rw [List.concat_eq_append] at later parts
    rw [← List.cons_append, ← List.append_assoc] at parts
    have shorter := List.append_inj_left' parts rfl
    have same := List.singleton_inj.mp (List.append_inj_right' parts rfl)
    subst same
    refine .inr ⟨⟨first, target, rest, shorter, wanted, ?_⟩, ?_⟩
    · intro other member
      exact later other (by simp [member])
    intro withdrawn
    have early := later peer (by simp) withdrawn
    rw [shorter, List.map_append]
    exact List.mem_append_left _ early
  · rintro (wanted | ⟨⟨first, target, after, rfl, wanted, later⟩, seen⟩)
    · exact ⟨before, peer, [], rfl, wanted, nofun⟩
    refine ⟨first, target, after ++ [peer], by simp, wanted, ?_⟩
    intro other member withdrawn
    rcases List.mem_append.mp member with earlier | last
    · exact later other earlier withdrawn
    -- the last peer was visited before: not as the target, and if behind it then also before it
    · rw [List.mem_singleton.mp last] at withdrawn ⊢
      have place := seen withdrawn
      rw [List.map_append, List.map_cons, List.mem_append, List.mem_cons] at place
      rcases place with early | atTarget | behind
      · exact early
      · refine absurd ?_ wanted.not_withdrawn
        rw [Withdrawn, ← atTarget]
        exact withdrawn
      · rcases List.mem_map.mp behind with ⟨other, otherMem, same⟩
        rw [← same]
        apply later other otherMem
        rw [Withdrawn, same]
        exact withdrawn

theorem mem_walk_ipv4 (ipv4 : ba.protocol = .ipv4) (peers : List BGPPeerSlim) :
    ba.cidr ∈ (peers.foldl (visit ba bgpPeers) view).speaker ↔
      (ba.cidr ∈ view.speaker ∧ ∀ peer ∈ peers, ¬Withdrawn bgpPeers view.peers peer) ∨
        Outlasts bgpPeers view.peers peers := by
  induction peers using List.reverseRecOn with
  | nil => simp [Outlasts]
  | append_singleton before peer ih =>
    rw [List.foldl_append, List.foldl_cons, List.foldl_nil, outlasts_append_singleton]
    by_cases wanted : Wanted bgpPeers view.peers peer
    · exact iff_of_true (mem_visit_of_wanted ((wanted_walk before).mpr wanted))
        (.inr (.inl wanted))
    by_cases withdrawn : Withdrawn bgpPeers view.peers peer
    · by_cases seen : peer.name ∈ before.map BGPPeerSlim.name
      · have kept : ¬Withdrawn bgpPeers (before.foldl (visit ba bgpPeers) view).peers peer :=
          fun again => ((withdrawn_walk before).mp again).2 seen
        rw [visit_speaker_of_neither (mt (wanted_walk before).mp wanted) fun _ => kept, ih]
        rcases List.mem_map.mp seen with ⟨other, otherMem, same⟩
        have alsoOther : Withdrawn bgpPeers view.peers other := by
          rw [Withdrawn, same]
          exact withdrawn
        rw [and_iff_left fun _ => seen, or_iff_right wanted]
        refine or_congr_left (iff_of_false ?_ ?_)
        · exact fun both => both.2 other otherMem alsoOther
        · exact fun both => both.2 peer (by simp) withdrawn
      refine iff_of_false (not_mem_visit_of_withdrawn ipv4
        ((withdrawn_walk before).mpr ⟨withdrawn, seen⟩)) ?_
      rintro (⟨_, all⟩ | isWanted | ⟨_, again⟩)
      · exact all peer (by simp) withdrawn
      · exact wanted isWanted
      · exact seen (again withdrawn)
    · have kept : ¬Withdrawn bgpPeers (before.foldl (visit ba bgpPeers) view).peers peer :=
        fun again => withdrawn ((withdrawn_walk before).mp again).1
      rw [visit_speaker_of_neither (mt (wanted_walk before).mp wanted) fun _ => kept, ih]
      simp [wanted, withdrawn, or_imp, forall_and]

/-- The network is held exactly if the status has it advertised for an established peer of the
node. -/
def Follows (nb : NodeBGP) (bgpPeers : AList fun _ : String => BGPPeer)
    (table : Option AdvertiseTable) (held : Prop) : Prop :=
  held ↔ ∃ peer ∈ nb.peerList, established bgpPeers peer.name = true ∧
    statusOf table peer.name = some .advertised

/-- The condition on the status, the order of the peers and their sessions.  With a peer that is to
hear of the network, an IPv4 network is announced after the last withdrawal.  Without one, the
speaker does not hold the network, or it is withdrawn for some peer. -/
def Settled (ba : BGPAdvertisement) (nb : NodeBGP) (bgpPeers : AList fun _ : String => BGPPeer) :
    Prop :=
  ((∃ peer ∈ nb.peerList, Wanted bgpPeers ba.peers peer) →
    ba.protocol = .ipv4 → Outlasts bgpPeers ba.peers nb.peerList) ∧
  ((∀ peer ∈ nb.peerList, ¬Wanted bgpPeers ba.peers peer) →
    (∀ peer ∈ nb.peerList, statusOf ba.peers peer.name ≠ some .advertised) ∨
      (ba.protocol = .ipv4 ∧ ∃ peer ∈ nb.peerList, Withdrawn bgpPeers ba.peers peer))

variable {answers : AgentAnswers} {ba : BGPAdvertisement} {nb : NodeBGP}
  {bgpPeers : AList fun _ : String => BGPPeer} {speaker : Speaker} {action : Action}
  {run : AgentRun}

theorem toFollowed_of_ok
    (ran : reconcile answers ba nb bgpPeers (AgentRun.new ba speaker) = (.ok action, run)) :
    run.toFollowed = nb.peerList.foldl (visit ba bgpPeers) ⟨speaker, ba.peers⟩ := by
  rcases reconcile_walk answers ba bgpPeers (AgentRun.new ba speaker) nb with
    ⟨visited, left, parts, walked, whole⟩
  rw [ran] at walked whole
  rw [whole action rfl, List.append_nil] at parts
  rw [parts]
  exact walked

theorem advertised_walk {peers : List BGPPeerSlim} {view : Followed} {peer : BGPPeerSlim}
    (member : peer ∈ peers) : (established bgpPeers peer.name = true ∧
      statusOf (peers.foldl (visit ba bgpPeers) view).peers peer.name = some .advertised) ↔
        Wanted bgpPeers view.peers peer := by
  refine and_congr_right fun live => ?_
  rw [statusOf_walk, if_pos ⟨live, List.mem_map_of_mem member⟩]
  rcases statusOf view.peers peer.name with _ | _ | _ | _ <;> simp [settle]

theorem speaker_follows_iff (start : ba.cidr ∈ speaker ↔
      ∃ peer ∈ nb.peerList, statusOf ba.peers peer.name = some .advertised)
    (ran : reconcile answers ba nb bgpPeers (AgentRun.new ba speaker) = (.ok action, run)) :
    Follows nb bgpPeers run.peers (ba.cidr ∈ run.speaker) ↔ Settled ba nb bgpPeers := by
  have walked := toFollowed_of_ok ran
  rw [congrArg Followed.peers walked, congrArg Followed.speaker walked]
  have written : (∃ peer ∈ nb.peerList, established bgpPeers peer.name = true ∧ statusOf
      (nb.peerList.foldl (visit ba bgpPeers) ⟨speaker, ba.peers⟩).peers peer.name =
        some .advertised) ↔ ∃ peer ∈ nb.peerList, Wanted bgpPeers ba.peers peer :=
    exists_congr fun peer => and_congr_right fun member => advertised_walk member
  rw [Follows, written, Settled]
  by_cases wanted : ∃ peer ∈ nb.peerList, Wanted bgpPeers ba.peers peer
  · have some : ¬∀ peer ∈ nb.peerList, ¬Wanted bgpPeers ba.peers peer := by
      push Not
      exact wanted
    rw [iff_true_right wanted, and_iff_left (absurd · some)]
    cases protocol : ba.protocol with
    | ipv4 =>
      rw [mem_walk_ipv4 protocol]
      -- without a withdrawal the first wanted peer will do
      constructor
      · rintro (⟨_, none⟩ | outlasts) _ _
        · rcases wanted with ⟨peer, member, wanted⟩
          rcases List.append_of_mem member with ⟨before, after, parts⟩
          refine ⟨before, peer, after, parts, wanted, ?_⟩
          intro other otherMem withdrawn
          exact absurd withdrawn (none other (by simp [parts, otherMem]))
        · exact outlasts
      · exact fun outlasts => .inr (outlasts wanted rfl)
    | ipv6 => simp [mem_walk_ipv6 protocol, wanted]
  · have none : ∀ peer ∈ nb.peerList, ¬Wanted bgpPeers ba.peers peer := by
      intro peer member isWanted
      exact wanted ⟨peer, member, isWanted⟩
    have never : ¬Outlasts bgpPeers ba.peers nb.peerList := by
      rintro ⟨before, target, after, parts, isWanted, _⟩
      exact none target (by simp [parts]) isWanted
    have held : ba.cidr ∉ speaker ↔
        ∀ peer ∈ nb.peerList, statusOf ba.peers peer.name ≠ some .advertised := by
      rw [start]
      push Not
      rfl
    rw [iff_false_right wanted, and_iff_right (absurd · wanted), imp_iff_right none, ← held]
    cases protocol : ba.protocol with
    | ipv4 =>
      rw [mem_walk_ipv4 protocol, or_iff_left never, not_and_or]
      push Not
      simp
    | ipv6 => simp [mem_walk_ipv6 protocol, wanted]

end Agent

end Sart
