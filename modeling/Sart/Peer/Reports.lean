import Sart.Rib.Provenance
import Sart.Peer.Teardown

/-!
# What peers report

A peer loop speaks to the manager for its own neighbour only, and what it installs was learned
from that neighbour and does not name the own AS.  Together with the provenance of routes this
keeps loops out of the whole speaker, however the reports of its peers interleave.
-/

namespace Sart

open Sart.Lib Sart.Lib.Effect

/-- The path was learned from the neighbour by a router of the AS that it does not name. -/
def Path.Foreign (asn : UInt32) (pair : NeighborPair) (path : Path) : Prop :=
  path.LearnedFrom pair ∧ path.localAsn = asn ∧ path.hasAs asn = false

def RibEvent.ReportedBy (asn : UInt32) (pair : NeighborPair) : RibEvent → Prop
  | .init _ neighbor | .dropPaths neighbor _ _ => neighbor = pair
  | .installPaths neighbor paths => neighbor = pair ∧ ∀ path ∈ paths, path.Foreign asn pair
  | _ => False

namespace Peer

variable {info : PeerInfo} {hash : PathBuilder → UInt64} {clock : ℕ → ℕ} {paths : List Path}
  {withdrawnRoutes nlri : List Prefix} {attributes : List Attribute}

theorem foreign_of_announced (built : announcedPaths info hash clock attributes nlri = .ok paths)
    {path : Path} (member : path ∈ paths) (accepted : path.hasOwnAs = false) :
    path.Foreign info.asn info.neighbor.pair := by
  rcases Outcome.bind_eq_ok.mp built with ⟨builder, attrsOk, buildOk⟩
  have origin := PathBuilder.attrs_sameOrigin attrsOk
  rcases PathBuilder.mem_of_build_eq_ok buildOk member with ⟨_, _, _, _, _, rfl⟩
  refine ⟨⟨origin.peerAddr, origin.peerAsn⟩, origin.localAsn, ?_⟩
  exact (congrArg _ origin.localAsn).symm.trans accepted

theorem collect_acceptPath_foreign (paths : List Path) :
    Spec (fun peer => peer.info = info) (collect acceptPath paths)
      (fun accepted peer => peer.info = info ∧
        ∀ path ∈ accepted, path ∈ paths ∧ path.hasOwnAs = false)
      fun _ peer => peer.info = info := by
  refine (Spec.collect (fun left accepted peer => left ⊆ paths ∧ peer.info = info ∧
    ∀ path ∈ accepted, path ∈ paths ∧ path.hasOwnAs = false) ?_ paths []).conseq ?_
    fun accepted peer holds => holds.2
  · intro path rest accepted
    refine Spec.of_ends fun peer ⟨sub, same, earlier⟩ => ?_
    rw [List.cons_subset] at sub
    cases own : path.hasOwnAs with
    | true =>
      rw [acceptPath_own own]
      exact ⟨sub.2, same, by simpa using earlier⟩
    | false =>
      by_cases registered : peer.adjRibIn.Registered path.family
      · rw [acceptPath_stored own registered]
        refine ⟨sub.2, same, fun other member => ?_⟩
        rcases List.mem_append.mp member with before | now
        · exact earlier other before
        · exact List.mem_singleton.mp now ▸ ⟨sub.1, own⟩
      · rw [acceptPath_refused own registered]
        exact same
  · exact fun peer same => ⟨List.Subset.refl _, same, by simp⟩

theorem handleUpdateMsg_reports :
    Spec (fun peer => peer.info = info)
      (handleUpdateMsg hash clock withdrawnRoutes attributes nlri)
      (fun event peer => peer.info = info ∧ event.ReportedBy info.asn info.neighbor.pair)
      fun _ peer => peer.info = info := by
  by_cases none : withdrawnRoutes = []
  · subst none
    refine Spec.readState ?_
    rintro peer rfl
    refine (Spec.lift ?_).bind fun paths => Spec.fact_pre fun built => ?_
    · rintro _ rfl
      exact ⟨fun _ _ => rfl, fun _ => rfl⟩
    refine ((collect_acceptPath_foreign paths).conseq ?_ fun _ _ holds => holds).bind
      fun accepted => ?_
    · rintro _ rfl
      rfl
    refine Spec.pure fun _ ⟨same, all⟩ => ⟨same, rfl, fun path member => ?_⟩
    exact foreign_of_announced built (all path member).1 (all path member).2
  · refine Spec.of_ends ?_
    rintro peer rfl
    rw [handleUpdateMsg_withdrawn none]
    exact ⟨rfl, rfl⟩

theorem reports_of_handled {peer final : Peer} {outcome : Outcome Error RibEvent}
    (handled : handleUpdateMsg hash clock withdrawnRoutes attributes nlri peer = (outcome, final)) :
    final.info = peer.info ∧
      ∀ event, outcome = .ok event → event.ReportedBy peer.info.asn peer.info.neighbor.pair := by
  cases outcome with
  | ok event =>
    have ends := handleUpdateMsg_reports.returns rfl handled
    refine ⟨ends.1, ?_⟩
    rintro _ ⟨rfl⟩
    exact ends.2
  | error cause => exact ⟨handleUpdateMsg_reports.fails rfl handled, by simp⟩
  | panic => exact ⟨handleUpdateMsg_reports.panics rfl handled, by simp⟩

end Peer

namespace Core

/-- The peer still is who it was, and all that it has sent are its own reports. -/
structure Speaks (asn : UInt32) (pair : NeighborPair) (core : Core) : Prop where
  ownAsn : core.peer.info.asn = asn
  ownPair : core.peer.info.neighbor.pair = pair
  reports : ∀ event ∈ core.ribTx, event.ReportedBy asn pair

variable {asn : UInt32} {pair : NeighborPair} {core core' : Core} {events : List RibEvent}

theorem Speaks.emit (speaks : core.Speaks asn pair)
    (own : ∀ event ∈ events, event.ReportedBy asn pair) : (core.emit events).Speaks asn pair := by
  refine ⟨speaks.ownAsn, speaks.ownPair, fun event member => ?_⟩
  rcases List.mem_append.mp member with earlier | now
  · exact speaks.reports event earlier
  · exact own event now

theorem Speaks.releaseEvents (speaks : core.Speaks asn pair) :
    ∀ event ∈ core.peer.releaseEvents, event.ReportedBy asn pair := by
  intro event member
  rcases List.mem_filterMap.mp member with ⟨family, -, found⟩
  rcases Option.map_eq_some_iff.mp found with ⟨paths, -, rfl⟩
  exact speaks.ownPair

theorem Speaks.released (speaks : core.Speaks asn pair) : core.released.Speaks asn pair := by
  have sent : (core.emit core.takeBack).Speaks asn pair := by
    refine speaks.emit fun event member => ?_
    rw [takeBack] at member
    split_ifs at member
    · exact speaks.releaseEvents event member
    · exact absurd member List.not_mem_nil
  rw [Core.released]
  split_ifs
  · exact speaks
  · exact ⟨sent.ownAsn, sent.ownPair, sent.reports⟩

theorem Step.speaks {env : LoopEnv} {input : LoopInput} (step : core.Step env input core')
    (speaks : core.Speaks asn pair) : core'.Speaks asn pair := by
  cases step with
  | released event => exact ⟨speaks.released.1, speaks.released.2, speaks.released.3⟩
  | @closedLast =>
    have closed : (core.withConnections []).Speaks asn pair := ⟨speaks.1, speaks.2, speaks.3⟩
    exact ⟨closed.released.1, closed.released.2, closed.released.3⟩
  | stuck stuck =>
    rcases stuck with ⟨count⟩
    have sent : (core.emit (core.peer.releaseEvents.take count)).Speaks asn pair :=
      speaks.emit fun event member => speaks.releaseEvents event (List.mem_of_mem_take member)
    exact ⟨sent.ownAsn, sent.ownPair, sent.reports⟩
  | answered active only requests | accepted sent opens requests =>
    have sent := speaks.emit fun event member => by
      rcases requests event member with ⟨family, rfl⟩
      exact speaks.ownPair
    exact ⟨sent.ownAsn, sent.ownPair, sent.reports⟩
  | @updated _ _ _ _ outcome peer events established handled sends =>
    have returned := Peer.reports_of_handled handled
    rw [speaks.ownAsn, speaks.ownPair] at returned
    have sent : (core.emit events).Speaks asn pair := by
      refine speaks.emit fun event member => ?_
      rcases sends with ⟨rfl, -⟩ | ⟨other, ok, rfl⟩
      · exact absurd member List.not_mem_nil
      · exact List.mem_singleton.mp member ▸ returned.2 other ok
    exact ⟨returned.1 ▸ speaks.ownAsn, returned.1 ▸ speaks.ownPair, sent.reports⟩
  | quiet | moved | connected | unanswered | decided | disseminated | closed | dropped =>
    exact ⟨speaks.ownAsn, speaks.ownPair, speaks.reports⟩

end Core

namespace PeerLoop

variable (env : LoopEnv) (info : PeerInfo) (localInfo : LocalInfo) (keepaliveTime : ℕ)
  (exporter : Bool) (now : ℕ) (inputs : List LoopInput)

theorem run_speaks :
    (run env (new info localInfo keepaliveTime exporter now) inputs).core.Speaks info.asn
      info.neighbor.pair :=
  List.foldlRecOn (motive := fun loop : PeerLoop => loop.core.Speaks info.asn info.neighbor.pair)
    inputs (apply env) ⟨rfl, rfl, by simp [core, new]⟩
    fun loop speaks input _ => (apply_step env loop input).speaks speaks

/-- Whatever a peer loop goes through, it speaks to the manager about its own neighbour alone, and
every path that it installs is foreign. -/
theorem run_reportedBy :
    ∀ event ∈ (run env (new info localInfo keepaliveTime exporter now) inputs).ribTx,
      event.ReportedBy info.asn info.neighbor.pair :=
  (run_speaks env info localInfo keepaliveTime exporter now inputs).reports

theorem run_reportedBy_sampleLoop :
    ∃ event ∈ (run sampleLoopEnv sampleLoop sampleEstablish).ribTx,
      event.ReportedBy 65000 ⟨.v4 0x0a000001, 65001⟩ := by
  have some : (run sampleLoopEnv sampleLoop sampleEstablish).ribTx ≠ [] := by decide +kernel
  exact ⟨_, List.head_mem some, run_reportedBy _ _ _ _ _ _ _ _ (List.head_mem some)⟩

end PeerLoop

/-- What the event installs comes from one of the loops. -/
def RibEvent.FedBy (loops : List PeerLoop) (event : RibEvent) : Prop :=
  ∀ neighbor paths, event = .installPaths neighbor paths → ∃ loop ∈ loops, event ∈ loop.ribTx

/-- However the reports of the peers interleave with each other and with requests, every path that
the manager stores, has told a peer or has answered with is foreign to one of the peers or was
built for a request to add it. -/
theorem RibState.run_loop_free (env : Env) (asn : UInt32) (routerId : Ipv4Addr) (endpoint : Bool)
    (tableId : UInt8) (protocols : List Afi) (multiPath : Bool) {loops : List PeerLoop}
    (reachable : ∀ loop ∈ loops, ∃ env, loop.Reachable env) {events : List RibEvent}
    (fed : ∀ event ∈ events, event.FedBy loops) :
    ((start (.new asn routerId endpoint tableId protocols multiPath)).run env events).Backed
      fun path => (∃ loop ∈ loops, path.Foreign loop.info.asn loop.info.neighbor.pair) ∨
        ∃ networks attrs, .addPath networks attrs ∈ events ∧
          (RibEvent.addPath networks attrs).Supplies env path := by
  refine run_backed (fun event member path supplies => ?_) ⟨?_, by simp [start]⟩
  · cases event with
    | installPaths neighbor paths =>
      rcases fed _ member neighbor paths rfl with ⟨loop, among, sent⟩
      rcases reachable loop among with ⟨env, info, localInfo, time, exporter, now, inputs, rfl⟩
      have speaks := PeerLoop.run_speaks env info localInfo time exporter now inputs
      rcases supplies with ⟨source, installed, same⟩
      have foreign := (speaks.reports _ sent).2 source installed
      rw [← speaks.ownAsn, ← speaks.ownPair] at foreign
      exact .inl ⟨_, among, same ▸ foreign⟩
    | addPath networks attrs => exact .inr ⟨networks, attrs, member, supplies⟩
    | _ => exact absurd supplies id
  · simp [start, RibManager.new]

/-- A peer asks for the routes of both families, reports one, and the manager handles all that. -/
theorem RibState.run_loop_free_sampleLoop :
    ∃ loop : PeerLoop, loop.ribTx.length = 3 ∧
      ((start (sampleRib false)).run sampleEnv loop.ribTx).Backed fun path =>
        (∃ other ∈ [loop], path.Foreign other.info.asn other.info.neighbor.pair) ∨
          ∃ networks attrs, .addPath networks attrs ∈ loop.ribTx ∧
            (RibEvent.addPath networks attrs).Supplies sampleEnv path := by
  refine ⟨.run sampleLoopEnv sampleLoop (sampleEstablish ++ [PeerLoop.sampleUpdateMsg]),
    by decide +kernel, run_loop_free sampleEnv 65000 sampleRouter false 254 [.ipv4] false ?_ ?_⟩
  · intro loop member
    rw [List.mem_singleton.mp member]
    exact ⟨sampleLoopEnv, _, _, _, _, _, _, rfl⟩
  · exact fun event member _ _ _ => ⟨_, List.mem_singleton_self _, member⟩

end Sart
