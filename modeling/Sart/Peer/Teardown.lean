import Sart.Lib.Run
import Sart.Peer.ErrorHandling

/-!
# The end of a session

Outside a session a peer holds no routes, and the manager has been asked to drop every path
that it got from the peer.  There are three ways around this: a second connection while the
session is up, a network that is announced again, and a withdrawal of two families.
-/

namespace Sart

open Sart.Lib Sart.Lib.Effect

def Path.InstalledBy (path : Path) : RibEvent → Prop
  | .installPaths _ paths => path ∈ paths
  | _ => False

def Path.DroppedBy (path : Path) : RibEvent → Prop
  | .dropPaths _ family pathIds => family = path.family ∧ (path.pfx, path.id) ∈ pathIds
  | _ => False

/-- The peer holds no routes, and the manager was asked to drop all it got. -/
structure PeerLoop.TornDown (loop : PeerLoop) : Prop where
  adjRibIn : ∀ family pfx, loop.adjRibIn.get family pfx = none
  adjRibOut : ∀ family pfx, loop.adjRibOut.get family pfx = none
  dropped : ∀ path : Path, ¬Pending path.InstalledBy path.DroppedBy loop.ribTx

def AdjRib.Keeps (rib : AdjRib) (path : Path) : Prop :=
  ∃ held, rib.get path.family path.pfx = some held ∧ held.id = path.id

/-- The tables are those of the families, and paths are stored under their networks. -/
structure Peer.Filed (peer : Peer) : Prop where
  registered : ∀ family, peer.adjRibIn.Registered family → family ∈ peer.info.families
  nets : peer.adjRibIn.WellFiled

def Peer.OneFamily (peer : Peer) (withdrawnRoutes : List Prefix) : Prop :=
  ∀ net ∈ withdrawnRoutes, (peer.adjRibIn.get net.inner.unicast net.inner).isSome →
    ∀ last ∈ withdrawnRoutes.getLast?, net.inner.unicast = last.inner.unicast

def Peer.SameNumbers (hash : PathBuilder → UInt64) (peer : Peer) (attributes : List Attribute)
    (nlri : List Prefix) : Prop :=
  ((PathBuilder.builder peer.info.routerId peer.info.asn peer.info.neighbor.routerId
    peer.info.neighbor.addr peer.info.neighbor.asn).attrs attributes).Forall fun builder =>
      ∀ net ∈ (builder.addNlri nlri).nlri,
        ∀ held ∈ peer.adjRibIn.get (builder.addNlri nlri).family net.inner,
          held.id = hash (builder.addNlri nlri)
  deriving Decidable

/-- The condition on a turn: in a session no second connection comes, the manager takes a
withdrawal and it is of one family, and networks that are announced again keep their numbers. -/
def Core.Orderly (env : LoopEnv) (core : Core) : LoopInput → Prop
  | .connected _ | .connection (.tcpConnectionConfirmed _) =>
    core.fsm = .established → 2 ≤ core.connections.length
  | .message (.updateMsg (.update [] attributes nlri)) =>
    core.fsm = .established → core.peer.SameNumbers env.hash attributes nlri
  | .message (.updateMsg (.update withdrawnRoutes _ _)) =>
    core.fsm = .established → env.Takes core.ribTx.length ∧ core.peer.OneFamily withdrawnRoutes
  | _ => True

namespace Peer

variable {peer : Peer} {path : Path}

theorem withdrawRoutes_keeps (withdrawn : List Prefix) (start : AddressFamily)
    (ids : List (IpNet × UInt64)) (rib : AdjRib) :
    ∃ last removed final, withdrawn.foldl withdrawRoute (start, ids, rib) =
      (last, ids ++ removed, final) ∧
      (∀ family, final.Registered family ↔ rib.Registered family) ∧
      (∀ family pfx held, final.get family pfx = some held → rib.get family pfx = some held) ∧
      ∀ family pfx held, rib.get family pfx = some held → final.get family pfx = some held ∨
        family = pfx.unicast ∧ (∃ net ∈ withdrawn, net.inner = pfx) ∧
          (held.pfx, held.id) ∈ removed := by
  induction withdrawn generalizing start ids rib with
  | nil =>
    exact ⟨start, [], rib, by simp, fun _ => Iff.rfl, fun _ _ _ found => found,
      fun _ _ _ found => .inl found⟩
  | cons net rest ih =>
    have get := AdjRib.get_remove rib net.inner.unicast net.inner
    have tables := AdjRib.registered_remove rib net.inner.unicast net.inner
    rw [List.foldl_cons, withdrawRoute_eq]
    generalize (rib.remove net.inner.unicast net.inner).2 = next at get tables ⊢
    rcases ih net.inner.unicast (ids ++ ((rib.get net.inner.unicast net.inner).map fun path =>
      (path.pfx, path.id)).toList) next with ⟨last, removed, final, ran, same, less, kept⟩
    refine ⟨last, _, final, ran.trans (by rw [List.append_assoc]),
      fun family => (same family).trans (tables family), ?_, ?_⟩
    · intro family pfx held found
      have before := less family pfx held found
      rw [get] at before
      split_ifs at before
      exact before
    intro family pfx held found
    by_cases here : family = net.inner.unicast ∧ pfx = net.inner
    · rcases here with ⟨rfl, rfl⟩
      exact .inr ⟨rfl, ⟨net, List.mem_cons_self, rfl⟩, by simp [found]⟩
    have next : next.get family pfx = some held := by
      rw [get, if_neg here, found]
    refine (kept family pfx held next).imp_right fun ⟨own, ⟨other, member, isNet⟩, dropped⟩ => ?_
    exact ⟨own, ⟨other, List.mem_cons_of_mem _ member, isNet⟩, List.mem_append_right _ dropped⟩

structure Stores (paths : List Path) (peer final : Peer) : Prop where
  info : final.info = peer.info
  tables : ∀ family, final.adjRibIn.Registered family ↔ peer.adjRibIn.Registered family
  entries : ∀ family pfx, final.adjRibIn.get family pfx = peer.adjRibIn.get family pfx ∨
    ∃ path ∈ paths, path.family = family ∧ path.pfx = pfx ∧
      final.adjRibIn.get family pfx = some path

variable {paths : List Path} {final : Peer} {hash : PathBuilder → UInt64}
  {attributes : List Attribute} {nlri : List Prefix} {clock : ℕ → ℕ}

theorem Stores.insert (stores : Stores paths peer final) (member : path ∈ paths)
    (registered : final.adjRibIn.Registered path.family) :
    Stores paths peer
      (final.withAdjRib (final.adjRibIn.insert path.family path.pfx path).2) where
  info := stores.info
  tables family := (AdjRib.registered_insert ..).trans (stores.tables family)
  entries family pfx := by
    rw [adjRibIn_withAdjRib, AdjRib.get_insert registered]
    split_ifs with here
    · exact .inr ⟨path, member, here.1.symm, here.2.symm, rfl⟩
    · exact stores.entries family pfx

theorem collect_acceptPath_stores (paths : List Path) (peer : Peer) :
    Spec (fun state => state = peer) (collect acceptPath paths)
      (fun accepted final => Stores paths peer final ∧ ∀ path ∈ accepted, path ∈ paths ∧
        ∃ stored ∈ paths, final.adjRibIn.get path.family path.pfx = some stored)
      fun _ final => Stores paths peer final := by
  refine (Spec.collect (fun left accepted final => left ⊆ paths ∧ Stores paths peer final ∧
    ∀ path ∈ accepted, path ∈ paths ∧
      ∃ stored ∈ paths, final.adjRibIn.get path.family path.pfx = some stored) ?_ paths []).conseq
    ?_ fun accepted final ⟨_, stores, stored⟩ => ⟨stores, stored⟩
  · intro path rest accepted
    refine Spec.of_ends fun state ⟨sub, stores, stored⟩ => ?_
    rw [List.cons_subset] at sub
    by_cases own : path.hasOwnAs = true
    · rw [acceptPath_own own]
      exact ⟨sub.2, stores, by simpa using stored⟩
    rw [Bool.not_eq_true] at own
    by_cases registered : state.adjRibIn.Registered path.family
    · rw [acceptPath_stored own registered]
      refine ⟨sub.2, stores.insert sub.1 registered, fun other member => ?_⟩
      rw [adjRibIn_withAdjRib, AdjRib.get_insert registered]
      rcases List.mem_append.mp member with before | now
      · refine ⟨(stored other before).1, ?_⟩
        split_ifs
        · exact ⟨path, sub.1, rfl⟩
        · exact (stored other before).2
      · rw [List.mem_singleton.mp now, if_pos ⟨rfl, rfl⟩]
        exact ⟨sub.1, path, sub.1, rfl⟩
    · rw [acceptPath_refused own registered]
      exact stores
  · rintro state rfl
    exact ⟨List.Subset.refl paths, ⟨rfl, fun _ => Iff.rfl, fun _ _ => .inl rfl⟩, by simp⟩

theorem announcedPaths_number {info : PeerInfo}
    (ok : announcedPaths info hash clock attributes nlri = .ok paths) :
    ∃ builder, (PathBuilder.builder info.routerId info.asn info.neighbor.routerId
        info.neighbor.addr info.neighbor.asn).attrs attributes = .ok builder ∧
      ∀ path ∈ paths, path.id = hash (builder.addNlri nlri) ∧
        path.family = (builder.addNlri nlri).family ∧
        ∃ net ∈ (builder.addNlri nlri).nlri, path.pfx = net.inner := by
  rcases Outcome.bind_eq_ok.mp ok with ⟨builder, attrsOk, buildOk⟩
  refine ⟨builder, attrsOk, fun path member => ?_⟩
  rcases PathBuilder.mem_of_build_eq_ok buildOk member with ⟨_, _, _, net, among, rfl⟩
  exact ⟨rfl, rfl, net, among, rfl⟩

/-- What a message leaves: a path that is stored stays so or is dropped by the event, and a path
that is installed is stored. -/
structure Traces (withdrawnRoutes : List Prefix) (peer final : Peer) (event : Option RibEvent) :
    Prop where
  filed : final.Filed
  kept : ∀ path, peer.adjRibIn.Keeps path → final.adjRibIn.Keeps path ∨
    withdrawnRoutes ≠ [] ∧ ∃ sent ∈ event, path.DroppedBy sent
  installed : ∀ path, ∀ sent ∈ event, path.InstalledBy sent → final.adjRibIn.Keeps path

theorem Stores.traces {number : UInt64} {family : AddressFamily} {nets : List Prefix}
    (stores : Stores paths peer final) (filed : peer.Filed)
    (numbers : ∀ path ∈ paths, path.id = number ∧ path.family = family ∧
      ∃ net ∈ nets, path.pfx = net.inner)
    (same : ∀ net ∈ nets, ∀ held ∈ peer.adjRibIn.get family net.inner, held.id = number) :
    Traces [] peer final none where
  filed := by
    refine ⟨fun family known => ?_, fun family pfx path found => ?_⟩
    · rw [stores.info]
      exact filed.registered family ((stores.tables family).mp known)
    rcases stores.entries family pfx with before | ⟨other, member, isFamily, isPfx, now⟩
    · exact filed.nets family pfx path (before.symm.trans found)
    · rw [← Option.some.inj (now.symm.trans found), isPfx]
  kept := by
    rintro path ⟨held, found, number⟩
    rcases stores.entries path.family path.pfx with before | ⟨other, member, family, pfx, now⟩
    · exact .inl ⟨held, before.trans found, number⟩
    rcases numbers other member with ⟨isNumber, isFamily, net, among, isNet⟩
    refine .inl ⟨other, now, ?_⟩
    rw [isNumber, ← number]
    refine (same net among held ?_).symm
    rw [← isFamily, ← isNet, family, pfx]
    exact found
  installed := by simp

theorem handleUpdateMsg_keeps {withdrawnRoutes : List Prefix} (filed : peer.Filed)
    (repeated : withdrawnRoutes = [] → peer.SameNumbers hash attributes nlri)
    (withdrawn : withdrawnRoutes ≠ [] → peer.OneFamily withdrawnRoutes) :
    Spec (fun state => state = peer)
      (handleUpdateMsg hash clock withdrawnRoutes attributes nlri)
      (fun event final => Traces withdrawnRoutes peer final (some event))
      fun _ final => Traces withdrawnRoutes peer final none := by
  by_cases none : withdrawnRoutes = []
  · subst none
    have still : Traces [] peer peer none := ⟨filed, fun _ keeps => .inl keeps, by simp⟩
    refine Spec.readState ?_
    rintro state rfl
    refine (Spec.lift ?_).bind fun paths => Spec.fact_pre fun built => ?_
    · rintro current rfl
      exact ⟨fun _ _ => still, fun _ => still⟩
    rcases announcedPaths_number built with ⟨builder, attrsOk, numbers⟩
    have same := repeated rfl
    rw [SameNumbers, attrsOk] at same
    refine ((collect_acceptPath_stores paths state).mono (fun _ _ holds => holds)
      fun _ _ stores => stores.traces filed numbers same).bind fun accepted => ?_
    refine Spec.pure fun final ⟨stores, stored⟩ => ?_
    have traces := stores.traces filed numbers same
    refine ⟨traces.filed, fun path keeps => .inl ?_, ?_⟩
    · exact (traces.kept path keeps).resolve_right fun gone => gone.1 rfl
    rintro path event ⟨rfl⟩ installed
    rcases stored path installed with ⟨own, other, member, found⟩
    exact ⟨other, found, (numbers other member).1.trans (numbers path own).1.symm⟩
  · refine Spec.of_ends ?_
    rintro state rfl
    rcases withdrawRoutes_keeps withdrawnRoutes .ipv4Unicast [] state.adjRibIn with
      ⟨last, removed, rib, ran, tables, less, kept⟩
    have family := withdrawRoutes_family withdrawnRoutes .ipv4Unicast [] state.adjRibIn
    rw [ran] at family
    rw [handleUpdateMsg_withdrawn none, withdrawRoutes, ran]
    refine ⟨⟨fun family known => filed.registered family ((tables family).mp known),
      fun family pfx path found => filed.nets family pfx path (less family pfx path found)⟩, ?_, ?_⟩
    · rintro path ⟨held, found, number⟩
      rcases kept path.family path.pfx held found with stays | ⟨own, ⟨net, member, isNet⟩, dropped⟩
      · exact .inl ⟨held, stays, number⟩
      refine .inr ⟨none, _, rfl, ?_, ?_⟩
      · rcases getLast : withdrawnRoutes.getLast? with _ | final
        · exact absurd (List.getLast?_eq_none_iff.mp getLast) none
        rw [getLast] at family
        rw [family, own, ← isNet]
        refine (withdrawn none net member ?_ final getLast).symm
        rw [isNet, ← own, found]
        rfl
      · rw [List.nil_append, ← filed.nets _ _ _ found, ← number]
        exact dropped
    · rintro path event ⟨rfl⟩ installed
      exact absurd installed id

theorem releaseEvents_drop (filed : peer.Filed) (keeps : peer.adjRibIn.Keeps path) :
    ∃ event ∈ peer.releaseEvents, path.DroppedBy event := by
  rcases keeps with ⟨held, found, number⟩
  have member : path.family ∈ peer.info.families := by
    refine filed.registered _ ?_
    by_contra missing
    rw [AdjRib.get_of_not_registered missing] at found
    simp at found
  cases all : peer.adjRibIn.getAll path.family with
  | none =>
    rw [AdjRib.get_of_getAll_eq_none all] at found
    simp at found
  | some paths =>
    have net := filed.nets _ _ _ found
    have among : held ∈ paths := by
      rw [(AdjRib.getAll_eq_some all (filed.nets path.family)).2, net]
      exact found
    refine ⟨.dropPaths peer.info.neighbor.pair path.family
      (paths.map fun path => (path.pfx, path.id)),
      List.mem_filterMap.mpr ⟨path.family, member, by rw [all]; rfl⟩, rfl, ?_⟩
    exact List.mem_map.mpr ⟨held, among, by rw [net, number]⟩

theorem not_installedBy_releaseEvents {event : RibEvent} (member : event ∈ peer.releaseEvents) :
    ¬path.InstalledBy event := by
  rcases List.mem_filterMap.mp member with ⟨family, -, made⟩
  rcases Option.map_eq_some_iff.mp made with ⟨paths, -, rfl⟩
  exact id

end Peer

/-- All paths that the manager has got and not been asked to drop are stored, and outside a
session there are none. -/
structure Core.Accounted (core : Core) : Prop where
  live : core.Live
  up : core.fsm = .established → core.initialized = false
  filed : core.peer.Filed
  empty : core.fsm ≠ .established →
    ∀ family pfx, core.peer.adjRibIn.get family pfx = none ∧ core.adjRibOut.get family pfx = none
  pending : ∀ path : Path, Pending path.InstalledBy path.DroppedBy core.ribTx →
    core.peer.adjRibIn.Keeps path

namespace Core

variable {env : LoopEnv} {core core' : Core} {input : LoopInput}

section

variable (accounted : core.Accounted)

include accounted

theorem Accounted.not_pending (down : core.fsm ≠ .established)
    (path : Path) : ¬Pending path.InstalledBy path.DroppedBy core.ribTx := by
  intro pending
  rcases accounted.pending path pending with ⟨held, found, -⟩
  rw [(accounted.empty down path.family path.pfx).1] at found
  simp at found

variable {events : List RibEvent}

theorem Accounted.pending_emit
    (requests : ∀ event ∈ events, ∃ family, event = .init family core.peer.info.neighbor.pair)
    {path : Path} (pending : Pending path.InstalledBy path.DroppedBy (core.ribTx ++ events)) :
    core.peer.adjRibIn.Keeps path := by
  refine accounted.pending path ((pending_append_of_not_opens fun event member => ?_).mp pending).1
  rcases requests event member with ⟨family, rfl⟩
  exact id

theorem Accounted.released : (∀ family pfx, core.released.peer.adjRibIn.get family pfx = none ∧
      core.released.adjRibOut.get family pfx = none) ∧
    (∀ path : Path, ¬Pending path.InstalledBy path.DroppedBy core.released.ribTx) ∧
    core.released.peer.Filed := by
  by_cases fresh : core.initialized = true
  · have down : core.fsm ≠ .established := by
      intro established
      rw [accounted.up established] at fresh
      simp at fresh
    rw [released_of_initialized fresh]
    exact ⟨accounted.empty down, accounted.not_pending down, accounted.filed⟩
  rw [released_of_live (Bool.not_eq_true _ ▸ fresh)]
  refine ⟨fun family pfx => ⟨AdjRib.get_clear _ _ _, AdjRib.get_clear _ _ _⟩, fun path pending =>
    ?_,
    ⟨fun family known => ?_, fun family pfx path found => ?_⟩⟩
  · dsimp only [cleared, emit, withConnections, takeBack] at pending
    by_cases established : core.fsm = .established
    · rw [if_pos established] at pending
      rcases (pending_append_of_not_opens fun _ member =>
        Peer.not_installedBy_releaseEvents member).mp pending with ⟨before, still⟩
      rcases Peer.releaseEvents_drop accounted.filed (accounted.pending path before) with
        ⟨event, member, dropped⟩
      exact still event member dropped
    · rw [if_neg established, List.append_nil] at pending
      exact accounted.not_pending established path pending
  · exact accounted.filed.registered family ((AdjRib.registered_clear _ _).mp known)
  · have none : core.peer.adjRibIn.clear.get family pfx = some path := found
    rw [AdjRib.get_clear] at none
    simp at none

theorem Accounted.released_move {event : UInt8}
    (down : core.fsm.mv event ≠ .established) : (core.released.move event).Accounted := by
  have moved : (core.released.move event).fsm = core.fsm.mv event := by
    rw [move, released_fsm]
  rcases accounted.released with ⟨empty, dropped, filed⟩
  refine ⟨fun tracked => ?_, fun up => ?_, filed, fun _ => empty, fun path pending => ?_⟩
  · exact absurd (released_connections accounted.live) tracked
  · exact absurd (moved.symm.trans up) down
  · exact absurd pending (dropped path)

theorem Accounted.updated {withdrawnRoutes : List Prefix}
    {attributes : List Attribute} {nlri : List Prefix} {clock : ℕ → ℕ}
    {outcome : Outcome Error RibEvent} {peer : Peer}
    (orderly : core.Orderly env (.message (.updateMsg (.update withdrawnRoutes attributes nlri))))
    (established : core.fsm = .established)
    (handled : core.peer.handleUpdateMsg env.hash clock withdrawnRoutes attributes nlri =
      (outcome, peer))
    (sends : events = [] ∧ (∀ event, outcome = .ok event → ¬env.Takes core.ribTx.length) ∨
      ∃ event, outcome = .ok event ∧ events = [event]) :
    Accounted { core.emit events with peer := peer } := by
  have repeated : withdrawnRoutes = [] → core.peer.SameNumbers env.hash attributes nlri := by
    rintro rfl
    exact orderly established
  have withdrawn : withdrawnRoutes ≠ [] →
      env.Takes core.ribTx.length ∧ core.peer.OneFamily withdrawnRoutes := by
    intro some
    rcases withdrawnRoutes with _ | ⟨first, rest⟩
    · exact absurd rfl some
    · exact orderly established
  have ends := (@Peer.handleUpdateMsg_keeps _ env.hash _ _ clock _ accounted.filed repeated
    fun some => (withdrawn some).2).ends rfl
  rw [handled] at ends
  obtain ⟨sent, ⟨filed, kept, installed⟩, isSent⟩ : ∃ sent,
      Peer.Traces withdrawnRoutes core.peer peer sent ∧ ∀ event, event ∈ sent ↔
        outcome = .ok event := by
    cases outcome with
    | ok event => exact ⟨some event, ends, by simp⟩
    | error cause | panic => exact ⟨none, ends, by simp⟩
  simp only [isSent] at kept installed
  refine ⟨accounted.live, accounted.up, filed, fun down => absurd established down, ?_⟩
  intro path pending
  rcases pending_append.mp pending with ⟨before, still⟩ | now
  · rcases kept path (accounted.pending path before) with keeps | ⟨some, event, returned, dropped⟩
    · exact keeps
    -- The drop was sent, since the manager takes it.
    rcases sends with ⟨-, gone⟩ | ⟨sent, returned', rfl⟩
    · exact absurd (withdrawn some).1 (gone event returned)
    rw [returned, Outcome.ok.injEq] at returned'
    subst returned'
    exact absurd dropped (still event List.mem_cons_self)
  rcases sends with ⟨rfl, -⟩ | ⟨event, returned, rfl⟩
  · exact absurd now id
  rcases now with ⟨opened, -⟩ | later
  · exact installed path event returned opened
  · exact absurd later id

end

theorem Step.accounted (step : core.Step env input core') (accounted : core.Accounted)
    (orderly : core.Orderly env input) : core'.Accounted := by
  have live := step.live accounted.live
  have same := accounted.pending
  cases step with
  | quiet => exact accounted
  | moved event session =>
    exact ⟨live, fun up => accounted.up (session.mp up), accounted.filed,
      fun down => accounted.empty fun up => down (session.mpr up), same⟩
  | released event down =>
    refine accounted.released_move fun up => ?_
    rcases down with down | down
    all_goals simp [up] at down
  | stuck stuck =>
    rcases stuck with ⟨count, established, fresh, -, -⟩
    refine ⟨live, fun _ => fresh, accounted.filed, fun down => absurd established down, ?_⟩
    intro path pending
    refine same path ((pending_append_of_not_opens fun event member => ?_).mp pending).1
    exact Peer.not_installedBy_releaseEvents (List.mem_of_mem_take member)
  | connected source busy room opens state =>
    -- There is no room for a second connection in a session.
    have down : core.fsm ≠ .established := by
      intro established
      have full : 2 ≤ core.connections.length := by
        rcases source with rfl | rfl
        all_goals exact orderly established
      exact absurd room (Nat.not_lt.mpr full)
    exact ⟨live, fun _ => rfl, accounted.filed, fun _ => accounted.empty down, same⟩
  | answered active only requests state =>
    refine ⟨live, fun up => ?_, ⟨accounted.filed.registered, accounted.filed.nets⟩,
      fun _ => accounted.empty (by simp [active]), fun path => accounted.pending_emit requests⟩
    rcases state with rfl | rfl
    · simp at up
    · simp at up
  | accepted sent opens requests state =>
    refine ⟨live, fun up => ?_, ⟨accounted.filed.registered, accounted.filed.nets⟩,
      fun _ => accounted.empty (by simp [sent]), fun path => accounted.pending_emit requests⟩
    rcases state with rfl | rfl
    · simp at up
    · simp at up
  | unanswered sent opens | closed others =>
    exact ⟨live, accounted.up, accounted.filed, accounted.empty, same⟩
  | decided confirmed source left =>
    refine ⟨live, fun _ => ?_, accounted.filed, fun _ => accounted.empty (by simp [confirmed]),
      same⟩
    refine accounted.live fun none => ?_
    rw [none, Connection.decided_confirm_nil] at left
    simp at left
  | updated established handled sends => exact accounted.updated orderly established handled sends
  | disseminated established =>
    exact ⟨live, accounted.up, accounted.filed, fun down => absurd established down, same⟩
  | closedLast last =>
    have alone : (core.withConnections []).Accounted :=
      ⟨fun tracked => absurd rfl tracked, accounted.up, accounted.filed, accounted.empty, same⟩
    refine alone.released_move ?_
    dsimp only [withConnections]
    cases core.fsm <;> decide
  | dropped index => exact ⟨live, accounted.up, accounted.filed, accounted.empty, same⟩

theorem Step.leaves (step : core.Step env input core') (accounted : core.Accounted)
    (orderly : core.Orderly env input) (up : core.fsm = .established)
    (down : core'.fsm ≠ .established) : ∃ state, core' = { core.released with fsm := state } := by
  have other : ∀ state, state ≠ State.established → core.fsm ≠ state := by
    rintro state different rfl
    exact different up
  cases step with
  | quiet | unanswered | updated | disseminated | closed | dropped => exact absurd up down
  | moved event session => exact absurd (session.mpr up) down
  | released event => exact ⟨_, rfl⟩
  | stuck stuck =>
    rcases stuck with ⟨count, -, -, -, -⟩
    exact absurd up down
  | connected source busy room =>
    have full : 2 ≤ core.connections.length := by
      rcases source with rfl | rfl
      all_goals exact orderly up
    exact absurd room (Nat.not_lt.mpr full)
  | answered active => exact absurd active (other _ (by decide))
  | accepted sent => exact absurd sent (other _ (by decide))
  | decided confirmed => exact absurd confirmed (other _ (by decide))
  | closedLast last =>
    have fresh := accounted.up up
    have alone : (core.withConnections []).initialized = false := fresh
    refine ⟨core.fsm.mv Event.CONNECTION_TCP_CONNECTION_FAIL, ?_⟩
    rw [released_of_live fresh, released_of_live alone]
    rfl

end Core

namespace PeerLoop

variable {env : LoopEnv} {loop : PeerLoop}

theorem accounted_new (info : PeerInfo) (localInfo : LocalInfo) (keepaliveTime : ℕ)
    (exporter : Bool)
    (now : ℕ) : (new info localInfo keepaliveTime exporter now).core.Accounted where
  live tracked := absurd rfl tracked
  up established := by simp [core, new] at established
  filed :=
    ⟨fun family known => (AdjRib.registered_new info.families family).mp known,
      fun family pfx path found => absurd found (by simp [core, new, Peer.new, AdjRib.get_new])⟩
  empty _ family pfx := ⟨AdjRib.get_new info.families family pfx,
    AdjRib.get_new info.families family pfx⟩
  pending _ pending := absurd pending id

/-- In every run that meets the condition at each turn, the peer holds no routes outside a session,
the manager has been asked to drop all paths that it got, and a session is left by a release
only. -/
theorem tornDown_of_orderly {info : PeerInfo} {localInfo : LocalInfo} {keepaliveTime : ℕ}
    {exporter : Bool} {now : ℕ} {inputs : List LoopInput}
    (orderly : AllSteps (apply env) (fun loop input => loop.core.Orderly env input)
      (new info localInfo keepaliveTime exporter now) inputs)
    (ran : loop = run env (new info localInfo keepaliveTime exporter now) inputs) :
    (loop.fsm ≠ .established → loop.TornDown) ∧
      ∀ input, loop.core.Orderly env input → loop.fsm = .established →
        (apply env loop input).fsm ≠ .established → loop.Released (apply env loop input) := by
  have accounted : loop.core.Accounted := by
    rw [ran]
    exact foldl_invariant (fun loop : PeerLoop => loop.core.Accounted)
      (fun loop input accounted good => (apply_step env loop input).accounted accounted good)
      (accounted_new info localInfo keepaliveTime exporter now) orderly
  constructor
  · intro down
    exact ⟨fun family pfx => (accounted.empty down family pfx).1,
      fun family pfx => (accounted.empty down family pfx).2, accounted.not_pending down⟩
  · intro input good up down
    rcases (apply_step env loop input).leaves accounted good up down with ⟨state, same⟩
    exact (released_of_core (accounted.up up) same).1

def sampleUpdateMsg : LoopInput :=
  .message (.updateMsg (.update [] [.origin ⟨0x40, 1⟩ 0, .asPath ⟨0x40, 2⟩ [],
    .nextHop ⟨0x40, 3⟩ 0x0a000001] [⟨sampleNet, none⟩]))

def sampleNotifMsg : LoopInput := .message (.notifMsg (.notification .cease none []))

theorem tornDown_of_notification :
    (run sampleLoopEnv sampleLoop (sampleEstablish ++
    [sampleUpdateMsg, sampleNotifMsg])).TornDown := by
  refine (tornDown_of_orderly ?_ rfl).1 (by decide +kernel)
  refine ⟨trivial, fun up => absurd up (by decide +kernel), trivial, trivial, fun _ =>
    ?_, trivial, trivial⟩
  decide +kernel

/-- A second connection comes while the session is up. -/
theorem not_tornDown_of_connected :
    (run sampleLoopEnv sampleLoop (sampleEstablish ++ [sampleUpdateMsg])).fsm = .established ∧
    (run sampleLoopEnv sampleLoop
      (sampleEstablish ++ [sampleUpdateMsg, .connected samplePassive])).fsm = .idle ∧
    ¬(run sampleLoopEnv sampleLoop
      (sampleEstablish ++ [sampleUpdateMsg, .connected samplePassive])).TornDown := by
  refine ⟨by decide +kernel, by decide +kernel, fun torn => ?_⟩
  exact absurd (torn.adjRibIn .ipv4Unicast sampleNet) (by decide +kernel)

end PeerLoop

end Sart
