import Sart.Lib.Overwrite
import Sart.Peer.Session

/-!
# What an UPDATE message means for the Adj-RIB-In

A message takes back the withdrawn routes and the networks of `MP_UNREACH_NLRI`.
It announces its NLRI under IPv4 unicast and the networks of `MP_REACH_NLRI` under
the family and with the next hops given there.  A path through the own AS only
takes the previous path away.
-/

namespace Sart

open Sart.Lib Sart.Lib.Effect

abbrev Destination := AddressFamily × IpNet

abbrev PathTable := Destination → Option Path

/-- What a path says, without its identifier, its marks and its time stamp. -/
def Path.content (path : Path) : Path := { path.unmarked with id := 0 }

def AdjRib.stored (rib : AdjRib) : PathTable := fun dest => rib.get dest.1 dest.2

def Prefix.destination (net : Prefix) : Destination := (net.inner.unicast, net.inner)

structure Update where
  withdrawnRoutes : List Prefix
  attributes : List Attribute
  nlri : List Prefix
  deriving DecidableEq

namespace Attribute

def reachable : Attribute → List (Destination × List IpAddr)
  | .mpReachNLRI _ family nextHops nlri => nlri.map fun net => ((family, net.inner), nextHops)
  | _ => []

def nextHop? : Attribute → List IpAddr
  | .nextHop _ addr => [.v4 addr]
  | _ => []

def nextHops : Attribute → List IpAddr
  | .nextHop _ addr => [.v4 addr]
  | .mpReachNLRI _ _ nextHops _ => nextHops
  | _ => []

def networks : Attribute → List Prefix
  | .mpReachNLRI _ _ _ nlri => nlri
  | _ => []

def family? : Attribute → Option AddressFamily
  | .mpReachNLRI _ family _ _ => some family
  | _ => none

end Attribute

namespace Update

variable (update : Update)

def withdrawn : List Destination := update.withdrawnRoutes.map Prefix.destination

def unreachable : List Destination := update.attributes.flatMap Attribute.unreachable

def announced : List (Destination × List IpAddr) :=
  (update.nlri.map fun net =>
    ((.ipv4Unicast, net.inner), update.attributes.flatMap Attribute.nextHop?)) ++
  update.attributes.flatMap Attribute.reachable

def hopsAt (dest : Destination) : Option (List IpAddr) := lastWrite update.announced dest

def family : AddressFamily :=
  (update.attributes.filterMap Attribute.family?).getLastD .ipv4Unicast

def nextHops : List IpAddr := update.attributes.flatMap Attribute.nextHops

def networks : List Prefix := update.attributes.flatMap Attribute.networks ++ update.nlri

def targets : List Destination := update.networks.map fun net => (update.family, net.inner)

def read (info : PeerInfo) : Outcome Error (PathBuilder × List UInt32 × List UInt32) := do
  let builder ← (PathBuilder.builder info.routerId info.asn info.neighbor.routerId
    info.neighbor.addr info.neighbor.asn).attrs update.attributes
  let lists ← builder.asLists
  .ok (builder, lists)

end Update

def PathBuilder.route (builder : PathBuilder) (lists : List UInt32 × List UInt32)
    (dest : Destination) (nextHops : List IpAddr) : Path :=
  { builder with family := dest.1, nextHop := nextHops }.path 0 lists.1 lists.2 0 ⟨dest.2, none⟩

def PeerInfo.sees (info : PeerInfo) (lists : List UInt32 × List UInt32) : Bool :=
  lists.1.contains info.asn || lists.2.contains info.asn

namespace Update

variable (update : Update)

def due (info : PeerInfo) : Outcome Error (List (Destination × Option Path)) :=
  if update.announced = [] then .ok []
  else do
    let (builder, lists) ← update.read info
    .ok (update.announced.map fun entry =>
      (entry.1, if info.sees lists then none else some (builder.route lists entry.1 entry.2)))

end Update

def PathTable.drop (family : AddressFamily) (table : PathTable) (pathId : IpNet × UInt64) :
    PathTable :=
  if (table (family, pathId.1)).map Path.id = some pathId.2 then
    Function.update table (family, pathId.1) none
  else table

def PathTable.replay (table : PathTable) : RibEvent → PathTable
  | .installPaths _ paths =>
    overwrite table (paths.map fun path => ((path.family, path.pfx), some path))
  | .dropPaths _ family pathIds => pathIds.foldl (PathTable.drop family) table
  | _ => table

/-- An event describes the difference between two tables: it leads from the first to the second,
and it drops only what is there. -/
structure RibEvent.Describes (event : RibEvent) (neighbor : NeighborPair)
    (before after : PathTable) : Prop where
  sender : (∃ paths, event = .installPaths neighbor paths) ∨
    ∃ family pathIds, event = .dropPaths neighbor family pathIds
  replay : before.replay event = after
  held : ∀ family pathIds, event = .dropPaths neighbor family pathIds →
    ∀ pathId ∈ pathIds, (before (family, pathId.1)).map Path.id = some pathId.2

abbrev Update.handle (hash : PathBuilder → UInt64) (clock : ℕ → ℕ) (update : Update) :
    PeerM RibEvent :=
  Peer.handleUpdateMsg hash clock update.withdrawnRoutes update.attributes update.nlri

/-- The handler does what the message means, and its event describes the change. -/
def Update.Obeyed (hash : PathBuilder → UInt64) (clock : ℕ → ℕ) (peer : Peer) (update : Update) :
    Prop :=
  ∃ writes event peer', update.due peer.info = .ok writes ∧
    update.handle hash clock peer = (.ok event, peer') ∧
    (∀ dest, (peer'.adjRibIn.stored dest).map Path.content =
      (overwrite peer.adjRibIn.stored
        (((update.withdrawn ++ update.unreachable).map fun dest => (dest, none)) ++ writes)
        dest).map Path.content) ∧
    event.Describes peer.info.neighbor.pair peer.adjRibIn.stored peer'.adjRibIn.stored

theorem AdjRib.stored_remove (rib : AdjRib) (family : AddressFamily) (pfx : IpNet) :
    (rib.remove family pfx).2.stored = Function.update rib.stored (family, pfx) none := by
  funext dest
  rcases dest with ⟨other, net⟩
  unfold stored
  rw [get_remove, Function.update_apply]
  simp only [Prod.mk.injEq]

variable {rib : AdjRib}

theorem AdjRib.stored_insert {family : AddressFamily} (registered : rib.Registered family)
    (pfx : IpNet) (path : Path) :
    (rib.insert family pfx path).2.stored = Function.update rib.stored (family, pfx)
    (some path) := by
  funext dest
  rcases dest with ⟨other, net⟩
  unfold stored
  rw [get_insert registered, Function.update_apply]
  simp only [Prod.mk.injEq]

theorem AdjRib.WellFiled.remove (filed : rib.WellFiled) (family : AddressFamily) (pfx : IpNet) :
    (rib.remove family pfx).2.WellFiled := by
  intro family' pfx' path found
  rw [get_remove] at found
  split_ifs at found
  exact filed family' pfx' path found

theorem IpNet.unicast_of_ipv4 {net : IpNet} (ipv4 : net.afi = .ipv4) :
    net.unicast = .ipv4Unicast := by
  cases net with
  | v4 => rfl
  | v6 => cases ipv4

namespace Peer

def pathIdAt (table : PathTable) (dest : Destination) : List (IpNet × UInt64) :=
  ((table dest).map fun path => (path.pfx, path.id)).toList

theorem foldl_drop_pathIdAt (filed : rib.WellFiled) (dest : Destination) :
    (pathIdAt rib.stored dest).foldl (PathTable.drop dest.1) rib.stored =
      Function.update rib.stored dest none := by
  unfold pathIdAt
  cases found : rib.stored dest with
  | none => exact (Function.update_eq_self_iff.mpr found.symm).symm
  | some path =>
    have own := filed dest.1 dest.2 path found
    simp only [Option.map_some, Option.toList_some, List.foldl_cons, List.foldl_nil,
      PathTable.drop, own]
    rw [if_pos (by rw [found]; rfl)]

theorem held_of_mem_pathIdAt (filed : rib.WellFiled) {dest : Destination} {pathId : IpNet × UInt64}
    (member : pathId ∈ pathIdAt rib.stored dest) :
    (rib.stored (dest.1, pathId.1)).map Path.id = some pathId.2 := by
  simp only [pathIdAt, Option.mem_toList, Option.map_eq_some_iff] at member
  rcases member with ⟨path, found, rfl⟩
  simp only [filed dest.1 dest.2 path found, found, Option.map_some]

theorem withdrawRoutes_describes (neighbor : NeighborPair) (withdrawn : List Prefix)
    (ipv4 : ∀ net ∈ withdrawn, net.inner.afi = .ipv4) (ids : List (IpNet × UInt64))
    (filed : rib.WellFiled) :
    ∃ removed rib', withdrawn.foldl withdrawRoute (.ipv4Unicast, ids, rib) =
        (.ipv4Unicast, ids ++ removed, rib') ∧
      rib'.stored =
        overwrite rib.stored ((withdrawn.map Prefix.destination).map fun dest => (dest, none)) ∧
      (RibEvent.dropPaths neighbor .ipv4Unicast removed).Describes neighbor rib.stored
        rib'.stored := by
  induction withdrawn generalizing ids rib with
  | nil =>
    refine ⟨[], rib, by simp, rfl, .inr ⟨_, _, rfl⟩, rfl, ?_⟩
    rintro family pathIds ⟨⟩ pathId member
    cases member
  | cons net rest ih =>
    have unicast := IpNet.unicast_of_ipv4 (ipv4 net (by simp))
    have dest : net.destination.1 = .ipv4Unicast := unicast
    have erased := rib.stored_remove net.inner.unicast net.inner
    have next := filed.remove net.inner.unicast net.inner
    rcases ih (fun other member => ipv4 other (by simp [member]))
      (ids ++ pathIdAt rib.stored net.destination) next with
      ⟨removed, rib', ran, stored, describes⟩
    rw [erased] at stored describes
    refine ⟨pathIdAt rib.stored net.destination ++ removed, rib', ?_, stored,
      .inr ⟨_, _, rfl⟩, ?_, ?_⟩
    · rw [List.foldl_cons, withdrawRoute_eq, ← List.append_assoc, ← ran, ← unicast]
      rfl
    · have first := foldl_drop_pathIdAt filed net.destination
      rw [dest] at first
      rw [← describes.replay]
      simp only [PathTable.replay, List.foldl_append, first]
      rfl
    · rintro family pathIds ⟨⟩ pathId member
      rcases List.mem_append.mp member with here | later
      · have held := held_of_mem_pathIdAt filed here
        rwa [dest] at held
      have held := describes.held _ _ rfl pathId later
      rw [Function.update_apply] at held
      split_ifs at held
      · cases held
      · exact held

end Peer

namespace PathBuilder

theorem asSegments_reads (builder : PathBuilder) (segments : List ASSegment) (as4 : Bool) :
    (builder.asSegments segments as4).family = builder.family ∧
      (builder.asSegments segments as4).nextHop = builder.nextHop ∧
      (builder.asSegments segments as4).nlri = builder.nlri := by
  induction segments generalizing builder with
  | nil => exact ⟨rfl, rfl, rfl⟩
  | cons segment rest ih =>
    have step : (builder.asSegment as4 segment).family = builder.family ∧
        (builder.asSegment as4 segment).nextHop = builder.nextHop ∧
        (builder.asSegment as4 segment).nlri = builder.nlri := by
      unfold asSegment
      split_ifs <;> exact ⟨rfl, rfl, rfl⟩
    rcases ih (builder.asSegment as4 segment) with ⟨family, nextHop, nlri⟩
    exact ⟨family.trans step.1, nextHop.trans step.2.1, nlri.trans step.2.2⟩

variable {builder result : PathBuilder}

theorem attr_reads {attr : Attribute} (ok : builder.attr attr = .ok result) :
    result.family = attr.family?.getD builder.family ∧
      result.nextHop = builder.nextHop ++ attr.nextHops ∧
      result.nlri = builder.nlri ++ attr.networks := by
  unfold PathBuilder.attr at ok
  have kept : ∀ propagated : Bool,
      (if propagated then builder.propagateAttr attr else builder).family = builder.family ∧
      (if propagated then builder.propagateAttr attr else builder).nextHop = builder.nextHop ∧
      (if propagated then builder.propagateAttr attr else builder).nlri = builder.nlri := by
    intro propagated
    cases propagated <;> exact ⟨rfl, rfl, rfl⟩
  rcases kept (attr.isOptional && attr.isTransitive && attr.isRecognized) with
    ⟨family, nextHop, nlri⟩
  generalize (if attr.isOptional && attr.isTransitive && attr.isRecognized then
    builder.propagateAttr attr else builder) = start at ok family nextHop nlri
  rw [← family, ← nextHop, ← nlri]
  cases attr with
  | asPath base segments | as4Path base segments =>
    simp only [Outcome.ok.injEq] at ok
    subst ok
    simpa [Attribute.family?, Attribute.nextHops, Attribute.networks] using
      asSegments_reads start segments _
  | unsupported base data =>
    dsimp only at ok
    split_ifs at ok
    · rcases Outcome.bind_eq_ok.mp ok with ⟨base, _, same⟩
      simp only [Outcome.ok.injEq] at same
      subst same
      simp [Attribute.family?, Attribute.nextHops, Attribute.networks, propagateAttr]
    simp only [Outcome.ok.injEq] at ok
    subst ok
    simp [Attribute.family?, Attribute.nextHops, Attribute.networks, propagateAttr]
  | _ =>
    simp only [Outcome.ok.injEq] at ok
    subst ok
    simp [Attribute.family?, Attribute.nextHops, Attribute.networks]

theorem attrs_reads {attributes : List Attribute} (ok : builder.attrs attributes = .ok result) :
    result.family = (attributes.filterMap Attribute.family?).getLastD builder.family ∧
      result.nextHop = builder.nextHop ++ attributes.flatMap Attribute.nextHops ∧
      result.nlri = builder.nlri ++ attributes.flatMap Attribute.networks := by
  induction attributes generalizing builder with
  | nil =>
    simp only [attrs, Outcome.ok.injEq] at ok
    simp [ok]
  | cons attr rest ih =>
    rcases Outcome.bind_eq_ok.mp ok with ⟨next, nextOk, restOk⟩
    rcases attr_reads nextOk with ⟨family, nextHop, nlri⟩
    rcases ih restOk with ⟨familyRest, nextHopRest, nlriRest⟩
    refine ⟨?_, ?_, ?_⟩
    · rw [familyRest, family]
      cases known : attr.family? with
      | none => rw [List.filterMap_cons_none known, Option.getD_none]
      | some own => rw [List.filterMap_cons_some known, Option.getD_some, List.getLastD_cons]
    · rw [nextHopRest, nextHop, List.flatMap_cons, List.append_assoc]
    · rw [nlriRest, nlri, List.flatMap_cons, List.append_assoc]

end PathBuilder

namespace Update

variable {update : Update} {info : PeerInfo} {builder : PathBuilder}
  {lists : List UInt32 × List UInt32}

theorem read_eq_ok (reads : update.read info = .ok (builder, lists)) :
    (PathBuilder.builder info.routerId info.asn info.neighbor.routerId info.neighbor.addr
      info.neighbor.asn).attrs update.attributes = .ok builder ∧ builder.asLists = .ok lists := by
  rcases Outcome.bind_eq_ok.mp reads with ⟨read, attrs, rest⟩
  rcases Outcome.bind_eq_ok.mp rest with ⟨lists', asLists, same⟩
  rcases same with ⟨rfl, rfl⟩
  exact ⟨attrs, asLists⟩

theorem read_builder (reads : update.read info = .ok (builder, lists)) :
    builder.family = update.family ∧ builder.nextHop = update.nextHops ∧
      (builder.addNlri update.nlri).nlri = update.networks ∧ builder.localAsn = info.asn := by
  rcases read_eq_ok reads with ⟨attrs, _⟩
  rcases PathBuilder.attrs_reads attrs with ⟨family, nextHop, nlri⟩
  refine ⟨family, nextHop, ?_, (PathBuilder.attrs_sameOrigin attrs).localAsn⟩
  rw [PathBuilder.addNlri, nlri]
  rfl

theorem announcedPaths_of_read (hash : PathBuilder → UInt64) (clock : ℕ → ℕ)
    (reads : update.read info = .ok (builder, lists)) :
    Peer.announcedPaths info hash clock update.attributes update.nlri =
      .ok (update.networks.mapIdx fun i net =>
        builder.path (hash (builder.addNlri update.nlri)) lists.1 lists.2 (clock i) net) := by
  rcases read_eq_ok reads with ⟨attrs, asLists⟩
  have sameLists : (builder.addNlri update.nlri).asLists = .ok lists := asLists
  unfold Peer.announcedPaths
  rw [attrs, Outcome.ok_bind, PathBuilder.build_eq, sameLists, Outcome.ok_bind,
    (read_builder reads).2.2.1]
  rfl

theorem announcedPaths_of_unread {hash : PathBuilder → UInt64} {clock : ℕ → ℕ} {paths : List Path}
    (built : Peer.announcedPaths info hash clock update.attributes update.nlri = .ok paths) :
    ∃ builder lists, update.read info = .ok (builder, lists) := by
  rcases Outcome.bind_eq_ok.mp built with ⟨builder, attrs, rest⟩
  rw [PathBuilder.build_eq] at rest
  rcases Outcome.bind_eq_ok.mp rest with ⟨lists, asLists, _⟩
  refine ⟨builder, lists, ?_⟩
  have sameLists : builder.asLists = .ok lists := asLists
  rw [read, attrs, Outcome.ok_bind, sameLists, Outcome.ok_bind]

end Update

namespace Peer

def entries (paths : List Path) : List (Destination × Option Path) :=
  paths.map fun path => ((path.family, path.pfx), some path)

variable {paths : List Path} {peer : Peer}

theorem collect_acceptPath_none (own : ∀ path ∈ paths, path.hasOwnAs = true) (peer : Peer) :
    collect acceptPath paths peer = (.ok [], peer) := by
  induction paths with
  | nil => rfl
  | cons path rest ih =>
    rw [collect_cons (acceptPath_own (own path (by simp)) peer),
      ih fun other member => own other (by simp [member])]
    rfl

theorem collect_acceptPath_all (foreign : ∀ path ∈ paths, path.hasOwnAs = false)
    (registered : ∀ path ∈ paths, peer.adjRibIn.Registered path.family) :
    ∃ rib, collect acceptPath paths peer = (.ok paths, peer.withAdjRib rib) ∧
      rib.stored = overwrite peer.adjRibIn.stored (entries paths) ∧
      ∀ family, rib.Registered family ↔ peer.adjRibIn.Registered family := by
  induction paths generalizing peer with
  | nil => exact ⟨peer.adjRibIn, rfl, rfl, fun _ => Iff.rfl⟩
  | cons path rest ih =>
    have known := registered path (by simp)
    have stored := AdjRib.stored_insert known path.pfx path
    have tables := AdjRib.registered_insert peer.adjRibIn path.family path.pfx path
    rw [collect_cons (acceptPath_stored (foreign path (by simp)) known)]
    generalize (peer.adjRibIn.insert path.family path.pfx path).2 = inserted at stored tables ⊢
    rcases @ih (peer.withAdjRib inserted) (fun other member => foreign other (by simp [member]))
      (fun other member => (tables _).mpr (registered other (by simp [member]))) with
      ⟨rib, others, storedRest, tablesRest⟩
    refine ⟨rib, by rw [others]; rfl, ?_, fun family => (tablesRest family).trans (tables family)⟩
    rw [storedRest]
    exact congrArg (fun table => overwrite table (entries rest)) stored

theorem collect_acceptPath_refused {path : Path} {rest : List Path}
    (foreign : path.hasOwnAs = false) (missing : ¬peer.adjRibIn.Registered path.family) :
    collect acceptPath (path :: rest) peer = (.error (.rib .addressFamilyNotSet), peer) :=
  collect_cons_error (acceptPath_refused foreign missing)

end Peer

variable (hash : PathBuilder → UInt64) (clock : ℕ → ℕ) {peer : Peer} {update : Update}
  {builder : PathBuilder} {lists : List UInt32 × List UInt32}

theorem Update.handle_withdrawn (some : update.withdrawnRoutes ≠ [])
    (ipv4 : ∀ net ∈ update.withdrawnRoutes, net.inner.afi = .ipv4)
    (filed : peer.adjRibIn.WellFiled) :
    ∃ event rib, update.handle hash clock peer = (.ok event, peer.withAdjRib rib) ∧
      rib.stored = overwrite peer.adjRibIn.stored (update.withdrawn.map fun dest => (dest, none)) ∧
      event.Describes peer.info.neighbor.pair peer.adjRibIn.stored rib.stored := by
  rcases Peer.withdrawRoutes_describes peer.info.neighbor.pair _ ipv4 [] filed with
    ⟨removed, rib, ran, stored, describes⟩
  have withdrawn : Peer.withdrawRoutes peer.adjRibIn update.withdrawnRoutes =
      (.ipv4Unicast, removed, rib) := ran
  refine ⟨_, rib, ?_, stored, describes⟩
  rw [Update.handle, Peer.handleUpdateMsg_withdrawn some, withdrawn]

theorem Update.handle_of_read (only : update.withdrawnRoutes = [])
    (reads : update.read peer.info = .ok (builder, lists)) :
    update.handle hash clock peer =
      (do
        let accepted ← collect Peer.acceptPath (update.networks.mapIdx fun i net =>
          builder.path (hash (builder.addNlri update.nlri)) lists.1 lists.2 (clock i) net)
        pure (.installPaths peer.info.neighbor.pair accepted) : PeerM RibEvent) peer := by
  rw [Update.handle, only]
  exact Peer.handleUpdateMsg_announced (announcedPaths_of_read hash clock reads)

theorem Update.mem_built (reads : update.read peer.info = .ok (builder, lists)) {path : Path}
    (member : path ∈ update.networks.mapIdx fun i net =>
      builder.path (hash (builder.addNlri update.nlri)) lists.1 lists.2 (clock i) net) :
    path.family = update.family ∧ path.hasOwnAs = peer.info.sees lists ∧
      path.content = builder.route lists (path.family, path.pfx) update.nextHops := by
  rcases read_builder reads with ⟨family, nextHop, _, asn⟩
  rcases List.mem_mapIdx.mp member with ⟨index, bound, rfl⟩
  refine ⟨family, ?_, ?_⟩
  · rw [PeerInfo.sees, ← asn]
    rfl
  · rw [← nextHop]
    rfl

theorem Update.stored_built (reads : update.read peer.info = .ok (builder, lists))
    (table : PathTable) (dest : Destination) :
    (overwrite table (Peer.entries (update.networks.mapIdx fun i net =>
      builder.path (hash (builder.addNlri update.nlri)) lists.1 lists.2 (clock i) net))
        dest).map Path.content =
      if dest ∈ update.targets then some (builder.route lists dest update.nextHops)
      else (table dest).map Path.content := by
  generalize built : update.networks.mapIdx (fun i net =>
    builder.path (hash (builder.addNlri update.nlri)) lists.1 lists.2 (clock i) net) = paths
  have keys : (Peer.entries paths).map Prod.fst = update.targets := by
    rw [← built, Peer.entries, List.map_map, Update.targets, ← (read_builder reads).1]
    apply List.ext_getElem
    · simp
    · intro index _ _
      simp [PathBuilder.path]
  rw [overwrite_apply, ← keys]
  cases last : lastWrite (Peer.entries paths) dest with
  | none => rw [if_neg (lastWrite_eq_none_iff.mp last), Option.getD_none]
  | some written =>
    have member := mem_of_lastWrite last
    rw [if_pos (List.mem_map_of_mem member), Option.getD_some]
    rcases List.mem_map.mp member with ⟨path, pathMem, same⟩
    rcases same with ⟨rfl, rfl⟩
    rw [← built] at pathMem
    rw [Option.map_some, (mem_built hash clock reads pathMem).2.2]

def Update.meant (update : Update) (peer : Peer) (builder : PathBuilder)
    (lists : List UInt32 × List UInt32) (dest : Destination) : Option Path :=
  match update.hopsAt dest with
  | some hops => if peer.info.sees lists then none else some (builder.route lists dest hops)
  | none =>
    if dest ∈ update.withdrawn ++ update.unreachable then none
    else (peer.adjRibIn.stored dest).map Path.content

theorem Update.hopsAt_of_not_announced (silent : update.announced = []) (dest : Destination) :
    update.hopsAt dest = none := by
  rw [hopsAt, silent, lastWrite]

theorem Update.meant_eq {writes : List (Destination × Option Path)}
    (due : update.due peer.info = .ok writes)
    (reads : update.announced ≠ [] → update.read peer.info = .ok (builder, lists))
    (dest : Destination) : (overwrite peer.adjRibIn.stored
      (((update.withdrawn ++ update.unreachable).map fun dest => (dest, none)) ++ writes)
        dest).map Path.content = update.meant peer builder lists dest := by
  rw [overwrite_apply, lastWrite_append, lastWrite_const, meant]
  unfold Update.due at due
  split_ifs at due with silent
  · simp only [Outcome.ok.injEq] at due
    subst due
    rw [hopsAt_of_not_announced silent]
    split_ifs <;> rfl
  rw [reads silent, Outcome.ok_bind, Outcome.ok.injEq] at due
  subst due
  rw [lastWrite_map update.announced fun dest hops =>
    if peer.info.sees lists then none else some (builder.route lists dest hops), hopsAt]
  cases lastWrite update.announced dest with
  | none | some hops =>
    split_ifs <;> rfl

end Sart
