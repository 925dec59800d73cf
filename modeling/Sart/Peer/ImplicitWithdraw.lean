import Sart.Peer.Session
import Sart.Rib.SplitHorizon

/-!
# Implicit withdrawal

A new announcement replaces the old one, and a withdrawal or the end of the session
takes it back (`Routes.heard`).  The Adj-RIB-In and the Loc-RIB should both have these
routes of the neighbour after every message.

They do not in general: `LocRib.insert` never replaces a path, and a message with
withdrawn routes loses its announcements and drops all of these routes under the family
of the last one.
-/

namespace Sart

open Sart.Lib Sart.Lib.Effect

/-- The routes a neighbour has announced and not taken back, without marks and time stamps. -/
abbrev Routes := IpNet → Option Path

namespace Routes

def announce (routes : Routes) (path : Path) : Routes :=
  Function.update routes path.pfx (some path.unmarked)

def withdraw (routes : Routes) (pfx : IpNet) : Routes := Function.update routes pfx none

def withdrawals (withdrawnRoutes : List Prefix) (attributes : List Attribute) : List IpNet :=
  withdrawnRoutes.map Prefix.inner ++ (attributes.flatMap Attribute.unreachable).map Prod.snd

/-- The announced paths that are of a family of the session and do not lead through the own
AS. -/
def announcements (info : PeerInfo) (hash : PathBuilder → UInt64) (clock : ℕ → ℕ)
    (attributes : List Attribute) (nlri : List Prefix) : List Path :=
  match Peer.announcedPaths info hash clock attributes nlri with
  | .ok paths => paths.filter fun path => !path.hasOwnAs && decide (path.family ∈ info.families)
  | _ => []

def heard (info : PeerInfo) (hash : PathBuilder → UInt64) (routes : Routes) :
    SessionStep → Routes
  | .update withdrawnRoutes attributes nlri =>
    (announcements info hash (fun _ => 0) attributes nlri).foldl announce
      ((withdrawals withdrawnRoutes attributes).foldl withdraw routes)
  | .release => fun _ => none

end Routes

def learned (neighbor : NeighborPair) (paths : List Path) : List Path :=
  (paths.map Path.unmarked).filter fun path => path.LearnedFrom neighbor

@[simp]
theorem Path.unmarked_learnedFrom (path : Path) (neighbor : NeighborPair) :
    path.unmarked.LearnedFrom neighbor ↔ path.LearnedFrom neighbor := Iff.rfl

variable {held path : Path} {pfx : IpNet} {source : NeighborPair} {pathIds : List (IpNet × UInt64)}
  {neighbor : NeighborPair} {family : AddressFamily}

theorem exists_of_learned {paths : List Path} (own : learned neighbor paths = [held]) :
    ∃ stored ∈ paths, stored.unmarked = held := by
  have member : held ∈ learned neighbor paths := by simp [own]
  exact List.mem_map.mp (List.mem_of_mem_filter member)

theorem learned_remove {before after : List Path} {removed : Path}
    (own : learned neighbor (before ++ removed :: after) = [held])
    (source : removed.LearnedFrom neighbor) : learned neighbor (before ++ after) = [] := by
  unfold learned at own ⊢
  rw [List.map_append, List.map_cons, List.filter_append,
    List.filter_cons_of_pos (by simpa using source)] at own
  rw [List.map_append, List.filter_append]
  have size := congrArg List.length own
  simp only [List.length_append, List.length_cons, List.length_nil] at size
  refine List.eq_nil_of_length_eq_zero ?_
  rw [List.length_append]
  omega

/-- The paths of the neighbour in the Loc-RIB are its routes.  No other path has the identifier
of one of them, and with a FIB endpoint every path has a next hop. -/
structure Follows (neighbor : NeighborPair) (routes : Routes) (rib : RibManager) : Prop where
  own : ∀ afi pfx, learned neighbor (rib.locRib.paths afi pfx) =
    if afi = pfx.afi then (routes pfx).toList else []
  ids : ∀ pfx, ∀ path ∈ routes pfx, ∀ stored ∈ rib.locRib.paths pfx.afi pfx,
    stored.id = path.id → stored.LearnedFrom neighbor
  routed : rib.endpoint = true → ∀ afi pfx, ∀ stored ∈ rib.locRib.paths afi pfx,
    stored.nextHops ≠ []

/-- An announced path can be stored next to the paths of others: its family has a table, a list that
is not empty has a best path, no path of the neighbour and no identifier is in the way, and with a
FIB endpoint it has a next hop. -/
@[mk_iff]
structure Insertable (family : AddressFamily) (neighbor : NeighborPair) (endpoint : Bool)
    (locRib : LocRib) (path : Path) : Prop where
  unicast : family = path.pfx.unicast
  registered : locRib.Registered family.afi
  marked : locRib.paths family.afi path.pfx = [] ∨
    ∃ stored ∈ locRib.paths family.afi path.pfx, stored.best = true
  none : learned neighbor (locRib.paths family.afi path.pfx) = []
  fresh : ∀ stored ∈ locRib.paths family.afi path.pfx, stored.id ≠ path.id
  routed : endpoint = true → path.nextHops ≠ []

theorem Insertable.sameFamily {endpoint : Bool} {locRib : LocRib}
    (condition : Insertable family neighbor endpoint locRib path) :
    path.pfx.afi = family.afi := by
  rw [condition.unicast, IpNet.afi_unicast]

namespace Follows

variable {routes : Routes} {rib : RibManager}

theorem insert_returns {endpoint : Bool}
    (condition : Insertable family neighbor endpoint rib.locRib path) :
    ∃ status, (rib.locRib.insert family path).1 = .ok status :=
  LocRib.insert_returns condition.registered condition.marked

theorem insert (follows : Follows neighbor routes rib) (source : path.LearnedFrom neighbor)
    (condition : Insertable family neighbor rib.endpoint rib.locRib path) :
    Follows neighbor (routes.announce path)
      { rib with locRib := (rib.locRib.insert family path).2 } := by
  rcases insert_returns condition with ⟨status, returned⟩
  rcases LocRib.insert_ok returned with ⟨list, inserted, updated⟩
  refine ⟨?_, ?_, ?_⟩
  · intro afi pfx
    rw [updated]
    by_cases here : afi = family.afi ∧ pfx = path.pfx
    · rcases here with ⟨rfl, rfl⟩
      have own : (learned neighbor list).Perm [path.unmarked] := by
        have sorted := inserted.perm.filter fun path => decide (path.LearnedFrom neighbor)
        have none := condition.none
        unfold learned at none
        rw [List.filter_cons_of_pos (by simpa using source), none] at sorted
        exact sorted
      rw [if_pos ⟨rfl, rfl⟩, List.perm_singleton.mp own, if_pos condition.sameFamily.symm]
      simp [Routes.announce]
    rw [if_neg here, follows.own]
    by_cases other : pfx = path.pfx
    · have otherFamily : afi ≠ pfx.afi := by
        rintro rfl
        exact here ⟨by rw [other, condition.sameFamily], other⟩
      simp [otherFamily]
    · simp [Routes.announce, Function.update_of_ne other]
  · intro pfx held isHeld stored storedMem sameId
    by_cases here : pfx = path.pfx
    · subst here
      simp only [Routes.announce, Function.update_self, Option.mem_some_iff] at isHeld
      subst isHeld
      rcases LocRib.mem_insert storedMem with ⟨_, _, same⟩ | ⟨old, oldMem, same⟩
      · exact ((Path.sameSource_of_unmarked same).learnedFrom_iff neighbor).mpr source
      · rw [condition.sameFamily] at oldMem
        exact absurd ((Path.id_of_unmarked same).symm.trans sameId) (condition.fresh old oldMem)
    simp only [Routes.announce, Function.update_of_ne here] at isHeld
    rcases LocRib.mem_insert storedMem with ⟨_, same, _⟩ | ⟨old, oldMem, same⟩
    · exact absurd same here
    · rw [(Path.sameSource_of_unmarked same).learnedFrom_iff]
      exact follows.ids pfx held isHeld old oldMem ((Path.id_of_unmarked same).symm.trans sameId)
  · exact fun endpoint => LocRib.forall_mem_insert (fun _ _ path => path.nextHops ≠ [])
      (follows.routed endpoint) (condition.routed endpoint)

theorem drop (follows : Follows neighbor routes rib) (isHeld : routes pfx = some held)
    (sameFamily : pfx.afi = family.afi) :
    (∃ status, (rib.locRib.drop family pfx held.id).1 = .ok status) ∧
      Follows neighbor (routes.withdraw pfx)
        { rib with locRib := (rib.locRib.drop family pfx held.id).2 } := by
  have own := follows.own family.afi pfx
  rw [if_pos sameFamily.symm, isHeld, Option.toList_some] at own
  have ids := follows.ids pfx held (by simp [isHeld])
  rw [sameFamily] at ids
  rcases exists_of_learned own with ⟨stored, storedMem, sameStored⟩
  have result : ∃ status, (rib.locRib.drop family pfx held.id).1 = .ok status := by
    have returns := LocRib.drop_returns storedMem
    rwa [show stored.id = held.id by rw [← sameStored]; rfl] at returns
  refine ⟨result, ?_⟩
  rcases result with ⟨status, returned⟩
  rcases LocRib.drop_ok returned with
    ⟨before, removed, after, list, split, shape, dropped, updated⟩
  have source := ids removed (by simp [shape]) (splitById_eq_some split).2.1
  rw [shape] at own
  refine ⟨?_, ?_, ?_⟩
  · intro afi other
    rw [updated]
    by_cases here : afi = family.afi ∧ other = pfx
    · rcases here with ⟨rfl, rfl⟩
      have none : learned neighbor list = [] := by
        rw [← learned_remove own source]
        unfold learned
        rw [dropped.map_unmarked]
      simp [none, Routes.withdraw]
    rw [if_neg here, follows.own]
    by_cases same : other = pfx
    · have otherFamily : afi ≠ other.afi := by
        rintro rfl
        exact here ⟨by rw [same, sameFamily], same⟩
      simp [otherFamily]
    · simp [Routes.withdraw, Function.update_of_ne same]
  · intro other path isPath kept keptMem sameId
    have different : other ≠ pfx := by
      rintro rfl
      simp [Routes.withdraw] at isPath
    simp only [Routes.withdraw, Function.update_of_ne different] at isPath
    rcases LocRib.mem_drop keptMem with ⟨old, oldMem, same⟩
    rw [(Path.sameSource_of_unmarked same).learnedFrom_iff]
    exact follows.ids other path isPath old oldMem ((Path.id_of_unmarked same).symm.trans sameId)
  · exact fun endpoint => LocRib.forall_mem_drop (fun _ _ path => path.nextHops ≠ [])
      (follows.routed endpoint)

end Follows

namespace RibManager

open RibM

variable {env : Env} {abort : Option Error → RibState → Prop}

structure Announcing (neighbor : NeighborPair) (target : Routes) (family : AddressFamily)
    (paths : List Path) (rib : RibManager) : Prop where
  follows : ∃ routes, Follows neighbor routes rib ∧ paths.foldl Routes.announce routes = target
  source : ∀ path ∈ paths, path.LearnedFrom neighbor
  insertable : AllSteps (fun locRib path => (locRib.insert family path).2)
    (Insertable family neighbor rib.endpoint) rib.locRib paths

variable {target : Routes} {rest : List Path} {rib : RibManager} {pathId : IpNet × UInt64}

theorem Announcing.insert (announcing : Announcing neighbor target family (path :: rest) rib) :
    Announcing neighbor target family rest
      { rib with locRib := (rib.locRib.insert family path).2 } := by
  rcases announcing.follows with ⟨routes, follows, reaches⟩
  refine ⟨⟨routes.announce path, ?_, reaches⟩, ?_, announcing.insertable.2⟩
  · exact follows.insert (announcing.source path (by simp)) announcing.insertable.1
  · exact fun other member => announcing.source other (by simp [member])

theorem installPath_installs (served : env.ServesFib) :
    Spec (fun state => Announcing neighbor target family (path :: rest) state.rib)
      (installPath env family true path)
      (fun _ state => Announcing neighbor target family rest state.rib) abort := by
  refine (installPath_spec (fun _ state => Announcing neighbor target family rest state.rib ∧
    (state.rib.endpoint = true → path.nextHops ≠ [])) ?_ ?_ ?_ ?_).implies ?_
  · exact fun _ _ _ holds => holds
  · exact fun state _ announcing _ => ⟨announcing.insert, announcing.insertable.1.routed⟩
  · intro state cause announcing failed
    rcases Follows.insert_returns announcing.insertable.1 with ⟨status, returned⟩
    rw [failed] at returned
    cases returned
  · exact fun _ _ _ holds _ trouble => absurd trouble
      (not_fibTrouble served fun endpoint => by simpa using holds.2 endpoint)
  · exact fun _ _ ⟨_, holds, _⟩ => holds.1

theorem installPaths_follows (served : env.ServesFib) {first : Path} :
    Spec (fun state => Announcing neighbor target first.family (first :: rest) state.rib)
      (installPaths env source (first :: rest) true)
      (fun _ state => Follows neighbor target state.rib)
      (fun _ state => Follows neighbor target state.rib) := by
  refine ((Spec.collect (fun todo _ (state : RibState) =>
    Announcing neighbor target first.family todo state.rib)
    (fun _ _ _ => installPath_installs served) (first :: rest) []).implies ?_).bind
    fun changed => advertise_rib (Follows neighbor target)
  intro _ state announcing
  rcases announcing.follows with ⟨routes, follows, rfl⟩
  exact follows

def Held (family : AddressFamily) (routes : Routes) (pathId : IpNet × UInt64) : Prop :=
  pathId.1.afi = family.afi ∧ (routes pathId.1).map Path.id = some pathId.2
  deriving Decidable

def Withdrawing (neighbor : NeighborPair) (target : Routes) (family : AddressFamily)
    (pathIds : List (IpNet × UInt64)) (rib : RibManager) : Prop :=
  ∃ routes, Follows neighbor routes rib ∧
    pathIds.foldl (fun routes pathId => routes.withdraw pathId.1) routes = target ∧
    AllSteps (fun routes pathId => routes.withdraw pathId.1) (Held family) routes pathIds

theorem Withdrawing.drop {rest : List (IpNet × UInt64)}
    (withdrawing : Withdrawing neighbor target family (pathId :: rest) rib) :
    (∃ status, (rib.locRib.drop family pathId.1 pathId.2).1 = .ok status) ∧
      Withdrawing neighbor target family rest
        { rib with locRib := (rib.locRib.drop family pathId.1 pathId.2).2 } := by
  rcases withdrawing with ⟨routes, follows, reaches, ⟨sameFamily, held⟩, later⟩
  rcases Option.map_eq_some_iff.mp held with ⟨path, isHeld, sameId⟩
  rw [← sameId]
  rcases follows.drop isHeld sameFamily with ⟨result, follows'⟩
  exact ⟨result, routes.withdraw pathId.1, follows', reaches, later⟩

theorem dropPath_drops (served : env.ServesFib) {rest : List (IpNet × UInt64)} :
    Spec (fun state => Withdrawing neighbor target family (pathId :: rest) state.rib)
      (dropPath env family true pathId)
      (fun _ state => Withdrawing neighbor target family rest state.rib) abort := by
  refine (dropPath_spec (fun _ state => Withdrawing neighbor target family rest state.rib)
    ?_ ?_ ?_ ?_).implies ?_
  · exact fun _ _ _ holds => holds
  · exact fun state _ withdrawing _ => withdrawing.drop.2
  · intro state cause withdrawing failed
    rcases withdrawing.drop.1 with ⟨status, returned⟩
    rw [failed] at returned
    cases returned
  · exact fun _ _ _ ⟨_, follows, _⟩ _ trouble => absurd trouble
      (not_fibTrouble served fun endpoint => follows.routed endpoint _ _)
  · exact fun _ _ ⟨_, holds, _⟩ => holds

theorem dropPaths_follows (served : env.ServesFib) :
    Spec (fun state => Withdrawing neighbor target family pathIds state.rib)
      (dropPaths env source family pathIds true)
      (fun _ state => Follows neighbor target state.rib)
      (fun _ state => Follows neighbor target state.rib) := by
  refine ((Spec.collect (fun todo _ (state : RibState) =>
    Withdrawing neighbor target family todo state.rib)
    (fun _ _ _ => dropPath_drops served) pathIds []).implies ?_).bind
      fun notices => (withdraw_rib (Follows neighbor target)).bind fun _ =>
        advertise_rib (Follows neighbor target)
  rintro _ state ⟨routes, follows, rfl, _⟩
  exact follows

end RibManager

structure AdjRib.Holds (adj : AdjRib) (families : List AddressFamily) (routes : Routes) :
    Prop where
  routes : ∀ family pfx, (adj.get family pfx).map Path.unmarked =
    if family = pfx.unicast then routes pfx else none
  nets : adj.WellFiled
  registered : ∀ family, adj.Registered family ↔ family ∈ families

namespace AdjRib.Holds

variable {adj : AdjRib} {families : List AddressFamily} {routes : Routes}

theorem new (families : List AddressFamily) :
    (AdjRib.new families).Holds families fun _ => none where
  routes family pfx := by simp [get_new]
  nets family pfx path found := by simp [get_new] at found
  registered := registered_new families

section

variable (holds : adj.Holds families routes)

include holds

theorem clear : adj.clear.Holds families fun _ => none where
  routes family pfx := by simp [get_clear]
  nets family pfx path found := by simp [get_clear] at found
  registered family := by rw [registered_clear, holds.registered]

theorem insert (unicast : path.family = path.pfx.unicast) (member : path.family ∈ families) :
    (adj.insert path.family path.pfx path).2.Holds families (routes.announce path) := by
  have registered := (holds.registered path.family).mpr member
  refine ⟨?_, ?_, ?_⟩
  · intro family pfx
    rw [get_insert registered]
    by_cases here : family = path.family ∧ pfx = path.pfx
    · rcases here with ⟨rfl, rfl⟩
      rw [if_pos ⟨rfl, rfl⟩, if_pos unicast]
      simp [Routes.announce]
    rw [if_neg here, holds.routes]
    by_cases own : family = pfx.unicast
    · have other : pfx ≠ path.pfx := by
        rintro rfl
        exact here ⟨own.trans unicast.symm, rfl⟩
      rw [if_pos own, if_pos own, Routes.announce, Function.update_of_ne other]
    · rw [if_neg own, if_neg own]
  · intro family pfx stored found
    rw [get_insert registered] at found
    split_ifs at found with here
    · simp only [Option.some.injEq] at found
      rw [← found, here.2]
    · exact holds.nets family pfx stored found
  · exact fun family => (registered_insert ..).trans (holds.registered family)

theorem remove (pfx : IpNet) :
    (adj.remove pfx.unicast pfx).2.Holds families (routes.withdraw pfx) := by
  refine ⟨?_, ?_, ?_⟩
  · intro family other
    rw [get_remove]
    by_cases same : other = pfx
    · subst same
      by_cases own : family = other.unicast
      · simp [own, Routes.withdraw]
      · simp [own, holds.routes]
    · simp [same, holds.routes, Routes.withdraw]
  · intro family other stored found
    rw [get_remove] at found
    split_ifs at found
    exact holds.nets family other stored found
  · exact fun family => (registered_remove ..).trans (holds.registered family)

theorem held_of_get {family : AddressFamily} (found : adj.get family pfx = some path) :
    family = pfx.unicast ∧ routes pfx = some path.unmarked := by
  have stored := holds.routes family pfx
  rw [found, Option.map_some] at stored
  by_cases own : family = pfx.unicast
  · rw [if_pos own] at stored
    exact ⟨own, stored.symm⟩
  · rw [if_neg own] at stored
    cases stored

theorem not_held (missing : adj.get pfx.unicast pfx = none) :
    routes pfx = none := by
  have stored := holds.routes pfx.unicast pfx
  rw [missing, if_pos rfl] at stored
  exact stored.symm

end

end AdjRib.Holds

namespace Peer

open RibManager

variable {families : List AddressFamily} {routes : Routes} {paths : List Path} {peer : Peer}

theorem withdrawRoutes_holds {family : AddressFamily} (withdrawn : List Prefix)
    (start : AddressFamily) (ids : List (IpNet × UInt64)) {adj : AdjRib}
    (holds : adj.Holds families routes)
    (sameFamily : ∀ net ∈ withdrawn, routes net.inner ≠ none → net.inner.afi = family.afi) :
    ∃ last removed adj',
      withdrawn.foldl withdrawRoute (start, ids, adj) = (last, ids ++ removed, adj') ∧
      adj'.Holds families ((withdrawn.map Prefix.inner).foldl Routes.withdraw routes) ∧
      removed.foldl (fun routes pathId => routes.withdraw pathId.1) routes =
        (withdrawn.map Prefix.inner).foldl Routes.withdraw routes ∧
      AllSteps (fun routes pathId => routes.withdraw pathId.1) (Held family) routes removed := by
  induction withdrawn generalizing routes start ids adj with
  | nil => exact ⟨start, [], adj, by simp, holds, rfl, trivial⟩
  | cons net rest ih =>
    have next := holds.remove net.inner
    have later : ∀ other ∈ rest, routes.withdraw net.inner other.inner ≠ none →
        other.inner.afi = family.afi := by
      intro other member isHeld
      refine sameFamily other (by simp [member]) fun missing => isHeld ?_
      simp [Routes.withdraw, Function.update_apply, missing]
    rw [List.foldl_cons, withdrawRoute_eq]
    cases found : adj.get net.inner.unicast net.inner with
    | none =>
      have none : routes.withdraw net.inner = routes := by
        rw [Routes.withdraw, ← holds.not_held found, Function.update_eq_self]
      simpa [none] using ih net.inner.unicast ids next later
    | some path =>
      rcases holds.held_of_get found with ⟨_, isHeld⟩
      have own := holds.nets _ _ _ found
      rcases ih net.inner.unicast (ids ++ [(path.pfx, path.id)]) next later with
        ⟨last, removed, adj', ran, holds', reaches, steps⟩
      refine ⟨last, (path.pfx, path.id) :: removed, adj', ?_, holds', ?_, ⟨?_, ?_⟩, ?_⟩
      · rw [List.append_assoc] at ran
        exact ran
      · rw [List.foldl_cons, own]
        exact reaches
      · rw [own]
        exact sameFamily net (by simp) (by simp [isHeld])
      · rw [own, isHeld]
        rfl
      · rw [own]
        exact steps

theorem announcedPaths_source {info : PeerInfo} {hash : PathBuilder → UInt64} {clock : ℕ → ℕ}
    {attributes : List Attribute} {nlri : List Prefix}
    (ok : announcedPaths info hash clock attributes nlri = .ok paths) :
    (∃ family, ∀ path ∈ paths, path.family = family) ∧
      ∀ path ∈ paths, path.LearnedFrom info.neighbor.pair := by
  rcases Outcome.bind_eq_ok.mp ok with ⟨builder, attrsOk, buildOk⟩
  have origin := PathBuilder.attrs_sameOrigin attrsOk
  refine ⟨⟨builder.family, ?_⟩, ?_⟩
  · intro path member
    rcases PathBuilder.mem_of_build_eq_ok buildOk member with ⟨_, _, _, _, _, rfl⟩
    rfl
  intro path member
  rcases PathBuilder.mem_of_build_eq_ok buildOk member with ⟨_, _, _, _, _, rfl⟩
  exact ⟨origin.peerAddr, origin.peerAsn⟩

theorem collect_acceptPath (holds : peer.adjRibIn.Holds families routes)
    (known : ∀ path ∈ paths, path.family ∈ families)
    (unicast : ∀ path ∈ paths, path.hasOwnAs = false → path.family = path.pfx.unicast) :
    ∃ adj, collect acceptPath paths peer =
        (.ok (paths.filter fun path => !path.hasOwnAs), peer.withAdjRib adj) ∧
      adj.Holds families ((paths.filter fun path => !path.hasOwnAs).foldl Routes.announce
        routes) := by
  induction paths generalizing peer routes with
  | nil => exact ⟨peer.adjRibIn, rfl, holds⟩
  | cons path rest ih =>
    have restKnown := fun other member => known other (List.mem_cons_of_mem path member)
    have restUnicast := fun other member => unicast other (List.mem_cons_of_mem path member)
    cases own : path.hasOwnAs with
    | true =>
      rcases ih holds restKnown restUnicast with ⟨adj, ran, holds'⟩
      rw [collect_cons (acceptPath_own own peer), ran]
      exact ⟨adj, by simp [own], by simpa [own] using holds'⟩
    | false =>
      have member := known path (by simp)
      have stores := holds.insert (unicast path (by simp) own) member
      rw [collect_cons (acceptPath_stored own ((holds.registered path.family).mpr member))]
      rcases @ih _ (peer.withAdjRib _) stores restKnown restUnicast with
        ⟨adj, ran, holds'⟩
      rw [ran]
      exact ⟨adj, by simp [own, withAdjRib], by simpa [own] using holds'⟩

theorem collect_acceptPath_unknown (holds : peer.adjRibIn.Holds families routes)
    (unknown : ∀ path ∈ paths, path.family ∉ families) :
    (∃ cause, collect acceptPath paths peer = (.error cause, peer)) ∨
      collect acceptPath paths peer = (.ok [], peer) := by
  induction paths with
  | nil => exact .inr rfl
  | cons path rest ih =>
    cases own : path.hasOwnAs with
    | true =>
      rw [collect_cons (acceptPath_own own peer)]
      rcases ih fun other member => unknown other (List.mem_cons_of_mem path member) with
        ⟨cause, ran⟩ | ran
      · exact .inl ⟨cause, by rw [ran]⟩
      · exact .inr (by rw [ran]; rfl)
    | false =>
      refine .inl ⟨_, collect_cons_error (acceptPath_refused own fun registered => ?_)⟩
      exact unknown path (by simp) ((holds.registered path.family).mp registered)

end Peer

theorem RibManager.Held.allSteps {routes : Routes} (different : (pathIds.map Prod.fst).Nodup)
    (held : ∀ pathId ∈ pathIds, RibManager.Held family routes pathId) :
    AllSteps (fun routes pathId => routes.withdraw pathId.1) (RibManager.Held family) routes
      pathIds := by
  induction pathIds generalizing routes with
  | nil => trivial
  | cons first rest ih =>
    rw [List.map_cons, List.nodup_cons] at different
    refine ⟨held first (by simp), ih different.2 fun pathId member => ?_⟩
    have other : pathId.1 ≠ first.1 := fun same =>
      different.1 (same ▸ List.mem_map_of_mem member)
    rcases held pathId (by simp [member]) with ⟨sameFamily, isHeld⟩
    refine ⟨sameFamily, ?_⟩
    change (routes.withdraw first.1 pathId.1).map Path.id = some pathId.2
    rw [Routes.withdraw, Function.update_of_ne other, isHeld]

theorem Routes.foldl_withdraw (nets : List IpNet) (routes : Routes) (pfx : IpNet) :
    nets.foldl withdraw routes pfx = if pfx ∈ nets then none else routes pfx := by
  induction nets generalizing routes with
  | nil => simp
  | cons first rest ih =>
    rw [List.foldl_cons, ih]
    by_cases here : pfx = first
    all_goals simp [here, withdraw]

def Routes.without (routes : Routes) (families : List AddressFamily) : Routes := fun pfx =>
  if pfx.unicast ∈ families then none else routes pfx

namespace AdjRib.Holds

variable {adj : AdjRib} {registered : List AddressFamily} {routes : Routes}
  {done : List AddressFamily}

theorem without_of_empty (holds : adj.Holds registered routes) (empty : adj.getAll family = none) :
    routes.without (done ++ [family]) = routes.without done := by
  funext pfx
  by_cases here : pfx.unicast = family
  · subst here
    have missing := holds.not_held (AdjRib.get_of_getAll_eq_none empty pfx)
    simp [Routes.without, missing]
  · simp [Routes.without, here]

variable {paths : List Path}

theorem foldl_withdraw_all (holds : adj.Holds registered routes)
    (all : adj.getAll family = some paths) :
    (paths.map Path.pfx).foldl Routes.withdraw (routes.without done) =
      routes.without (done ++ [family]) := by
  rcases AdjRib.getAll_eq_some all (holds.nets family) with ⟨_, stored⟩
  funext pfx
  rw [Routes.foldl_withdraw]
  split_ifs with member
  · rcases List.mem_map.mp member with ⟨path, pathMem, rfl⟩
    rcases holds.held_of_get ((stored path).mp pathMem) with ⟨rfl, _⟩
    simp [Routes.without]
  by_cases here : pfx.unicast = family
  · subst here
    have missing : adj.get pfx.unicast pfx = none := by
      by_contra found
      rcases Option.ne_none_iff_exists'.mp found with ⟨path, found⟩
      have own := holds.nets _ _ _ found
      subst own
      exact member (List.mem_map_of_mem ((stored path).mpr found))
    simp [Routes.without, holds.not_held missing]
  · simp [Routes.without, here]

theorem withdrawing (holds : adj.Holds registered routes) (fresh : family ∉ done)
    (all : adj.getAll family = some paths) {neighbor : NeighborPair} {rib : RibManager}
    (follows : Follows neighbor (routes.without done) rib) :
    RibManager.Withdrawing neighbor (routes.without (done ++ [family])) family
      (paths.map fun path => (path.pfx, path.id)) rib := by
  rcases AdjRib.getAll_eq_some all (holds.nets family) with ⟨nets, stored⟩
  refine ⟨routes.without done, follows, ?_, ?_⟩
  · rw [← holds.foldl_withdraw_all all, List.foldl_map, List.foldl_map]
  refine RibManager.Held.allSteps ?_ ?_
  · rw [List.map_map]
    exact nets
  intro pathId member
  rcases List.mem_map.mp member with ⟨path, pathMem, rfl⟩
  rcases holds.held_of_get ((stored path).mp pathMem) with ⟨rfl, isHeld⟩
  refine ⟨(IpNet.afi_unicast _).symm, ?_⟩
  simp only [Routes.without, if_neg fresh, isHeld]
  rfl

end AdjRib.Holds

theorem Peer.releaseEvents_follow {env : Env} (served : env.ServesFib) {adj : AdjRib}
    {registered : List AddressFamily} {routes : Routes} (holds : adj.Holds registered routes)
    (source : NeighborPair) {families : List AddressFamily} {done : List AddressFamily}
    {state : RibState} (different : (done ++ families).Nodup)
    (follows : Follows neighbor (routes.without done) state.rib) :
    Follows neighbor (routes.without (done ++ families))
      (state.run env (families.filterMap fun family => (adj.getAll family).map fun paths =>
        .dropPaths source family (paths.map fun path => (path.pfx, path.id)))).rib := by
  induction families generalizing done state with
  | nil => simpa [RibState.run] using follows
  | cons family rest ih =>
    rw [List.append_cons] at different ⊢
    have fresh : family ∉ done := by
      have front := different.of_append_left
      rw [List.nodup_append] at front
      exact fun member => front.2.2 family member family (by simp) rfl
    cases all : adj.getAll family with
    | none =>
      rw [List.filterMap_cons_none (by rw [all]; rfl)]
      refine ih different ?_
      rw [holds.without_of_empty all]
      exact follows
    | some paths =>
      rw [List.filterMap_cons_some (by rw [all]; rfl)]
      refine ih different ?_
      exact (RibManager.dropPaths_follows served).final (holds.withdrawing fresh all follows)

def Peer.routes (peer : Peer) : Routes := fun pfx =>
  (peer.adjRibIn.get pfx.unicast pfx).map Path.unmarked

/-- The announcements of a message can be stored one after the other; the withdrawn routes that are
held belong to the family of the last withdrawn route. -/
def KeepsRoutes (env : Env) (session : Session) : SessionStep → Prop
  | .update [] attributes nlri =>
    let accepted := Routes.announcements session.peer.info env.hash
      (env.clock session.rib.sent) attributes nlri
    ∀ first ∈ accepted.head?, AllSteps (fun locRib path => (locRib.insert first.family path).2)
      (Insertable first.family session.peer.info.neighbor.pair session.rib.rib.endpoint)
      session.rib.rib.locRib accepted
  | .update withdrawn _ _ => ∀ net ∈ withdrawn, session.peer.routes net.inner ≠ none →
      ∀ last ∈ withdrawn.getLast?, net.inner.afi = last.inner.afi
  | .release => True

/-- A message says nothing that is ignored: withdrawn routes stand alone, and the networks of an
`MP_UNREACH_NLRI` attribute are also withdrawn routes or not held. -/
def SaysAllHeard (env : Env) (session : Session) : SessionStep → Prop
  | .update withdrawn attributes nlri =>
    (withdrawn ≠ [] → Routes.announcements session.peer.info env.hash
      (env.clock session.rib.sent) attributes nlri = []) ∧
    ∀ net ∈ (attributes.flatMap Attribute.unreachable).map Prod.snd,
      net ∈ withdrawn.map Prefix.inner ∨ session.peer.routes net = none
  | .release => True

namespace Session

structure Sound (info : PeerInfo) (routes : Routes) (session : Session) : Prop where
  sameInfo : session.peer.info = info
  holds : session.peer.adjRibIn.Holds info.families routes
  follows : Follows info.neighbor.pair routes session.rib.rib

variable {env : Env} {info : PeerInfo} {routes : Routes} {session : Session}

theorem Sound.peer_routes (sound : Sound info routes session) : session.peer.routes = routes := by
  funext pfx
  rw [Peer.routes, sound.holds.routes, if_pos rfl]

theorem Sound.release (served : env.ServesFib)
    (different : info.families.Nodup) (sound : Sound info routes session) :
    Sound info (fun _ => none) (session.apply env .release) := by
  have lost : routes.without ([] ++ info.families) = fun _ => none := by
    funext pfx
    by_cases known : pfx.unicast ∈ info.families
    · simp [Routes.without, known]
    have missing : ¬session.peer.adjRibIn.Registered pfx.unicast := fun registered =>
      known ((sound.holds.registered _).mp registered)
    simp [Routes.without, sound.holds.not_held (AdjRib.get_of_not_registered missing pfx)]
  refine ⟨sound.sameInfo, sound.holds.clear, ?_⟩
  rw [← lost]
  have start : Follows info.neighbor.pair (routes.without []) session.rib.rib := sound.follows
  have dropped := Peer.releaseEvents_follow served sound.holds session.peer.info.neighbor.pair
    (List.nil_append info.families ▸ different) start
  simpa only [Session.apply, Peer.release, Peer.releaseEvents, sound.sameInfo] using dropped

variable {attributes : List Attribute} {nlri : List Prefix}

theorem Sound.withdrawn (served : env.ServesFib)
    (sound : Sound info routes session) {withdrawn : List Prefix} (some : withdrawn ≠ [])
    (keeps : KeepsRoutes env session (.update withdrawn attributes nlri)) :
    Sound info ((withdrawn.map Prefix.inner).foldl Routes.withdraw routes)
      (session.apply env (.update withdrawn attributes nlri)) := by
  rcases List.exists_cons_of_ne_nil some with ⟨first, rest, shape⟩
  have family := Peer.withdrawRoutes_family withdrawn .ipv4Unicast [] session.peer.adjRibIn
  rw [List.getLast?_eq_some_getLast some, Option.map_some, Option.getD_some] at family
  have sameFamily : ∀ net ∈ withdrawn, routes net.inner ≠ none →
      net.inner.afi = (withdrawn.getLast some).inner.unicast.afi := by
    intro net member isHeld
    rw [← sound.peer_routes] at isHeld
    rw [IpNet.afi_unicast]
    subst shape
    exact keeps net member isHeld _ (List.getLast?_eq_some_getLast some)
  rcases Peer.withdrawRoutes_holds withdrawn .ipv4Unicast [] sound.holds sameFamily with
      ⟨last, removed, adj, ran, holds, reaches, steps⟩
  rw [ran] at family
  simp only [Session.apply, Peer.handleUpdateMsg_withdrawn some, Peer.withdrawRoutes, ran,
    List.nil_append]
  refine ⟨sound.sameInfo, holds, ?_⟩
  refine (RibManager.dropPaths_follows served).final ⟨routes, sound.follows, reaches, ?_⟩
  change last = _ at family
  rw [family]
  exact steps

theorem installed_follows (served : env.ServesFib)
    {neighbor : NeighborPair} {state : RibState} {accepted : List Path}
    (follows : Follows neighbor routes state.rib)
    (learned : ∀ path ∈ accepted, path.LearnedFrom neighbor) (insertable : ∀ first ∈ accepted.head?,
      AllSteps (fun locRib path => (locRib.insert first.family path).2)
        (Insertable first.family neighbor state.rib.endpoint) state.rib.locRib accepted) :
    Follows neighbor (accepted.foldl Routes.announce routes)
      (state.apply env (.installPaths source accepted)).rib := by
  cases accepted with
  | nil => exact follows
  | cons first rest =>
    exact (RibManager.installPaths_follows served).final
      ⟨⟨routes, follows, rfl⟩, learned, insertable first rfl⟩

variable {hash : PathBuilder → UInt64} {clock : ℕ → ℕ} {paths : List Path}

theorem announcements_of_known
    (built : Peer.announcedPaths info hash clock attributes nlri = .ok paths)
    (oneFamily : ∀ path ∈ paths, path.family = family) (known : family ∈ info.families) :
    Routes.announcements info hash clock attributes nlri =
      paths.filter fun path => !path.hasOwnAs := by
  simp only [Routes.announcements, built]
  refine List.filter_congr fun path member => ?_
  simp [oneFamily path member, known]

theorem announcements_of_unknown
    (built : Peer.announcedPaths info hash clock attributes nlri = .ok paths)
    (oneFamily : ∀ path ∈ paths, path.family = family) (unknown : family ∉ info.families) :
    Routes.announcements info hash clock attributes nlri = [] := by
  simp only [Routes.announcements, built]
  refine List.filter_eq_nil_iff.mpr fun path member => ?_
  simp [oneFamily path member, unknown]

theorem announcements_of_failed
    (failed : ∀ paths, Peer.announcedPaths info hash clock attributes nlri ≠ .ok paths) :
    Routes.announcements info hash clock attributes nlri = [] := by
  unfold Routes.announcements
  split
  · rename_i paths built
    exact absurd built (failed paths)
  · rfl

theorem Sound.announced (served : env.ServesFib) (sound : Sound info routes session)
    (keeps : KeepsRoutes env session (.update [] attributes nlri)) :
    Sound info ((Routes.announcements info env.hash (env.clock session.rib.sent) attributes
      nlri).foldl Routes.announce routes) (session.apply env (.update [] attributes nlri)) := by
  have same := sound.sameInfo
  subst same
  by_cases built : ∃ paths, Peer.announcedPaths session.peer.info env.hash
    (env.clock session.rib.sent) attributes nlri = .ok paths
  · rcases built with ⟨paths, built⟩
    rcases Peer.announcedPaths_source built with ⟨⟨family, oneFamily⟩, learned⟩
    have handled := Peer.handleUpdateMsg_announced built
    rw [Effect.bind_apply] at handled
    by_cases known : family ∈ session.peer.info.families
    · simp only [KeepsRoutes] at keeps
      rw [announcements_of_known built oneFamily known] at keeps ⊢
      have unicast : ∀ path ∈ paths, path.hasOwnAs = false → path.family = path.pfx.unicast := by
        intro path member foreign
        have accepted : path ∈ paths.filter fun path => !path.hasOwnAs := by
          simp [member, foreign]
        have leads := List.head?_eq_some_head (List.ne_nil_of_mem accepted)
        rcases (keeps _ leads).exists_of_mem accepted with ⟨_, insertable⟩
        rw [← insertable.unicast, oneFamily path member,
          oneFamily _ (List.mem_of_mem_filter (List.mem_of_mem_head? leads))]
      rcases Peer.collect_acceptPath sound.holds
        (fun path member => (oneFamily path member).symm ▸ known) unicast with ⟨adj, ran, holds⟩
      rw [ran] at handled
      simp only [Session.apply, handled]
      refine ⟨rfl, holds, ?_⟩
      exact installed_follows served sound.follows
        (fun path member => learned path (List.mem_of_mem_filter member)) keeps
    · rw [announcements_of_unknown built oneFamily known, List.foldl_nil]
      rcases Peer.collect_acceptPath_unknown sound.holds
        (fun path member => (oneFamily path member).symm ▸ known) with ⟨cause, ran⟩ | ran
      all_goals
        rw [ran] at handled
        simp only [Session.apply, handled]
        exact ⟨rfl, sound.holds, sound.follows⟩
  · have failed := not_exists.mp built
    rw [announcements_of_failed failed, List.foldl_nil]
    rcases Peer.handleUpdateMsg_failed failed with ⟨unchanged, noEvent⟩
    rcases ran : Peer.handleUpdateMsg env.hash (env.clock session.rib.sent) [] attributes nlri
      session.peer with ⟨event | cause | _, peer⟩
    · rw [ran] at noEvent
      exact absurd rfl (noEvent event)
    all_goals
      rw [ran] at unchanged
      subst unchanged
      simp only [Session.apply, ran]
      exact ⟨rfl, sound.holds, sound.follows⟩

end Session

namespace Routes

variable {info : PeerInfo} {hash : PathBuilder → UInt64} {attributes : List Attribute}
  {nlri : List Prefix}

theorem foldl_withdraw_of_none {nets : List IpNet} {routes : Routes}
    (none : ∀ net ∈ nets, routes net = none) : nets.foldl withdraw routes = routes := by
  funext pfx
  rw [foldl_withdraw]
  split_ifs with member
  · exact (none pfx member).symm
  · rfl

theorem announcements_unmarked (clock other : ℕ → ℕ) :
    (announcements info hash clock attributes nlri).map Path.unmarked =
      (announcements info hash other attributes nlri).map Path.unmarked := by
  have filtered : ∀ paths : List Path,
      (paths.filter fun path => !path.hasOwnAs && decide (path.family ∈ info.families)).map
        Path.unmarked = (paths.map Path.unmarked).filter fun path =>
          !path.hasOwnAs && decide (path.family ∈ info.families) := by
    intro paths
    rw [List.filter_map]
    rfl
  unfold announcements Peer.announcedPaths
  cases (PathBuilder.builder info.routerId info.asn info.neighbor.routerId info.neighbor.addr
    info.neighbor.asn).attrs attributes with
  | error cause => rfl
  | panic => rfl
  | ok builder =>
    rw [Outcome.ok_bind, Outcome.ok_bind, PathBuilder.build_eq, PathBuilder.build_eq]
    cases (builder.addNlri nlri).asLists with
    | error cause => rfl
    | panic => rfl
    | ok lists =>
      simp only [Outcome.ok_bind]
      rw [filtered, filtered, List.mapIdx_eq_zipIdx_map, List.mapIdx_eq_zipIdx_map,
        List.map_map, List.map_map]
      rfl

theorem announce_announcements (clock other : ℕ → ℕ) (routes : Routes) :
    (announcements info hash clock attributes nlri).foldl announce routes =
      (announcements info hash other attributes nlri).foldl announce routes := by
  have stripped : ∀ paths : List Path,
      paths.foldl announce routes = (paths.map Path.unmarked).foldl announce routes := by
    intro paths
    rw [List.foldl_map]
    rfl
  rw [stripped, announcements_unmarked clock other, ← stripped]

end Routes

namespace Session

variable {env : Env} {info : PeerInfo} {routes : Routes} {session : Session}

theorem Sound.apply (served : env.ServesFib)
    (different : info.families.Nodup) (sound : Sound info routes session) {step : SessionStep}
    (keeps : KeepsRoutes env session step) :
    ∃ routes', Sound info routes' (session.apply env step) ∧
      (SaysAllHeard env session step → routes' = routes.heard info env.hash step) := by
  cases step with
  | release => exact ⟨_, sound.release served different, fun _ => rfl⟩
  | update withdrawn attributes nlri =>
    by_cases none : withdrawn = []
    · subst none
      refine ⟨_, sound.announced served keeps, fun heard => ?_⟩
      have notHeld : ∀ net ∈ (attributes.flatMap Attribute.unreachable).map Prod.snd,
          routes net = none := by
        intro net member
        rcases heard.2 net member with absurd | missing
        · simp at absurd
        · rwa [sound.peer_routes] at missing
      rw [Routes.heard, Routes.withdrawals, List.map_nil, List.nil_append,
        Routes.foldl_withdraw_of_none notHeld]
      exact Routes.announce_announcements _ _ routes
    refine ⟨_, sound.withdrawn served none keeps, fun heard => ?_⟩
    have quiet : Routes.announcements info env.hash (fun _ => 0) attributes nlri = [] := by
      have unmarked : List.map Path.unmarked [] = _ :=
        heard.1 none ▸ Routes.announcements_unmarked _ fun _ => 0
      rw [sound.sameInfo] at unmarked
      simpa using unmarked.symm
    rw [Routes.heard, quiet, List.foldl_nil, Routes.withdrawals, List.foldl_append]
    refine (Routes.foldl_withdraw_of_none ?_).symm
    intro net member
    rw [Routes.foldl_withdraw]
    rcases heard.2 net member with taken | missing
    · rw [if_pos taken]
    · rw [sound.peer_routes] at missing
      simp [missing]

theorem Sound.run (served : env.ServesFib)
    (different : info.families.Nodup) (sound : Sound info routes session)
    {steps : List SessionStep} (keeps : AllSteps (Session.apply env)
    (KeepsRoutes env) session steps) :
    ∃ routes', Sound info routes' (session.run env steps) ∧
      (AllSteps (Session.apply env) (SaysAllHeard env) session steps →
        routes' = steps.foldl (Routes.heard info env.hash) routes) := by
  induction steps generalizing session routes with
  | nil => exact ⟨routes, sound, fun _ => rfl⟩
  | cons step rest ih =>
    rcases sound.apply served different keeps.1 with ⟨next, soundNext, heardNext⟩
    rcases ih soundNext keeps.2 with ⟨last, soundLast, heardLast⟩
    refine ⟨last, soundLast, fun heard => ?_⟩
    rw [heardLast heard.2, heardNext heard.1, List.foldl_cons]

end Session

instance (neighbor : NeighborPair) (family : AddressFamily) (endpoint : Bool) (locRib : LocRib)
    (path : Path) : Decidable (Insertable family neighbor endpoint locRib path) :=
  decidable_of_iff _ (insertable_iff family neighbor endpoint locRib path).symm

instance (env : Env) (session : Session) :
    (step : SessionStep) → Decidable (KeepsRoutes env session step)
  | .update [] _ _ => inferInstanceAs (Decidable (∀ _ ∈ _, AllSteps ..))
  | .update (_ :: _) _ _ => inferInstanceAs (Decidable (∀ _ ∈ _, _ → ∀ _ ∈ _, _))
  | .release => isTrue trivial

instance (env : Env) (session : Session) :
    (step : SessionStep) → Decidable (SaysAllHeard env session step)
  | .update _ _ _ => inferInstanceAs (Decidable ((_ → _) ∧ ∀ _ ∈ _, _ ∨ _))
  | .release => isTrue trivial

namespace Session

variable {env : Env} {info : PeerInfo} {state : RibState} {steps : List SessionStep}

theorem start_sound
    (unknown : ∀ afi pfx, learned info.neighbor.pair (state.rib.locRib.paths afi pfx) = [])
    (routed : state.rib.endpoint = true → ∀ afi pfx, ∀ path ∈ state.rib.locRib.paths afi pfx,
      path.nextHops ≠ []) : Sound info (fun _ => none) ⟨.new info, state⟩ := by
  refine ⟨rfl, AdjRib.Holds.new info.families, ?_, ?_, routed⟩
  · intro afi pfx
    simp [unknown]
  · intro pfx path isHeld
    simp at isHeld

/-- In every run of a session whose messages keep the routes, the paths of the neighbour in the
Loc-RIB are those of its Adj-RIB-In, at most one for each network.  If the messages also say
nothing that is ignored, they are the routes announced last and not taken back. -/
theorem run_implicit_withdraw (served : ∀ sent request, env.refuses sent (.fib request) = none)
    (different : info.families.Nodup)
    (unknown : ∀ afi pfx, learned info.neighbor.pair (state.rib.locRib.paths afi pfx) = [])
    (routed : state.rib.endpoint = true → ∀ afi pfx, ∀ path ∈ state.rib.locRib.paths afi pfx,
      path.nextHops ≠ [])
    (keeps : AllSteps (apply env) (KeepsRoutes env) ⟨.new info, state⟩ steps) :
    let final := run env ⟨.new info, state⟩ steps
    (∀ afi pfx, learned info.neighbor.pair (final.rib.rib.locRib.paths afi pfx) =
        ((final.peer.adjRibIn.get ⟨afi, .unicast⟩ pfx).map Path.unmarked).toList ∧
      final.peer.adjRibIn.get ⟨afi, .multicast⟩ pfx = none) ∧
    (AllSteps (apply env) (SaysAllHeard env) ⟨.new info, state⟩ steps →
      final.peer.routes = steps.foldl (Routes.heard info env.hash) fun _ => none) := by
  rcases (start_sound unknown routed).run served different keeps with ⟨routes, sound, heard⟩
  refine ⟨fun afi pfx => ⟨?_, ?_⟩, fun allHeard => ?_⟩
  · rw [sound.follows.own, sound.holds.routes]
    cases pfx <;> cases afi <;> rfl
  · have stored := sound.holds.routes ⟨afi, .multicast⟩ pfx
    rw [if_neg (by cases pfx <;> simp [IpNet.unicast, AddressFamily.ipv4Unicast,
      AddressFamily.ipv6Unicast])] at stored
    simpa using stored
  · rw [sound.peer_routes, heard allHeard]

def sampleInfo : PeerInfo :=
  ⟨⟨65001, 0x0a000001, .v4 0x0a000001⟩, 65000, sampleRouter, [.ipv4Unicast, .ipv6Unicast]⟩

def sampleAnnouncement (localPref : UInt32) : SessionStep :=
  .update [] [.asPath ⟨0x40, 2⟩ [⟨2, [65001]⟩], .nextHop ⟨0x40, 3⟩ 0x0a000001,
    .localPref ⟨0x40, 5⟩ localPref] [⟨sampleNet, none⟩]

def sampleWithdrawal : SessionStep := .update [⟨sampleNet, none⟩] [] []

theorem run_implicit_withdraw_of_return :
    let steps := [sampleAnnouncement 100, sampleWithdrawal, sampleAnnouncement 200]
    let final := run sampleEnv ⟨.new sampleInfo, .start (sampleRib false)⟩ steps
    (final.rib.rib.locRib.paths .ipv4 sampleNet).length = 1 ∧
      learned sampleInfo.neighbor.pair (final.rib.rib.locRib.paths .ipv4 sampleNet) =
        ((final.peer.adjRibIn.get .ipv4Unicast sampleNet).map Path.unmarked).toList ∧
      final.peer.routes = steps.foldl (Routes.heard sampleInfo sampleEnv.hash) fun _ => none := by
  have unknown : ∀ afi pfx, learned sampleInfo.neighbor.pair
      ((sampleRib false).locRib.paths afi pfx) = [] := fun afi pfx =>
    congrArg (learned _) (LocRib.new_paths [.ipv4] false afi pfx)
  have result := @run_implicit_withdraw sampleEnv sampleInfo (.start (sampleRib false))
    [sampleAnnouncement 100, sampleWithdrawal, sampleAnnouncement 200] (fun _ _ => rfl)
    (by decide) unknown (fun endpoint => by cases endpoint) (by decide +kernel)
  refine ⟨by decide +kernel, ?_⟩
  have own := (result.1 .ipv4 sampleNet).1
  have heard := result.2 (by decide +kernel)
  exact ⟨own, heard⟩

def sampleHashEnv : Env :=
  { sampleEnv with hash := fun builder => builder.localPref.toUInt64 }

/-- A second announcement of a network leaves the first path in the Loc-RIB. -/
theorem run_not_implicit_withdraw :
    ¬∀ (steps : List SessionStep) (afi : Afi) (pfx : IpNet),
      let final := run sampleHashEnv ⟨.new sampleInfo, .start (sampleRib false)⟩ steps
      learned sampleInfo.neighbor.pair (final.rib.rib.locRib.paths afi pfx) =
        ((final.peer.adjRibIn.get ⟨afi, .unicast⟩ pfx).map Path.unmarked).toList := by
  intro claim
  have twice := claim [sampleAnnouncement 100, sampleAnnouncement 200] .ipv4 sampleNet
  revert twice
  decide +kernel

end Session

end Sart
