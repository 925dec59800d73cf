import Sart.Rib.Handling

/-!
# Locally originated networks

The Loc-RIB should hold one local path for each network that was added and not
deleted since, under the family of the network, whatever the peers do.

`LocRib.insert` only adds: a network that is added again is stored again, and
`PathBuilder.builderLocal` builds every path for IPv4 unicast.
-/

namespace Sart

open Sart.Lib Sart.Lib.Effect

def RibEvent.originates (nets : Finset IpNet) : RibEvent → Finset IpNet
  | .addPath networks _ => nets ∪ networks.toFinset
  | .deletePath _ networks => nets \ networks.toFinset
  | _ => nets

/-- The local paths are one for each of the networks, under the family of the network. -/
def LocRib.Originates (locRib : LocRib) (nets : Finset IpNet) : Prop :=
  ∀ afi pfx, (locRib.paths afi pfx).countP Path.isLocalOriginated =
    if afi = pfx.afi ∧ pfx ∈ nets then 1 else 0

def learnedPaths (paths : List Path) : List Path :=
  (paths.map Path.unmarked).filter fun path => !path.isLocalOriginated

@[simp]
theorem Path.isLocalOriginated_unmarked (path : Path) :
    path.unmarked.isLocalOriginated = path.isLocalOriginated := rfl

theorem countP_isLocalOriginated (paths : List Path) :
    paths.countP Path.isLocalOriginated =
      (paths.map Path.unmarked).countP Path.isLocalOriginated := by
  rw [List.countP_map]
  rfl

variable {path : Path} {family : AddressFamily} {pathId : IpNet × UInt64} {state : RibState}

theorem Path.isLocalOriginated_of_unmarked {other : Path} (same : path.unmarked = other.unmarked) :
    path.isLocalOriginated = other.isLocalOriginated := by
  rw [← path.isLocalOriginated_unmarked, same, other.isLocalOriginated_unmarked]

/-- What is kept about the Loc-RIB: the local paths are those of the networks, every path stands
under its own network, and there is a table for IPv4. -/
structure LocRib.Hosts (locRib : LocRib) (nets : Finset IpNet) : Prop where
  originates : locRib.Originates nets
  own : ∀ afi pfx, ∀ path ∈ locRib.paths afi pfx, path.pfx = pfx
  registered : locRib.Registered .ipv4

variable {locRib : LocRib} {status : LocRibStatus}

theorem LocRib.countLocal_insert (isLocal : path.isLocalOriginated = true)
    (returned : (locRib.insert family path).1 = .ok status) (afi : Afi) (pfx : IpNet) :
    ((locRib.insert family path).2.paths afi pfx).countP Path.isLocalOriginated =
      (locRib.paths afi pfx).countP Path.isLocalOriginated +
        if afi = family.afi ∧ pfx = path.pfx then 1 else 0 := by
  rcases insert_ok returned with ⟨stored, inserted, updated⟩
  rw [updated]
  split_ifs with here
  · rw [here.1, here.2, countP_isLocalOriginated, inserted.perm.countP_eq,
      List.countP_cons_of_pos (by simpa), ← countP_isLocalOriginated]
  · rfl

theorem LocRib.countLocal_drop {net : IpNet} {id : UInt64}
    (isLocal : ∀ path ∈ locRib.paths family.afi net, path.id = id → path.isLocalOriginated = true)
    (returned : (locRib.drop family net id).1 = .ok status) (afi : Afi) (pfx : IpNet) :
    ((locRib.drop family net id).2.paths afi pfx).countP Path.isLocalOriginated +
        (if afi = family.afi ∧ pfx = net then 1 else 0) =
      (locRib.paths afi pfx).countP Path.isLocalOriginated := by
  rcases drop_ok returned with ⟨before, removed, after, stored, split, shape, dropped, updated⟩
  rw [updated]
  split_ifs with here
  · have removedLocal := isLocal removed (by simp [shape]) (splitById_eq_some split).2.1
    rw [here.1, here.2, shape, countP_isLocalOriginated, dropped.map_unmarked,
      ← countP_isLocalOriginated, List.countP_append, List.countP_append,
      List.countP_cons_of_pos removedLocal, Nat.add_assoc]
  · rfl

namespace LocRib.Hosts

variable {nets : Finset IpNet}

theorem new (multiPath : Bool) : (LocRib.new [.ipv4, .ipv6] multiPath).Hosts ∅ where
  originates afi pfx := by simp
  own afi pfx := by simp
  registered := by rfl

theorem insert_learned (hosts : locRib.Hosts nets) (family : AddressFamily)
    (learned : path.isLocalOriginated = false) : (locRib.insert family path).2.Hosts nets where
  originates := insert_forall (fun afi pfx list => list.countP Path.isLocalOriginated =
      if afi = pfx.afi ∧ pfx ∈ nets then 1 else 0) hosts.originates fun inserted => by
    rw [countP_isLocalOriginated, inserted.perm.countP_eq, List.countP_cons_of_neg (by simpa),
      ← countP_isLocalOriginated, hosts.originates]
  own := forall_mem_insert (fun _ pfx path => path.pfx = pfx) hosts.own rfl
  registered := (locRib.insert_registered ..).mpr hosts.registered

theorem insert_local (hosts : locRib.Hosts nets) (isLocal : path.isLocalOriginated = true)
    {status : LocRibStatus} (returned : (locRib.insert family path).1 = .ok status)
    (own : path.pfx.afi = family.afi) (fresh : path.pfx ∉ nets) :
    (locRib.insert family path).2.Hosts (nets ∪ {path.pfx}) where
  originates afi pfx := by
    rw [countLocal_insert isLocal returned, hosts.originates]
    by_cases same : pfx = path.pfx
    · simp [same, own, fresh]
    · simp [same]
  own := forall_mem_insert (fun _ pfx path => path.pfx = pfx) hosts.own rfl
  registered := (locRib.insert_registered ..).mpr hosts.registered

theorem drop_learned (hosts : locRib.Hosts nets)
    (learned : ∀ path ∈ locRib.paths family.afi pathId.1, path.id = pathId.2 →
      path.isLocalOriginated = false) : (locRib.drop family pathId.1 pathId.2).2.Hosts nets where
  originates := drop_forall (fun afi pfx list => list.countP Path.isLocalOriginated =
      if afi = pfx.afi ∧ pfx ∈ nets then 1 else 0) hosts.originates fun shape sameId dropped => by
    have foreign := learned _ (by simp [shape]) sameId
    rw [← hosts.originates, shape, countP_isLocalOriginated, dropped.map_unmarked,
      ← countP_isLocalOriginated, List.countP_append, List.countP_append,
      List.countP_cons_of_neg (by simpa)]
  own := forall_mem_drop (fun _ pfx path => path.pfx = pfx) hosts.own
  registered := (locRib.drop_registered ..).mpr hosts.registered

theorem drop_local (hosts : locRib.Hosts nets) (member : path ∈ locRib.paths family.afi path.pfx)
    (isLocal : path.isLocalOriginated = true)
    (distinct : ∀ other ∈ locRib.paths family.afi path.pfx, other.id = path.id →
      other.isLocalOriginated = true) :
    (∃ status, (locRib.drop family path.pfx path.id).1 = .ok status) ∧
      (locRib.drop family path.pfx path.id).2.Hosts (nets \ {path.pfx}) ∧
      ∀ afi pfx, learnedPaths ((locRib.drop family path.pfx path.id).2.paths afi pfx) =
        learnedPaths (locRib.paths afi pfx) := by
  have returned := drop_returns member
  refine ⟨returned, ⟨fun afi pfx => ?_, forall_mem_drop
    (fun _ pfx path => path.pfx = pfx) hosts.own,
    (locRib.drop_registered ..).mpr hosts.registered⟩, ?_⟩
  · rcases returned with ⟨_, returned⟩
    have fewer := countLocal_drop distinct returned afi pfx
    have held := hosts.originates afi pfx
    by_cases same : pfx = path.pfx
    · subst same
      by_cases here : afi = family.afi
      · subst here
        rw [if_pos ⟨rfl, rfl⟩] at fewer
        simp only [Finset.mem_sdiff, Finset.mem_singleton, not_true_eq_false, and_false, if_false]
        split_ifs at held <;> omega
      have counted := hosts.originates family.afi path.pfx
      have some : 0 < (locRib.paths family.afi path.pfx).countP Path.isLocalOriginated :=
        List.countP_pos_iff.mpr ⟨path, member, isLocal⟩
      have own : family.afi = path.pfx.afi := by
        by_contra other
        rw [counted, if_neg (by simp [other])] at some
        omega
      simpa [here, ← own, held] using fewer
    · simpa [same, held] using fewer
  · refine drop_forall (fun afi pfx list => learnedPaths list = learnedPaths (locRib.paths afi pfx))
      (fun _ _ => rfl) fun shape sameId dropped => ?_
    have removedLocal := distinct _ (by simp [shape]) sameId
    unfold learnedPaths
    rw [dropped.map_unmarked, shape, List.map_append, List.map_append, List.map_cons,
      List.filter_append, List.filter_append, List.filter_cons_of_neg (by simpa)]

end LocRib.Hosts

/-- A network can be added: it is an IPv4 network without a local path, and its list is empty or
has a best path. -/
@[mk_iff]
structure LocRib.Addable (locRib : LocRib) (net : IpNet) : Prop where
  ipv4 : net.afi = .ipv4
  fresh : ∀ path ∈ locRib.paths .ipv4 net, path.isLocalOriginated = false
  marked : locRib.paths .ipv4 net = [] ∨ ∃ path ∈ locRib.paths .ipv4 net, path.best = true

instance (locRib : LocRib) (net : IpNet) : Decidable (locRib.Addable net) :=
  decidable_of_iff _ (LocRib.addable_iff locRib net).symm

/-- A network can be deleted: no path of a peer has the identifier of its local path. -/
def LocRib.Deletable (locRib : LocRib) (net : IpNet) : Prop :=
  ∀ path ∈ locRib.paths net.afi net, path.isLocalOriginated = true →
    ∀ other ∈ locRib.paths net.afi net, other.id = path.id → other.isLocalOriginated = true
  deriving Decidable

/-- When an event keeps the local paths as the control plane wants them. -/
def KeepsOrigins (state : RibState) : RibEvent → Prop
  | .addPath networks attrs => attrs = [] ∧ networks.Nodup ∧
      ∀ net ∈ networks, state.rib.locRib.Addable net
  | .deletePath family networks => networks.Nodup ∧
      ∀ net ∈ networks, net.afi = family.afi ∧ state.rib.locRib.Deletable net
  | .installPaths _ paths => ∀ path ∈ paths, path.isLocalOriginated = false
  | .dropPaths _ family pathIds => ∀ pathId ∈ pathIds,
      ∀ path ∈ state.rib.locRib.paths family.afi pathId.1, path.id = pathId.2 →
        path.isLocalOriginated = false
  | _ => False

instance (state : RibState) (event : RibEvent) : Decidable (KeepsOrigins state event) := by
  cases event <;> dsimp only [KeepsOrigins] <;> infer_instance

namespace RibManager

open RibM

variable {env : Env} {nets target : Finset IpNet} {abort : Option Error → RibState → Prop}
  {neighbor : NeighborPair} {networks : List IpNet} {paths todo : List Path}
  {pathIds : List (IpNet × UInt64)} {pre : RibState → Prop} {post : LocRib → Prop} {start : LocRib}
  {rib : RibManager}

theorem installPaths_hosts (learned : ∀ path ∈ paths, path.isLocalOriginated = false) :
    Spec (fun state => state.rib.locRib.Hosts nets) (installPaths env neighbor paths true)
      (fun _ state => state.rib.locRib.Hosts nets)
      (fun _ state => state.rib.locRib.Hosts nets) := by
  cases paths with
  | nil => exact Spec.pure fun _ hosts => hosts
  | cons first rest =>
    refine ((Spec.collect (fun todo _ (state : RibState) => state.rib.locRib.Hosts nets ∧
      ∀ path ∈ todo, path.isLocalOriginated = false) ?_ (first :: rest) []).conseq
      (fun _ hosts => ⟨hosts, learned⟩) (fun _ _ holds => holds.1)).bind fun changed =>
        advertise_rib fun rib => rib.locRib.Hosts nets
    intro path todo _
    refine (installPath_spec (fun _ state => state.rib.locRib.Hosts nets ∧
      ∀ path ∈ todo, path.isLocalOriginated = false) ?_ ?_ ?_ ?_).implies ?_
    · exact fun _ _ _ holds => holds
    · rintro state _ ⟨hosts, learned⟩ _
      exact ⟨hosts.insert_learned _ (learned path (by simp)),
        fun other member => learned other (by simp [member])⟩
    · rintro state _ ⟨hosts, learned⟩ _
      exact hosts.insert_learned _ (learned path (by simp))
    · exact fun _ _ _ holds _ _ => holds.1
    · rintro _ _ ⟨_, holds, _⟩
      exact holds

theorem dropPaths_hosts :
    Spec (fun state => state.rib.locRib.Hosts nets ∧ ∀ pathId ∈ pathIds,
        ∀ path ∈ state.rib.locRib.paths family.afi pathId.1, path.id = pathId.2 →
          path.isLocalOriginated = false)
      (dropPaths env neighbor family pathIds true)
      (fun _ state => state.rib.locRib.Hosts nets)
      (fun _ state => state.rib.locRib.Hosts nets) := by
  refine ((Spec.collect (fun todo _ (state : RibState) => state.rib.locRib.Hosts nets ∧
    ∀ pathId ∈ todo, ∀ path ∈ state.rib.locRib.paths family.afi pathId.1, path.id = pathId.2 →
      path.isLocalOriginated = false) ?_ pathIds []).implies (fun _ _ holds => holds.1)).bind
    fun notices =>
      (withdraw_rib fun rib => rib.locRib.Hosts nets).bind fun _ =>
        advertise_rib fun rib => rib.locRib.Hosts nets
  intro pathId todo _
  refine (dropPath_spec (fun _ (state : RibState) => state.rib.locRib.Hosts nets ∧
    ∀ pathId ∈ todo, ∀ path ∈ state.rib.locRib.paths family.afi pathId.1, path.id = pathId.2 →
      path.isLocalOriginated = false) ?_ ?_ ?_ ?_).implies ?_
  · exact fun _ _ _ holds => holds
  · rintro state _ ⟨hosts, learned⟩ _
    refine ⟨hosts.drop_learned (learned pathId (by simp)), ?_⟩
    intro other member path pathMem sameId
    rcases LocRib.mem_drop pathMem with ⟨old, oldMem, same⟩
    rw [Path.isLocalOriginated_of_unmarked same]
    exact learned other (by simp [member]) old oldMem ((Path.id_of_unmarked same).symm.trans sameId)
  · rintro state _ ⟨hosts, learned⟩ _
    exact hosts.drop_learned (learned pathId (by simp))
  · exact fun _ _ _ holds _ _ => holds.1
  · rintro _ _ ⟨_, holds, _⟩
    exact holds

/-! ### Local paths

The paths of the control plane are not written to the FIB, so that only the Loc-RIB can fail. -/

theorem installPath_silent
    (returned : ∀ state, pre state → ∃ status, (state.rib.locRib.insert family path).1 = .ok status)
    (kept : ∀ state, pre state → post (state.rib.locRib.insert family path).2) :
    Spec pre (installPath env family false path) (fun _ state => post state.rib.locRib) abort := by
  refine (installPath_spec (fun _ state => post state.rib.locRib) (fun _ _ _ holds => holds)
    (fun state _ start _ => kept state start) ?_ ?_).implies fun _ _ ⟨_, holds, _⟩ => holds
  · intro state cause start failed
    rcases returned state start with ⟨status, returned⟩
    rw [failed] at returned
    cases returned
  · exact fun _ _ _ _ applied => by cases applied

theorem dropPath_silent (returned : ∀ state, pre state →
      ∃ status, (state.rib.locRib.drop family pathId.1 pathId.2).1 = .ok status)
    (kept : ∀ state, pre state → post (state.rib.locRib.drop family pathId.1 pathId.2).2) :
    Spec pre (dropPath env family false pathId) (fun _ state => post state.rib.locRib) abort := by
  refine (dropPath_spec (fun _ state => post state.rib.locRib) (fun _ _ _ holds => holds)
    (fun state _ start _ => kept state start) ?_ ?_).implies fun _ _ ⟨_, holds, _⟩ => holds
  · intro state cause start failed
    rcases returned state start with ⟨status, returned⟩
    rw [failed] at returned
    cases returned
  · exact fun _ _ _ _ applied => by cases applied

structure Adding (target : Finset IpNet) (todo : List Path) (locRib : LocRib) : Prop where
  hosts : ∃ nets, locRib.Hosts nets ∧ nets ∪ (todo.map Path.pfx).toFinset = target
  isLocal : ∀ path ∈ todo, path.isLocalOriginated = true
  distinct : (todo.map Path.pfx).Nodup
  addable : ∀ path ∈ todo, locRib.Addable path.pfx

theorem Adding.insert_returns (adding : Adding target (path :: todo) locRib) :
    ∃ status, (locRib.insert .ipv4Unicast path).1 = .ok status := by
  rcases adding.hosts with ⟨nets, hosts, _⟩
  refine LocRib.insert_returns hosts.registered ?_
  exact (adding.addable path (by simp)).marked

theorem Adding.insert (adding : Adding target (path :: todo) locRib) :
    Adding target todo (locRib.insert .ipv4Unicast path).2 := by
  have distinct := adding.distinct
  rw [List.map_cons, List.nodup_cons] at distinct
  refine ⟨?_, fun other member => adding.isLocal other (by simp [member]), distinct.2, ?_⟩
  · rcases adding.hosts with ⟨nets, hosts, rfl⟩
    rcases adding.insert_returns with ⟨status, returned⟩
    have addable := adding.addable path (by simp)
    have fresh : path.pfx ∉ nets := by
      intro present
      have counted := hosts.originates .ipv4 path.pfx
      rw [if_pos ⟨addable.ipv4.symm, present⟩] at counted
      have none : (locRib.paths .ipv4 path.pfx).countP Path.isLocalOriginated = 0 := by
        simpa [List.countP_eq_zero] using addable.fresh
      omega
    refine ⟨nets ∪ {path.pfx}, hosts.insert_local (adding.isLocal path (by simp)) returned
      addable.ipv4 fresh, ?_⟩
    simp
  · intro other member
    have addable := adding.addable other (by simp [member])
    have elsewhere : other.pfx ≠ path.pfx := by
      intro same
      exact distinct.1 (same ▸ List.mem_map_of_mem member)
    have same : (locRib.insert .ipv4Unicast path).2.paths .ipv4 other.pfx =
        locRib.paths .ipv4 other.pfx := by
      rw [LocRib.insert_paths, if_neg]
      exact fun here => elsewhere here.2.2
    exact ⟨addable.ipv4, by rw [same]; exact addable.fresh, by rw [same]; exact addable.marked⟩

theorem installPaths_adds (unicast : ∀ path ∈ paths, path.family = .ipv4Unicast) :
    Spec (fun state => Adding target paths state.rib.locRib)
      (installPaths env neighbor paths false) (fun _ state => state.rib.locRib.Hosts target)
      (fun _ state => state.rib.locRib.Hosts target) := by
  have added : ∀ state : RibState, Adding target [] state.rib.locRib →
      state.rib.locRib.Hosts target := by
    intro state adding
    rcases adding.hosts with ⟨nets, hosts, rfl⟩
    simpa using hosts
  cases paths with
  | nil => exact Spec.pure added
  | cons first rest =>
    refine ((Spec.collect (fun todo _ (state : RibState) =>
      Adding target todo state.rib.locRib) ?_ (first :: rest) []).implies (fun _ => added)).bind
      fun changed =>
        advertise_rib fun rib => rib.locRib.Hosts target
    intro path todo _
    rw [unicast first (by simp)]
    exact installPath_silent (fun state adding => adding.insert_returns)
      fun state adding => adding.insert

theorem addPathBuild_eq (env : Env) (state : RibState) (networks : List IpNet) :
    ∃ paths, addPathBuild env state networks [] = .ok paths ∧ paths.map Path.pfx = networks ∧
      ∀ path ∈ paths, path.isLocalOriginated = true ∧ path.family = .ipv4Unicast := by
  refine ⟨_, rfl, ?_, ?_⟩
  · refine List.ext_getElem (by simp [PathBuilder.addNlri, PathBuilder.builderLocal,
      PathBuilder.builder]) ?_
    simp [PathBuilder.addNlri, PathBuilder.builderLocal, PathBuilder.builder, PathBuilder.path]
  intro path member
  rcases List.mem_mapIdx.mp member with ⟨index, bound, rfl⟩
  exact ⟨by simp [Path.isLocalOriginated, PathBuilder.path, PathBuilder.addNlri,
    PathBuilder.builderLocal, PathBuilder.builder], rfl⟩

theorem addPath_hosts (hosts : state.rib.locRib.Hosts nets) (distinct : networks.Nodup)
    (addable : ∀ net ∈ networks, state.rib.locRib.Addable net) :
    (addPath env networks [] state).2.rib.locRib.Hosts (nets ∪ networks.toFinset) := by
  rcases addPathBuild_eq env state networks with ⟨paths, built, rfl, ofBuilder⟩
  have ran : addPath env (paths.map Path.pfx) [] state =
      installPaths env ⟨.v4 state.rib.routerId, state.rib.asn⟩ paths false state := by
    simp [addPath, bind_apply, Effect.read, Effect.lift, built]
  rw [ran]
  refine (installPaths_adds fun path member => (ofBuilder path member).2).final ?_
  refine ⟨⟨nets, hosts, rfl⟩, fun path member => (ofBuilder path member).1, distinct, ?_⟩
  exact fun path member => addable path.pfx (List.mem_map_of_mem member)

/-- The networks of the given identifiers still have to be deleted to arrive at `target`, with
the paths of the peers as in `start`. -/
structure Deleting (target : Finset IpNet) (start : LocRib) (family : AddressFamily)
    (todo : List (IpNet × UInt64)) (locRib : LocRib) : Prop where
  hosts : ∃ nets, locRib.Hosts nets ∧ nets \ (todo.map Prod.fst).toFinset = target
  distinct : (todo.map Prod.fst).Nodup
  stored : ∀ pathId ∈ todo, ∃ path ∈ locRib.paths family.afi pathId.1, path.id = pathId.2 ∧
    path.isLocalOriginated = true
  unmixed : ∀ pathId ∈ todo, ∀ path ∈ locRib.paths family.afi pathId.1, path.id = pathId.2 →
    path.isLocalOriginated = true
  learned : ∀ afi pfx, learnedPaths (locRib.paths afi pfx) = learnedPaths (start.paths afi pfx)

theorem Deleting.drop {todo : List (IpNet × UInt64)}
    (deleting : Deleting target start family (pathId :: todo) locRib) :
    (∃ status, (locRib.drop family pathId.1 pathId.2).1 = .ok status) ∧
      Deleting target start family todo (locRib.drop family pathId.1 pathId.2).2 := by
  have distinct := deleting.distinct
  rw [List.map_cons, List.nodup_cons] at distinct
  have elsewhere : ∀ other ∈ todo, (locRib.drop family pathId.1 pathId.2).2.paths family.afi other.1
      = locRib.paths family.afi other.1 := by
    intro other member
    rw [LocRib.drop_paths, if_neg]
    rintro ⟨_, same⟩
    exact distinct.1 (same ▸ List.mem_map_of_mem member)
  rcases deleting.hosts with ⟨nets, hosts, rfl⟩
  rcases deleting.stored pathId (by simp) with ⟨path, member, sameId, isLocal⟩
  have own := hosts.own family.afi pathId.1 path member
  have stored : path ∈ locRib.paths family.afi path.pfx := by rwa [own]
  have dropped := hosts.drop_local stored isLocal (by
    rw [own, sameId]
    exact deleting.unmixed pathId (by simp))
  rw [own, sameId] at dropped
  refine ⟨dropped.1, ⟨_, dropped.2.1, ?_⟩, distinct.2, ?_, ?_, ?_⟩
  · rw [List.map_cons, List.toFinset_cons, Finset.insert_eq, sdiff_sdiff_left]
    rfl
  · intro other member
    rw [elsewhere other member]
    exact deleting.stored other (by simp [member])
  · intro other member
    rw [elsewhere other member]
    exact deleting.unmixed other (by simp [member])
  · exact fun afi pfx => (dropped.2.2 afi pfx).trans (deleting.learned afi pfx)

theorem dropPaths_deletes :
    Spec (fun state => Deleting target start family pathIds state.rib.locRib)
      (dropPaths env neighbor family pathIds false)
      (fun _ state => Deleting target start family [] state.rib.locRib)
      (fun _ state => Deleting target start family [] state.rib.locRib) := by
  refine (Spec.collect (fun todo _ (state : RibState) =>
    Deleting target start family todo state.rib.locRib) ?_ pathIds []).bind fun notices =>
      (withdraw_rib fun rib => Deleting target start family [] rib.locRib).bind fun _ =>
        advertise_rib fun rib => Deleting target start family [] rib.locRib
  intro pathId todo _
  exact dropPath_silent (fun state deleting => deleting.drop.1) fun state deleting =>
    deleting.drop.2

theorem deletePathIds_eq (rib : RibManager) (family : AddressFamily) (networks : List IpNet) :
    rib.deletePathIds family networks = networks.flatMap fun net =>
      ((rib.locRib.paths family.afi net).filter Path.isLocalOriginated).map
        fun path => (path.pfx, path.id) := by
  unfold deletePathIds
  congr 1
  funext net
  rcases rib.locRib.get_eq_none_or_paths family net with ⟨missing, empty⟩ | found
  · simp [missing, empty]
  · simp [found]

theorem mem_deletePathIds (hosts : rib.locRib.Hosts nets)
    (member : pathId ∈ rib.deletePathIds family networks) :
    pathId.1 ∈ networks ∧ ∃ path ∈ rib.locRib.paths family.afi pathId.1, path.id = pathId.2 ∧
      path.isLocalOriginated = true := by
  rw [deletePathIds_eq] at member
  rcases List.mem_flatMap.mp member with ⟨net, netMem, entry⟩
  rcases List.mem_map.mp entry with ⟨path, isStored, rfl⟩
  rcases List.mem_filter.mp isStored with ⟨stored, isLocal⟩
  have own := hosts.own family.afi net path stored
  exact ⟨by rwa [own], path, by rwa [own], rfl, isLocal⟩

theorem map_fst_deletePathIds (hosts : rib.locRib.Hosts nets)
    (ofFamily : ∀ net ∈ networks, net.afi = family.afi) :
    (rib.deletePathIds family networks).map Prod.fst = networks.filter (· ∈ nets) := by
  rw [deletePathIds_eq]
  induction networks with
  | nil => rfl
  | cons net rest ih =>
    rw [List.flatMap_cons, List.map_append, ih fun other member =>
      ofFamily other (by simp [member]),
      List.filter_cons, List.map_map]
    have counted := hosts.originates family.afi net
    have own : ∀ path ∈ (rib.locRib.paths family.afi net).filter Path.isLocalOriginated,
        path.pfx = net := fun path member =>
      hosts.own family.afi net path (List.mem_filter.mp member).1
    have repeated : ((rib.locRib.paths family.afi net).filter Path.isLocalOriginated).map
        (Prod.fst ∘ fun path : Path => (path.pfx, path.id)) =
          List.replicate (if net ∈ nets then 1 else 0) net := by
      refine List.eq_replicate_iff.mpr ⟨?_, ?_⟩
      · rw [List.length_map, ← List.countP_eq_length_filter, counted]
        simp [ofFamily net (by simp)]
      intro pfx member
      rcases List.mem_map.mp member with ⟨path, stored, rfl⟩
      exact own path stored
    rw [repeated]
    by_cases present : net ∈ nets <;> simp [present]

theorem deletePath_hosts (hosts : state.rib.locRib.Hosts nets) (distinct : networks.Nodup)
    (deletable : ∀ net ∈ networks, net.afi = family.afi ∧ state.rib.locRib.Deletable net) :
    (deletePath env family networks state).2.rib.locRib.Hosts (nets \ networks.toFinset) ∧
      ∀ afi pfx,
        learnedPaths ((deletePath env family networks state).2.rib.locRib.paths afi pfx) =
          learnedPaths (state.rib.locRib.paths afi pfx) := by
  have ofFamily : ∀ net ∈ networks, net.afi = family.afi := fun net member =>
    (deletable net member).1
  have nets' : nets \ (networks.filter (· ∈ nets)).toFinset = nets \ networks.toFinset := by
    ext net
    simp only [List.toFinset_filter, Finset.mem_sdiff, Finset.mem_filter, List.mem_toFinset,
      decide_eq_true_eq]
    tauto
  have start : Deleting (nets \ networks.toFinset) state.rib.locRib family
      (state.rib.deletePathIds family networks) state.rib.locRib := by
    refine ⟨⟨nets, hosts, ?_⟩, ?_, ?_, ?_, fun _ _ => rfl⟩
    · rw [map_fst_deletePathIds hosts ofFamily, nets']
    · rw [map_fst_deletePathIds hosts ofFamily]
      exact distinct.filter _
    · exact fun pathId member => (mem_deletePathIds hosts member).2
    · intro pathId member path stored sameId
      rcases mem_deletePathIds hosts member with ⟨netMem, other, otherStored, otherId, isLocal⟩
      have deletable := (deletable pathId.1 netMem).2
      rw [LocRib.Deletable, ofFamily pathId.1 netMem] at deletable
      exact deletable other otherStored isLocal path stored (sameId.trans otherId.symm)
  have done : Deleting (nets \ networks.toFinset) state.rib.locRib family []
      (deletePath env family networks state).2.rib.locRib := dropPaths_deletes.final start
  rcases done.hosts with ⟨left, hosts', same⟩
  rw [List.map_nil, List.toFinset_nil, Finset.sdiff_empty] at same
  exact ⟨same ▸ hosts', done.learned⟩

end RibManager

variable {nets : Finset IpNet} {env : Env}

theorem RibState.apply_hosts {event : RibEvent} (hosts : state.rib.locRib.Hosts nets)
    (keeps : KeepsOrigins state event) :
    (state.apply env event).rib.locRib.Hosts (event.originates nets) := by
  cases event with
  | addPath networks attrs =>
    rcases keeps with ⟨rfl, distinct, addable⟩
    exact RibManager.addPath_hosts hosts distinct addable
  | deletePath family networks =>
    exact (RibManager.deletePath_hosts hosts keeps.1 keeps.2).1
  | installPaths neighbor paths => exact (RibManager.installPaths_hosts keeps).final hosts
  | dropPaths neighbor family pathIds => exact RibManager.dropPaths_hosts.final ⟨hosts, keeps⟩
  | _ => cases keeps

theorem RibState.run_hosts {events : List RibEvent} (hosts : state.rib.locRib.Hosts nets)
    (steps : AllSteps (RibState.apply env) KeepsOrigins state events) :
    (state.run env events).rib.locRib.Hosts (events.foldl RibEvent.originates nets) := by
  induction events generalizing state nets with
  | nil => exact hosts
  | cons event rest ih => exact ih (RibState.apply_hosts hosts steps.1) steps.2

abbrev routerRib (asn : UInt32) (routerId : Ipv4Addr) (endpoint : Bool) (tableId : UInt8)
    (multiPath : Bool) : RibManager :=
  .new asn routerId endpoint tableId [.ipv4, .ipv6] multiPath

/-- As long as every event keeps the origins, the local paths are one for each network that was
added and not deleted since, and a deletion takes no path of a peer away. -/
theorem RibState.run_originates {env : Env} {asn : UInt32} {routerId : Ipv4Addr} {endpoint : Bool}
    {tableId : UInt8} {multiPath : Bool} {events : List RibEvent}
    (steps : AllSteps (RibState.apply env) KeepsOrigins
      (.start (routerRib asn routerId endpoint tableId multiPath)) events) :
    (RibState.run env (.start (routerRib asn routerId endpoint tableId multiPath))
        events).rib.locRib.Originates (events.foldl RibEvent.originates ∅) ∧
      ∀ earlier family networks, events = earlier ++ [.deletePath family networks] → ∀ afi pfx,
        learnedPaths ((RibState.run env (.start (routerRib asn routerId endpoint tableId multiPath))
            events).rib.locRib.paths afi pfx) =
          learnedPaths ((RibState.run env (.start
            (routerRib asn routerId endpoint tableId multiPath))
            earlier).rib.locRib.paths afi pfx) := by
  refine ⟨(run_hosts (LocRib.Hosts.new multiPath) steps).originates, ?_⟩
  rintro earlier family networks rfl afi pfx
  have before := run_hosts (LocRib.Hosts.new multiPath) steps.of_append
  rcases steps.append_right with ⟨keeps, _⟩
  rw [RibState.run, List.foldl_append]
  exact (RibManager.deletePath_hosts before keeps.1 keeps.2).2 afi pfx

theorem RibState.run_originates_of_readded :
    (RibState.run sampleEnv (.start (routerRib 65000 sampleRouter false 254 false))
        [.addPath [sampleNet] [], .installPaths (sampleNeighbor 0x02020202 65001)
          [samplePath 7 0x02020202 65001 100 [65001]], .deletePath .ipv4Unicast [sampleNet],
          .addPath [sampleNet] []]).rib.locRib.Originates {sampleNet} :=
  (RibState.run_originates (by decide)).1

/-- A network that is added again is stored again. -/
theorem RibState.run_not_originates :
    ¬(RibState.run sampleEnv (.start (routerRib 65000 sampleRouter false 254 false))
        [.addPath [sampleNet] [], .addPath [sampleNet] []]).rib.locRib.Originates
      ([.addPath [sampleNet] [], .addPath [sampleNet] []].foldl RibEvent.originates ∅) := by
  intro originates
  have counted := originates .ipv4 sampleNet
  revert counted
  decide

end Sart
