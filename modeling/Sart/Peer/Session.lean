import Sart.Rib.Manager

/-!
# A peer and its Adj-RIB-In

A peer keeps the routes its neighbour announced, one path for each network, and
forwards every change to the RIB manager.  A message that carries withdrawn
routes is handled as a withdrawal only.
-/

namespace Sart

open Sart.Lib Sart.Lib.Effect

structure Table where
  inner : AList fun _ : IpNet => Path
  received : ℕ
  dropped : ℕ

namespace Table

def new : Table := ⟨∅, 0, 0⟩

def insert (table : Table) (pfx : IpNet) (path : Path) : Option Path × Table :=
  (table.inner.lookup pfx,
    { table with inner := table.inner.insert pfx path, received := table.received + 1 })

def remove (table : Table) (pfx : IpNet) : Option Path × Table :=
  (table.inner.lookup pfx,
    { table with inner := table.inner.erase pfx, dropped := table.dropped + 1 })

def get (table : Table) (pfx : IpNet) : Option Path := table.inner.lookup pfx

def getAll (table : Table) : List Path := table.inner.entries.map fun entry => entry.2

end Table

structure AdjRib where
  table : AList fun _ : AddressFamily => Table

namespace AdjRib

def new (families : List AddressFamily) : AdjRib :=
  ⟨families.foldl (fun table family => table.insert family Table.new) ∅⟩

def insert (rib : AdjRib) (family : AddressFamily) (pfx : IpNet) (path : Path) :
    Except RibError (Option Path) × AdjRib :=
  match rib.table.lookup family with
  | some table =>
    (.ok (table.insert pfx path).1, ⟨rib.table.insert family (table.insert pfx path).2⟩)
  | none => (.error .addressFamilyNotSet, rib)

def get (rib : AdjRib) (family : AddressFamily) (pfx : IpNet) : Option Path :=
  match rib.table.lookup family with
  | some table => table.get pfx
  | none => none

def getAll (rib : AdjRib) (family : AddressFamily) : Option (List Path) :=
  match rib.table.lookup family with
  | some table => if table.inner.entries.isEmpty then none else some table.getAll
  | none => none

def remove (rib : AdjRib) (family : AddressFamily) (pfx : IpNet) : Option Path × AdjRib :=
  match rib.table.lookup family with
  | some table => ((table.remove pfx).1, ⟨rib.table.insert family (table.remove pfx).2⟩)
  | none => (none, rib)

def clear (rib : AdjRib) : AdjRib :=
  ⟨rib.table.keys.foldl (fun table family => table.insert family Table.new) rib.table⟩

/-- Paths are stored under their networks. -/
def WellFiled (rib : AdjRib) : Prop :=
  ∀ family pfx path, rib.get family pfx = some path → path.pfx = pfx

def Registered (rib : AdjRib) (family : AddressFamily) : Prop := (rib.table.lookup family).isSome
  deriving Decidable

variable {rib : AdjRib} {family : AddressFamily}

theorem insert_result (registered : rib.Registered family) (pfx : IpNet) (path : Path) :
    ∃ old, (rib.insert family pfx path).1 = .ok old := by
  rcases Option.isSome_iff_exists.mp registered with ⟨table, found⟩
  exact ⟨(table.insert pfx path).1, by simp only [insert, found]⟩

theorem get_insert (registered : rib.Registered family) (pfx : IpNet) (path : Path)
    (other : AddressFamily) (net : IpNet) : (rib.insert family pfx path).2.get other net =
      if other = family ∧ net = pfx then some path else rib.get other net := by
  rcases Option.isSome_iff_exists.mp registered with ⟨table, found⟩
  by_cases sameFamily : other = family
  · subst sameFamily
    by_cases here : net = pfx
    · subst here
      simp [insert, get, found, Table.insert, Table.get]
    · simp [insert, get, found, Table.insert, Table.get, here, AList.lookup_insert_ne]
  · simp [insert, get, found, sameFamily, AList.lookup_insert_ne]

theorem registered_insert (rib : AdjRib) (family : AddressFamily) (pfx : IpNet) (path : Path)
    (other : AddressFamily) :
    (rib.insert family pfx path).2.Registered other ↔ rib.Registered other := by
  unfold insert Registered
  cases found : rib.table.lookup family with
  | none => rfl
  | some table =>
    by_cases sameFamily : other = family
    · subst sameFamily
      simp [found]
    · simp [sameFamily, AList.lookup_insert_ne]

theorem remove_result (rib : AdjRib) (family : AddressFamily) (pfx : IpNet) :
    (rib.remove family pfx).1 = rib.get family pfx := by
  unfold remove get
  cases rib.table.lookup family <;> rfl

theorem get_remove (rib : AdjRib) (family : AddressFamily) (pfx : IpNet) (other : AddressFamily)
    (net : IpNet) : (rib.remove family pfx).2.get other net =
      if other = family ∧ net = pfx then none else rib.get other net := by
  unfold remove get
  cases found : rib.table.lookup family with
  | none =>
    by_cases sameFamily : other = family
    · subst sameFamily
      simp [found]
    · simp [sameFamily]
  | some table =>
    by_cases sameFamily : other = family
    · subst sameFamily
      by_cases here : net = pfx
      · subst here
        simp [Table.remove, Table.get]
      · simp [found, Table.remove, Table.get, here, AList.lookup_erase_ne]
    · simp [sameFamily, AList.lookup_insert_ne]

theorem registered_remove (rib : AdjRib) (family : AddressFamily) (pfx : IpNet)
    (other : AddressFamily) : (rib.remove family pfx).2.Registered other ↔
      rib.Registered other := by
  unfold remove Registered
  cases found : rib.table.lookup family with
  | none => rfl
  | some table =>
    by_cases sameFamily : other = family
    · subst sameFamily
      simp [found]
    · simp [sameFamily, AList.lookup_insert_ne]

variable (families : List AddressFamily)

theorem foldl_insert_new (table : AList fun _ : AddressFamily => Table) (family : AddressFamily) :
    (families.foldl (fun table family => table.insert family Table.new) table).lookup family =
      if family ∈ families then some Table.new else table.lookup family := by
  induction families generalizing table with
  | nil => simp
  | cons first rest ih =>
    rw [List.foldl_cons, ih]
    by_cases here : family = first
    · subst here
      simp
    · simp [here, AList.lookup_insert_ne]

theorem get_new (family : AddressFamily) (pfx : IpNet) : (new families).get family pfx = none := by
  simp only [new, get, foldl_insert_new]
  split_ifs <;> simp [Table.new, Table.get]

theorem registered_new (family : AddressFamily) :
    (new families).Registered family ↔ family ∈ families := by
  simp only [new, Registered, foldl_insert_new]
  split_ifs with member <;> simp [member]

theorem get_clear (rib : AdjRib) (family : AddressFamily) (pfx : IpNet) :
    rib.clear.get family pfx = none := by
  simp only [clear, get, foldl_insert_new]
  split_ifs with known
  · simp [Table.new, Table.get]
  · rw [AList.lookup_eq_none.mpr (by simpa [AList.mem_keys] using known)]

theorem getAll_eq_some {paths : List Path} (all : rib.getAll family = some paths)
    (nets : ∀ pfx path, rib.get family pfx = some path → path.pfx = pfx) :
    (paths.map Path.pfx).Nodup ∧ ∀ path, path ∈ paths ↔ rib.get family path.pfx = some path := by
  unfold getAll at all
  split at all
  · rename_i table found
    have stored : ∀ pfx path, rib.get family pfx = some path ↔
        (⟨pfx, path⟩ : Sigma fun _ => Path) ∈ table.inner.entries := by
      simp [get, found, Table.get, AList.mem_lookup_iff.symm]
    split_ifs at all
    simp only [Option.some.injEq] at all
    subst all
    have own : ∀ entry ∈ table.inner.entries, entry.2.pfx = entry.1 := fun entry member =>
      nets entry.1 entry.2 ((stored entry.1 entry.2).mpr member)
    constructor
    · have keys : (table.getAll.map Path.pfx) = table.inner.keys := by
        unfold Table.getAll AList.keys List.keys
        rw [List.map_map]
        exact List.map_congr_left own
      rw [keys]
      exact table.inner.nodupKeys
    · intro path
      rw [stored]
      constructor
      · intro member
        rcases List.mem_map.mp member with ⟨entry, entryMem, rfl⟩
        rw [own entry entryMem]
        exact entryMem
      · exact fun member => List.mem_map.mpr ⟨_, member, rfl⟩
  · simp at all

theorem get_of_getAll_eq_none (empty : rib.getAll family = none) (pfx : IpNet) :
    rib.get family pfx = none := by
  unfold getAll at empty
  unfold get
  split at empty
  · split_ifs at empty with vacant
    rw [List.isEmpty_iff] at vacant
    simp [Table.get, AList.lookup, vacant]
  · rfl

theorem get_of_not_registered (missing : ¬rib.Registered family) (pfx : IpNet) :
    rib.get family pfx = none := by
  simp only [Registered, Option.not_isSome_iff_eq_none] at missing
  simp only [get, missing]

theorem registered_clear (rib : AdjRib) (family : AddressFamily) :
    rib.clear.Registered family ↔ rib.Registered family := by
  simp only [clear, Registered, foldl_insert_new]
  split_ifs with known
  · simpa [AList.lookup_isSome, AList.mem_keys] using known
  · rfl

end AdjRib

structure Neighbor where
  asn : UInt32
  routerId : Ipv4Addr
  addr : IpAddr
  deriving DecidableEq

def Neighbor.pair (neighbor : Neighbor) : NeighborPair := ⟨neighbor.addr, neighbor.asn⟩

structure PeerInfo where
  neighbor : Neighbor
  asn : UInt32
  routerId : Ipv4Addr
  families : List AddressFamily
  deriving DecidableEq

structure Peer where
  info : PeerInfo
  adjRibIn : AdjRib

abbrev PeerM := Effect Peer Error

def IpNet.unicast : IpNet → AddressFamily
  | .v4 _ => .ipv4Unicast
  | .v6 _ => .ipv6Unicast

@[simp]
theorem IpNet.afi_unicast (net : IpNet) : net.unicast.afi = net.afi := by cases net <;> rfl

namespace Peer

def new (info : PeerInfo) : Peer := ⟨info, .new info.families⟩

def withAdjRib (peer : Peer) (adjRib : AdjRib) : Peer := { peer with adjRibIn := adjRib }

def withdrawRoute (collected : AddressFamily × List (IpNet × UInt64) × AdjRib)
    (withdraw : Prefix) : AddressFamily × List (IpNet × UInt64) × AdjRib :=
  match collected.2.2.remove withdraw.inner.unicast withdraw.inner with
  | (some path, rib) =>
    (withdraw.inner.unicast, collected.2.1 ++ [(path.pfx, path.id)], rib)
  | (none, rib) => (withdraw.inner.unicast, collected.2.1, rib)

@[simp]
theorem adjRibIn_withAdjRib (peer : Peer) (rib : AdjRib) : (peer.withAdjRib rib).adjRibIn = rib :=
  rfl

def withdrawRoutes (rib : AdjRib) (withdrawnRoutes : List Prefix) :
    AddressFamily × List (IpNet × UInt64) × AdjRib :=
  withdrawnRoutes.foldl withdrawRoute (.ipv4Unicast, [], rib)

theorem withdrawRoute_eq (family : AddressFamily) (ids : List (IpNet × UInt64)) (rib : AdjRib)
    (net : Prefix) :
    withdrawRoute (family, ids, rib) net =
      (net.inner.unicast, ids ++ ((rib.get net.inner.unicast net.inner).map fun path =>
        (path.pfx, path.id)).toList, (rib.remove net.inner.unicast net.inner).2) := by
  rw [withdrawRoute, ← AdjRib.remove_result]
  rcases rib.remove net.inner.unicast net.inner with ⟨_ | path, left⟩ <;> simp

theorem withdrawRoutes_family (withdrawn : List Prefix) (start : AddressFamily)
    (ids : List (IpNet × UInt64)) (adj : AdjRib) :
    (withdrawn.foldl withdrawRoute (start, ids, adj)).1 =
      ((withdrawn.getLast?).map fun net => net.inner.unicast).getD start := by
  rcases List.eq_nil_or_concat withdrawn with rfl | ⟨front, last, rfl⟩
  · rfl
  rw [List.concat_eq_append, List.foldl_append, List.foldl_cons, List.foldl_nil,
    withdrawRoute_eq]
  simp

/-- Store an announced path, unless the own AS number stands in its AS path. -/
def acceptPath (path : Path) : PeerM (List Path) :=
  if path.hasOwnAs then pure []
  else fun peer =>
    match peer.adjRibIn.insert path.family path.pfx path with
    | (.ok _, rib) => (.ok [path], peer.withAdjRib rib)
    | (.error cause, rib) => (.error (.rib cause), peer.withAdjRib rib)

variable {path : Path} {peer : Peer}

theorem acceptPath_own (own : path.hasOwnAs = true) (peer : Peer) :
    acceptPath path peer = (.ok [], peer) := by
  simp [acceptPath, own, pure_apply]

theorem acceptPath_stored (foreign : path.hasOwnAs = false)
    (registered : peer.adjRibIn.Registered path.family) :
    acceptPath path peer =
      (.ok [path], peer.withAdjRib (peer.adjRibIn.insert path.family path.pfx path).2) := by
  rcases AdjRib.insert_result registered path.pfx path with ⟨old, result⟩
  rcases ran : peer.adjRibIn.insert path.family path.pfx path with ⟨outcome, inserted⟩
  rw [ran] at result
  subst result
  simp [acceptPath, foreign, ran]

theorem acceptPath_refused (foreign : path.hasOwnAs = false)
    (missing : ¬peer.adjRibIn.Registered path.family) :
    acceptPath path peer = (.error (.rib .addressFamilyNotSet), peer) := by
  have unset : peer.adjRibIn.table.lookup path.family = none := by
    simpa [AdjRib.Registered] using missing
  simp [acceptPath, foreign, AdjRib.insert, unset, withAdjRib]

def announcedPaths (info : PeerInfo) (hash : PathBuilder → UInt64) (clock : ℕ → ℕ)
    (attributes : List Attribute) (nlri : List Prefix) : Outcome Error (List Path) := do
  let builder ← (PathBuilder.builder info.routerId info.asn info.neighbor.routerId
    info.neighbor.addr info.neighbor.asn).attrs attributes
  (builder.addNlri nlri).build hash clock

def handleUpdateMsg (hash : PathBuilder → UInt64) (clock : ℕ → ℕ)
    (withdrawnRoutes : List Prefix) (attributes : List Attribute) (nlri : List Prefix) :
    PeerM RibEvent := do
  let peer ← Effect.read id
  let removed := withdrawRoutes peer.adjRibIn withdrawnRoutes
  if withdrawnRoutes.isEmpty then
    let paths ← lift (announcedPaths peer.info hash clock attributes nlri)
    let propagated ← collect acceptPath paths
    pure (.installPaths peer.info.neighbor.pair propagated)
  else
    Effect.modify fun peer => peer.withAdjRib removed.2.2
    pure (.dropPaths peer.info.neighbor.pair removed.1 removed.2.1)

variable {hash : PathBuilder → UInt64} {clock : ℕ → ℕ}

theorem handleUpdateMsg_withdrawn {withdrawnRoutes : List Prefix} (some : withdrawnRoutes ≠ [])
    (attributes : List Attribute) (nlri : List Prefix) (peer : Peer) :
    handleUpdateMsg hash clock withdrawnRoutes attributes nlri peer =
      (.ok (.dropPaths peer.info.neighbor.pair (withdrawRoutes peer.adjRibIn withdrawnRoutes).1
        (withdrawRoutes peer.adjRibIn withdrawnRoutes).2.1),
        peer.withAdjRib (withdrawRoutes peer.adjRibIn withdrawnRoutes).2.2) := by
  have nonempty : withdrawnRoutes.isEmpty = false := by simpa using some
  unfold handleUpdateMsg
  simp only [bind_apply, Effect.read, id_eq, nonempty, Bool.false_eq_true, if_false,
    Effect.modify, pure_apply]

variable {attributes : List Attribute} {nlri : List Prefix}

theorem handleUpdateMsg_failed
    (failed : ∀ paths, announcedPaths peer.info hash clock attributes nlri ≠ .ok paths) :
    (handleUpdateMsg hash clock [] attributes nlri peer).2 = peer ∧
    ∀ event, (handleUpdateMsg hash clock [] attributes nlri peer).1 ≠ .ok event := by
  unfold handleUpdateMsg
  rw [bind_apply]
  simp only [Effect.read, id_eq, List.isEmpty_nil, if_true]
  rw [bind_apply]
  simp only [lift]
  cases result : announcedPaths peer.info hash clock attributes nlri with
  | ok paths => exact absurd result (failed paths)
  | error cause => simp
  | panic => simp

theorem handleUpdateMsg_announced {paths : List Path}
    (built : announcedPaths peer.info hash clock attributes nlri = .ok paths) :
    handleUpdateMsg hash clock [] attributes nlri peer =
      (do
        let accepted ← collect acceptPath paths
        pure (.installPaths peer.info.neighbor.pair accepted) : PeerM RibEvent) peer := by
  unfold handleUpdateMsg
  rw [bind_apply]
  simp only [Effect.read, id_eq, List.isEmpty_nil, if_true]
  rw [bind_apply]
  simp only [lift, built]

def releaseEvents (peer : Peer) : List RibEvent :=
  peer.info.families.filterMap fun family =>
    (peer.adjRibIn.getAll family).map fun paths =>
      .dropPaths peer.info.neighbor.pair family (paths.map fun path => (path.pfx, path.id))

def release (peer : Peer) : List RibEvent × Peer :=
  (peer.releaseEvents, peer.withAdjRib peer.adjRibIn.clear)

end Peer

structure Session where
  peer : Peer
  rib : RibState

inductive SessionStep where
  | update (withdrawnRoutes : List Prefix) (attributes : List Attribute) (nlri : List Prefix)
  | release
  deriving DecidableEq

namespace Session

/-- The peer handles a message, and the manager the event that follows.  A message that the
peer fails on leads to no event. -/
def apply (env : Env) (session : Session) : SessionStep → Session
  | .update withdrawnRoutes attributes nlri =>
    match Peer.handleUpdateMsg env.hash (env.clock session.rib.sent) withdrawnRoutes attributes
      nlri session.peer with
    | (.ok event, peer) => ⟨peer, session.rib.apply env event⟩
    | (_, peer) => ⟨peer, session.rib⟩
  | .release => ⟨session.peer.release.2, session.rib.run env session.peer.release.1⟩

def run (env : Env) (session : Session) (steps : List SessionStep) : Session :=
  steps.foldl (apply env) session

end Session

end Sart
