import Sart.Lib.Comparator
import Sart.Path

/-!
# The Loc-RIB

`insert` walks along the stored list and stops at the first path over which the
new one is preferred by *some* comparison function; `drop` removes the first
path with the given identifier and marks a successor.  Both are written here on
the list of one network (`insertInto`, `dropFrom`) and lifted to the table.
-/

namespace Sart

open Sart.Lib

abbrev ComparisonFunc := Path → Path → Ordering

def compareWeight : ComparisonFunc := fun _ _ => .eq

def compareLocalPref : ComparisonFunc := fun a b => compare b.localPref a.localPref

def compareLocalOriginated : ComparisonFunc := fun a b =>
  if a.isLocalOriginated = b.isLocalOriginated then .eq
  else if a.isLocalOriginated then .lt
  else .gt

def compareAsPath : ComparisonFunc := fun a b =>
  compare a.asSequence.length b.asSequence.length

def compareOrigin : ComparisonFunc := fun a b => compare a.origin b.origin

def compareMed : ComparisonFunc := fun a b => compare a.med b.med

def compareExternal : ComparisonFunc := fun a b =>
  if decide (a.localAsn = a.peerAsn) = decide (b.localAsn = b.peerAsn) then .eq
  else if a.localAsn ≠ a.peerAsn then .lt
  else .gt

def compareOlderRoute : ComparisonFunc := fun a b =>
  if decide (a.localAsn ≠ a.peerAsn) = decide (b.localAsn ≠ b.peerAsn) then
    compare a.timestamp b.timestamp
  else .eq

def comparePeerRouterId : ComparisonFunc := fun a b => compare a.peerId b.peerId

def comparePeerAddr : ComparisonFunc := fun a b => compare a.peerAddr b.peerAddr

def getComparisonFuncs (multiPath : Bool) : List (BestPathReason × ComparisonFunc) :=
  let funcs : List (BestPathReason × ComparisonFunc) :=
    [ (.weight, compareWeight),
      (.localPref, compareLocalPref),
      (.localOriginated, compareLocalOriginated),
      (.asPath, compareAsPath),
      (.origin, compareOrigin),
      (.multiExitDisc, compareMed),
      (.external, compareExternal) ]
  if multiPath then funcs
  else funcs ++
    [ (.olderRoute, compareOlderRoute),
      (.routerId, comparePeerRouterId),
      (.peerAddr, comparePeerAddr) ]

def comparisons (multiPath : Bool) : List ComparisonFunc :=
  (getComparisonFuncs multiPath).map Prod.snd

/-- The order the list of comparison functions stands for: the first one that tells two
paths apart decides. -/
def pathOrder (multiPath : Bool) : ComparisonFunc := lexCompare (comparisons multiPath)

def firstLess (multiPath : Bool) (path other : Path) : Option BestPathReason :=
  ((getComparisonFuncs multiPath).find? fun entry => entry.2 path other == .lt).map Prod.fst

def prefersPath (multiPath : Bool) (path other : Path) : Bool :=
  prefersBySome (comparisons multiPath) path other

inductive LocRibStatus where
  | notChanged
  | withdrawn (pfx : IpNet) (kind : PathKind)
  | bestPathChanged (pfx : IpNet) (id : UInt64)
  | multiPathAdded
  | multiPathWithdrawn (pfx : IpNet) (id : UInt64) (nextHop : Option IpAddr)
  deriving DecidableEq

def rposition {α : Type} (test : α → Bool) : List α → Option ℕ
  | [] => none
  | value :: rest =>
    match rposition test rest with
    | some index => some (index + 1)
    | none => if test value then some 0 else none

/-- The walk of `insert`: how many stored paths the new path stays behind, and the reason
it is placed before the next one. -/
def selectPosition (multiPath : Bool) (path : Path) : List Path → ℕ × BestPathReason
  | [] => (0, .notBest)
  | stored :: rest =>
    match firstLess multiPath path stored with
    | some reason => (0, reason)
    | none =>
      let (index, reason) := selectPosition multiPath path rest
      (index + 1, reason)

namespace Path

/-- Stored paths equal to an inserted one take over its time stamp. -/
def refresh (path stored : Path) : Path :=
  if stored.eq path then { stored with timestamp := path.timestamp } else stored

def unmark (path : Path) : Path := { path with best := false, reason := .notBest }

def markBest (path : Path) (reason : BestPathReason) : Path :=
  { path with best := true, reason := reason }

def joinEqualCost (path : Path) : Path := { path with reason := .equalCostMiltiPath }

end Path

def insertInto (multiPath : Bool) (path : Path) (paths : List Path) :
    Except Error LocRibStatus × List Path :=
  if paths.isEmpty then
    (.ok (.bestPathChanged path.pfx path.id), [path.markBest .onlyPath])
  else
    match rposition Path.best paths with
    | none => (.error (.rib .pathNotFound), paths)
    | some bestIdx =>
      let paths := paths.map path.refresh
      let (idx, reason) := selectPosition multiPath path paths
      if multiPath then
        if idx ≤ bestIdx then
          (.ok (.bestPathChanged path.pfx path.id),
            (paths.map fun stored => if stored.best then stored.unmark else stored).insertIdx
              idx (path.markBest reason))
        else if bestIdx + 1 = idx then
          if paths[bestIdx]?.any path.isEqualCost then
            (.ok .multiPathAdded,
              (paths.modify bestIdx Path.joinEqualCost).insertIdx idx
                (path.markBest .equalCostMiltiPath))
          else (.ok .notChanged, paths.insertIdx idx path)
        else (.ok .notChanged, paths.insertIdx idx path)
      else if idx = 0 then
        (.ok (.bestPathChanged path.pfx path.id),
          (paths.modify 0 Path.unmark).insertIdx 0 (path.markBest reason))
      else (.ok .notChanged, paths.insertIdx idx path)

def splitById (id : UInt64) : List Path → Option (List Path × Path × List Path)
  | [] => none
  | stored :: rest =>
    if stored.id = id then some ([], stored, rest)
    else
      match splitById id rest with
      | none => none
      | some (before, removed, after) => some (stored :: before, removed, after)

/-- The pairwise scan of `drop`: starting from the new best path, mark every further path
of equal cost to its predecessor, up to the first that is not. -/
def markEqualCost : Path → List Path → List Path
  | current, [] => [current]
  | current, next :: rest =>
    if current.isEqualCost next then
      current.joinEqualCost :: markEqualCost (next.markBest .equalCostMiltiPath) rest
    else current :: next :: rest

def dropFrom (multiPath : Bool) (pfx : IpNet) (before : List Path) (removed : Path)
    (after : List Path) : LocRibStatus × List Path :=
  let paths := before ++ after
  if removed.best then
    match paths with
    | [] => (.withdrawn pfx removed.kind, [])
    | [only] => (.bestPathChanged pfx only.id, [only.markBest .onlyPath])
    | first :: second :: rest =>
      let chosen :=
        first.markBest ((firstLess multiPath first second).getD first.reason)
      if multiPath then
        if before.isEmpty then
          if first.best then
            (.multiPathWithdrawn pfx first.id removed.nextHops.head?, paths)
          else if chosen.reason = .notBest ∨ chosen.reason = .equalCostMiltiPath then
            (.bestPathChanged pfx first.id, markEqualCost chosen (second :: rest))
          else (.bestPathChanged pfx first.id, chosen :: second :: rest)
        else (.multiPathWithdrawn pfx first.id removed.nextHops.head?, paths)
      else (.bestPathChanged pfx first.id, chosen :: second :: rest)
  else (.notChanged, paths)

structure LocRib where
  table : AList fun _ : Afi => AList fun _ : IpNet => List Path
  multiPath : Bool
  received : ℕ
  dropped : ℕ

namespace LocRib

def new (protocols : List Afi) (multiPath : Bool) : LocRib where
  table := protocols.foldl (fun table protocol => table.insert protocol ∅) ∅
  multiPath := multiPath
  received := 0
  dropped := 0

def get (rib : LocRib) (family : AddressFamily) (pfx : IpNet) : Option (List Path) :=
  match rib.table.lookup family.afi with
  | some table => table.lookup pfx
  | none => none

def getById (rib : LocRib) (family : AddressFamily) (pfx : IpNet) (id : UInt64) :
    Option Path :=
  match rib.get family pfx with
  | some paths => paths.find? fun path => path.id == id
  | none => none

def getAllBest (rib : LocRib) (family : AddressFamily) : Option (List Path) :=
  match rib.table.lookup family.afi with
  | some table =>
    match table.entries.filterMap fun entry => entry.2.head? with
    | [] => none
    | best => some best
  | none => none

def getAll (rib : LocRib) (family : AddressFamily) : Option (List Path) :=
  (rib.table.lookup family.afi).map fun table => table.entries.flatMap fun entry => entry.2

/-- The list of paths stored for a network, empty when the table has no entry for it. -/
def paths (rib : LocRib) (afi : Afi) (pfx : IpNet) : List Path :=
  ((rib.table.lookup afi).bind fun table => table.lookup pfx).getD []

def store (rib : LocRib) (afi : Afi) (pfx : IpNet) (paths : List Path) : LocRib :=
  match rib.table.lookup afi with
  | some table => { rib with table := rib.table.insert afi (table.insert pfx paths) }
  | none => rib

def insert (rib : LocRib) (family : AddressFamily) (path : Path) :
    Except Error LocRibStatus × LocRib :=
  match rib.table.lookup family.afi with
  | none => (.error (.rib .invalidAddressFamily), rib)
  | some table =>
    let rib := { rib with received := rib.received + 1 }
    match table.lookup path.pfx with
    | some paths =>
      let (result, paths) := insertInto rib.multiPath path paths
      (result, rib.store family.afi path.pfx paths)
    | none =>
      (.ok (.bestPathChanged path.pfx path.id),
        rib.store family.afi path.pfx [path.markBest .onlyPath])

def drop (rib : LocRib) (family : AddressFamily) (pfx : IpNet) (id : UInt64) :
    Except Error LocRibStatus × LocRib :=
  match rib.table.lookup family.afi with
  | none => (.error (.rib .invalidAddressFamily), rib)
  | some table =>
    match table.lookup pfx with
    | none => (.error (.rib .pathNotFound), rib)
    | some paths =>
      if paths.isEmpty then (.error (.rib .pathNotFound), rib)
      else
        let rib := { rib with dropped := rib.dropped + 1 }
        match splitById id paths with
        | none => (.error (.rib .pathNotFound), rib)
        | some (before, removed, after) =>
          let (status, paths) := dropFrom rib.multiPath pfx before removed after
          (.ok status, rib.store family.afi pfx paths)

end LocRib

end Sart
