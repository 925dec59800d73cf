import Sart.Rib.Handling

/-!
# Split horizon

A path must not be offered to the peer it was learned from, and a path learned
over iBGP not to another iBGP peer.  `installPaths` compares the neighbour of the
event, `init` offers internal paths of other neighbours to an iBGP peer, and
`dropPaths` does not look at the source of the successor at all.
-/

namespace Sart

open Sart.Lib Sart.Lib.Effect

variable {path : Path} {peer neighbor : NeighborPair} {family : AddressFamily} {locRib : LocRib}
  {paths : List Path}

namespace Path

def LearnedFrom (path : Path) (peer : NeighborPair) : Prop :=
  path.peerAddr = peer.addr ∧ path.peerAsn = peer.asn
  deriving Decidable

def SameSource (path other : Path) : Prop :=
  path.kind = other.kind ∧ path.peerAddr = other.peerAddr ∧ path.peerAsn = other.peerAsn
  deriving Decidable

variable {other : Path}

theorem SameSource.symm (same : path.SameSource other) :
    other.SameSource path := ⟨same.1.symm, same.2.1.symm, same.2.2.symm⟩

theorem SameSource.trans {third : Path} (first : path.SameSource other)
    (second : other.SameSource third) : path.SameSource third :=
  ⟨first.1.trans second.1, first.2.1.trans second.2.1, first.2.2.trans second.2.2⟩

theorem SameSource.learnedFrom_iff (same : path.SameSource other) (peer : NeighborPair) :
    path.LearnedFrom peer ↔ other.LearnedFrom peer := by
  unfold LearnedFrom
  rw [same.2.1, same.2.2]

theorem sameSource_of_unmarked (same : path.unmarked = other.unmarked) : path.SameSource other := by
  have kinds : path.unmarked.kind = other.unmarked.kind := by rw [same]
  have addrs : path.unmarked.peerAddr = other.unmarked.peerAddr := by rw [same]
  have asns : path.unmarked.peerAsn = other.unmarked.peerAsn := by rw [same]
  exact ⟨kinds, addrs, asns⟩

theorem LearnedFrom.unique (learned : path.LearnedFrom peer)
    (learned' : path.LearnedFrom neighbor) : peer = neighbor := by
  rcases peer with ⟨addr, asn⟩
  rcases neighbor with ⟨addr', asn'⟩
  simp only [NeighborPair.mk.injEq]
  exact ⟨learned.1.symm.trans learned'.1, learned.2.symm.trans learned'.2⟩

theorem kind_of_ne_local (notLocal : path.kind ≠ .local) :
    path.kind = if path.localAsn = path.peerAsn then .internal else .external := by
  have notSame : path.localId ≠ path.peerId := by
    intro sameId
    exact notLocal (by simp [kind, sameId])
  simp [kind, notSame]

theorem asn_eq_of_internal (internal : path.kind = .internal) : path.localAsn = path.peerAsn := by
  unfold kind at internal
  split_ifs at internal with sameId sameAsn
  exact sameAsn

end Path

def Offerable (asn : UInt32) (peer : NeighborPair) (path : Path) : Prop :=
  ¬path.LearnedFrom peer ∧ (peer.asn = asn → path.kind ≠ .internal)
  deriving Decidable

theorem offerable_of_labels {asn : UInt32} (localAsn : path.localAsn = asn)
    (unspecified : path.kind = .local → path.peerAddr = .v4 0) (specified : peer.addr ≠ .v4 0)
    (external : path.kind = .external → ¬path.LearnedFrom peer)
    (internal : path.kind = .internal → asn ≠ peer.asn) : Offerable asn peer path := by
  cases kind : path.kind with
  | «local» =>
    refine ⟨?_, by simp [kind]⟩
    rintro ⟨addr, _⟩
    exact specified (addr.symm.trans (unspecified kind))
  | external => exact ⟨external kind, by simp [kind]⟩
  | internal =>
    refine ⟨?_, fun sameAsn => absurd sameAsn.symm (internal kind)⟩
    rintro ⟨_, peerAsn⟩
    apply internal kind
    rw [← localAsn, Path.asn_eq_of_internal kind, peerAsn]

def Allowed (asn : UInt32) : Output → Prop
  | .send peer (.advertise paths) => ∀ path ∈ paths, Offerable asn peer path
  | _ => True

/-- The stored paths are labelled with the AS of the router, locally originated ones with the
unspecified address, and an identifier stands for one source. -/
structure Sourced (rib : RibManager) : Prop where
  localAsn : ∀ afi pfx, ∀ path ∈ rib.locRib.paths afi pfx, path.localAsn = rib.asn
  unspecified : ∀ afi pfx, ∀ path ∈ rib.locRib.paths afi pfx,
    path.kind = .local → path.peerAddr = .v4 0
  sameSource : ∀ afi pfx, ∀ path ∈ rib.locRib.paths afi pfx,
    ∀ other ∈ rib.locRib.paths afi pfx, path.id = other.id → path.SameSource other
  peers : ∀ peer ∈ rib.peers, peer.addr ≠ .v4 0

namespace Sourced

variable {rib : RibManager}

theorem insert (sourced : Sourced rib) (localAsn : path.localAsn = rib.asn)
    (unspecified : path.kind = .local → path.peerAddr = .v4 0)
    (fresh : ∀ stored ∈ rib.locRib.paths family.afi path.pfx, stored.id = path.id →
      stored.SameSource path) :
    Sourced { rib with locRib := (rib.locRib.insert family path).2 } := by
  refine ⟨?_, ?_, ?_, sourced.peers⟩
  · exact LocRib.forall_mem_insert (fun _ _ path => path.localAsn = rib.asn) sourced.localAsn
      localAsn
  · exact LocRib.forall_mem_insert (fun _ _ path => path.kind = .local → path.peerAddr = .v4 0)
      sourced.unspecified unspecified
  · exact LocRib.RelatedIds.insert Path.SameSource (fun _ _ same => same.symm) sourced.sameSource
      ⟨rfl, rfl, rfl⟩ fresh

theorem drop (sourced : Sourced rib) (family : AddressFamily) (net : IpNet) (id : UInt64) :
    Sourced { rib with locRib := (rib.locRib.drop family net id).2 } := by
  refine ⟨?_, ?_, ?_, sourced.peers⟩
  · exact LocRib.forall_mem_drop (fun _ _ path => path.localAsn = rib.asn) sourced.localAsn
  · exact LocRib.forall_mem_drop (fun _ _ path => path.kind = .local → path.peerAddr = .v4 0)
      sourced.unspecified
  · exact LocRib.RelatedIds.drop Path.SameSource sourced.sameSource

theorem offerable (sourced : Sourced rib) {afi : Afi} {pfx : IpNet}
    (stored : path ∈ rib.locRib.paths afi pfx) (registered : peer ∈ rib.peers)
    (external : path.kind = .external → ¬path.LearnedFrom peer)
    (internal : path.kind = .internal → rib.asn ≠ peer.asn) : Offerable rib.asn peer path :=
  offerable_of_labels (sourced.localAsn afi pfx path stored)
    (sourced.unspecified afi pfx path stored) (sourced.peers peer registered) external internal

end Sourced

/-- What an event keeps: the labels, the AS of the router, and that all it sent so far
respects the rule. -/
structure Horizon (asn : UInt32) (past : List Output) (state : RibState) : Prop where
  sourced : Sourced state.rib
  sameAsn : state.rib.asn = asn
  allowed : ∃ new, state.sent = past ++ new ∧ ∀ out ∈ new, Allowed asn out

namespace Horizon

variable {asn : UInt32} {past : List Output} {state : RibState}

theorem put (horizon : Horizon asn past state) {out : Output} (allowed : Allowed asn out) :
    Horizon asn past (state.put out) := by
  rcases horizon.allowed with ⟨new, sent, newAllowed⟩
  refine ⟨horizon.sourced, horizon.sameAsn, new ++ [out], by simp [RibState.put, sent], ?_⟩
  intro other otherMem
  rcases List.mem_append.mp otherMem with otherMem | otherMem
  · exact newAllowed other otherMem
  · rw [List.mem_singleton.mp otherMem]
    exact allowed

theorem withLocRib (horizon : Horizon asn past state)
    (sourced : Sourced { state.rib with locRib := locRib }) :
    Horizon asn past (state.withLocRib locRib) :=
  ⟨sourced, horizon.sameAsn, horizon.allowed⟩

end Horizon

namespace RibManager

open RibM

variable {env : Env} {asn : UInt32} {past : List Output}

/-- All paths with the identifier of a changed entry may be offered where they are not
skipped. -/
def OffersAllowed (family : AddressFamily)
    (skip : RibManager → NeighborPair → PathKind → Bool) (changed : List (IpNet × UInt64))
    (rib : RibManager) : Prop :=
  ∀ entry ∈ changed, ∀ stored ∈ rib.locRib.paths family.afi entry.1, stored.id = entry.2 →
    ∀ peer ∈ rib.peers, skip rib peer stored.kind = false → Offerable rib.asn peer stored

theorem advertise_keeps {skip : RibManager → NeighborPair → PathKind → Bool}
    {changed : List (IpNet × UInt64)} :
    Spec (fun state => Horizon asn past state ∧ OffersAllowed family skip changed state.rib)
      (advertise env family skip changed) (fun _ => Horizon asn past)
      (fun _ => Horizon asn past) := by
  refine (advertise_spec (fun rest state => (Horizon asn past state ∧
    OffersAllowed family skip changed state.rib) ∧ ∀ peer ∈ rest, peer ∈ state.rib.peers)
    ?_ ?_ ?_).conseq ?_ ?_
  · rintro state peer rest ⟨holds, registered⟩ _
    exact ⟨holds, fun other otherMem => registered other (by simp [otherMem])⟩
  · rintro state peer rest paths ⟨⟨horizon, offers⟩, registered⟩ result
    refine ⟨⟨horizon.put ?_, offers⟩, fun other otherMem => registered other (by simp [otherMem])⟩
    intro path pathMem
    rcases mem_of_advertised_eq_ok result pathMem with ⟨entry, entryMem, found, notSkipped⟩
    rw [LocRib.getById_eq] at found
    have stored := List.mem_of_find?_eq_some found
    have sameId : path.id = entry.2 := by simpa using List.find?_some found
    rw [← horizon.sameAsn]
    exact offers entry entryMem path stored sameId peer (registered peer (by simp)) notSkipped
  · exact fun state peer rest cause holds => holds.1.1
  · exact fun state holds => ⟨holds, fun peer member => member⟩
  · exact fun _ state holds => holds.1.1

structure FromOneSource (asn : UInt32) (neighbor : NeighborPair) (paths : List Path) : Prop where
  sameSource : ∀ path ∈ paths, ∀ other ∈ paths, path.SameSource other
  localAsn : ∀ path ∈ paths, path.localAsn = asn
  unspecified : ∀ path ∈ paths, path.kind = .local → path.peerAddr = .v4 0
  external : ∀ path ∈ paths, path.kind = .external → path.LearnedFrom neighbor

def SourceIds (family : AddressFamily) (paths : List Path) (locRib : LocRib) : Prop :=
  ∀ path ∈ paths, ∀ stored ∈ locRib.paths family.afi path.pfx, stored.id = path.id →
    stored.SameSource path
  deriving Decidable

theorem SourceIds.insert (ids : SourceIds family paths locRib)
    (source : FromOneSource asn neighbor paths) (member : path ∈ paths) :
    SourceIds family paths (locRib.insert family path).2 := by
  intro other otherMem stored storedMem sameId
  rcases LocRib.mem_insert storedMem with ⟨_, _, same⟩ | ⟨old, oldMem, same⟩
  · exact (Path.sameSource_of_unmarked same).trans (source.sameSource path member other otherMem)
  · exact (Path.sameSource_of_unmarked same).trans
      (ids other otherMem old oldMem ((Path.id_of_unmarked same).symm.trans sameId))

structure Installing (asn : UInt32) (past : List Output) (family : AddressFamily)
    (paths : List Path) (state : RibState) : Prop where
  horizon : Horizon asn past state
  ids : SourceIds family paths state.rib.locRib

theorem Installing.fibStable : FibStable (Installing asn past family paths) :=
  fun _ _ installing => ⟨installing.horizon.put trivial, installing.ids⟩

variable {state : RibState} {status : LocRibStatus} {rib : RibManager}
  {pathIds : List (IpNet × UInt64)}

theorem Installing.insert (installing : Installing asn past family paths state)
    (source : FromOneSource asn neighbor paths) (member : path ∈ paths) :
    Installing asn past family paths
      (state.withLocRib (state.rib.locRib.insert family path).2) := by
  refine ⟨installing.horizon.withLocRib ?_, installing.ids.insert source member⟩
  refine installing.horizon.sourced.insert ?_ (source.unspecified path member)
    (installing.ids path member)
  rw [installing.horizon.sameAsn]
  exact source.localAsn path member

theorem changedBy_of_insert (returned : (locRib.insert family path).1 = .ok status) :
    ∀ entry ∈ changedBy status, entry = (path.pfx, path.id) := by
  rcases LocRib.insert_ok returned with ⟨_, inserted, _⟩
  cases inserted <;> simp [changedBy]

variable {applyToFib : Bool}

theorem installLoop_keeps (source : FromOneSource asn neighbor paths) :
    Spec (Installing asn past family paths)
      (collect (installPath env family applyToFib) paths)
      (fun changed state => Installing asn past family paths state ∧
        ∀ entry ∈ changed, ∃ path ∈ paths, entry = (path.pfx, path.id))
      (fun _ => Horizon asn past) := by
  refine (Spec.collect (fun todo changed state => Installing asn past family paths state ∧
    (∀ path ∈ todo, path ∈ paths) ∧
    ∀ entry ∈ changed, ∃ path ∈ paths, entry = (path.pfx, path.id)) ?_ paths []).conseq ?_ ?_
  · intro path rest collected
    refine (installPath_spec (fun status state => Installing asn past family paths state ∧
      (∀ other ∈ path :: rest, other ∈ paths) ∧
      (∀ entry ∈ collected, ∃ path ∈ paths, entry = (path.pfx, path.id)) ∧
      ∀ entry ∈ changedBy status, entry = (path.pfx, path.id)) ?_ ?_ ?_ ?_).implies ?_
    · exact fun status state request holds => ⟨Installing.fibStable _ _ holds.1, holds.2⟩
    · rintro state status ⟨installing, todo, done⟩ returned
      exact ⟨installing.insert source (todo path (by simp)), todo, done,
        changedBy_of_insert returned⟩
    · rintro state cause ⟨installing, todo, _⟩ _
      exact (installing.insert source (todo path (by simp))).horizon
    · exact fun _ _ state holds _ _ => holds.1.horizon
    · rintro changed state ⟨status, ⟨installing, todo, done, new⟩, rfl⟩
      refine ⟨installing, fun other otherMem => todo other (by simp [otherMem]), ?_⟩
      intro entry entryMem
      rcases List.mem_append.mp entryMem with entryMem | entryMem
      · exact done entry entryMem
      · exact ⟨path, todo path (by simp), new entry entryMem⟩
  · exact fun state installing => ⟨installing, fun _ member => member, by simp⟩
  · exact fun changed state holds => ⟨holds.1, by simpa using holds.2.2⟩

theorem installPaths_keeps (source : FromOneSource asn neighbor paths) :
    Spec (fun state => Horizon asn past state ∧ ∀ first ∈ paths.head?,
        SourceIds first.family paths state.rib.locRib)
      (installPaths env neighbor paths applyToFib)
      (fun _ => Horizon asn past) (fun _ => Horizon asn past) := by
  cases paths with
  | nil => exact Spec.pure fun state holds => holds.1
  | cons first rest =>
    refine ((installLoop_keeps source).conseq
      (fun state holds => ⟨holds.1, holds.2 first (by simp)⟩) (fun _ _ holds => holds)).bind
      fun changed => ?_
    refine advertise_keeps.conseq ?_ fun _ _ holds => holds
    rintro state ⟨installing, entries⟩
    refine ⟨installing.horizon, ?_⟩
    intro entry entryMem stored storedMem sameId peer registered notSkipped
    rcases entries entry entryMem with ⟨path, pathMem, rfl⟩
    have origin := installing.ids path pathMem stored storedMem sameId
    refine installing.horizon.sourced.offerable storedMem registered ?_ ?_
    · intro external learned
      rw [external] at notSkipped
      have fromNeighbor := source.external path pathMem (origin.1.symm.trans external)
      rw [← origin.learnedFrom_iff] at fromNeighbor
      simp only [skips, beq_eq_false_iff_ne] at notSkipped
      exact notSkipped (learned.unique fromNeighbor)
    intro internal
    rw [internal] at notSkipped
    simpa [skips] using notSkipped

/-- The path that takes over from a dropped one was not learned over eBGP from a registered
peer. -/
def SuccessorAllowed (family : AddressFamily) (peers : List NeighborPair) (locRib : LocRib)
    (pathId : IpNet × UInt64) : Prop :=
  ∀ parts ∈ splitById pathId.2 (locRib.paths family.afi pathId.1),
    ∀ next ∈ (parts.1 ++ parts.2.2).head?,
      Succeeds locRib.multiPath parts.1 parts.2.1 parts.2.2 next → next.kind = .external →
        ∀ peer ∈ peers, ¬next.LearnedFrom peer
  deriving Decidable

def SuccessorsAllowed (family : AddressFamily) (rib : RibManager)
    (pathIds : List (IpNet × UInt64)) : Prop :=
  AllSteps (fun locRib pathId => (LocRib.drop locRib family pathId.1 pathId.2).2)
    (SuccessorAllowed family rib.peers) rib.locRib pathIds
  deriving Decidable

/-- External paths with the identifier of an announced successor come from no registered
peer. -/
def AdvertsAllowed (family : AddressFamily) (notices : List Notice) (rib : RibManager) : Prop :=
  ∀ pfx id, Notice.advertise pfx id ∈ notices →
    ∀ stored ∈ rib.locRib.paths family.afi pfx, stored.id = id → stored.kind = .external →
      ∀ peer ∈ rib.peers, ¬stored.LearnedFrom peer

theorem AdvertsAllowed.drop {notices : List Notice} (allowed : AdvertsAllowed family notices rib)
    (pathId : IpNet × UInt64) :
    AdvertsAllowed family notices
      { rib with locRib := (rib.locRib.drop family pathId.1 pathId.2).2 } := by
  intro pfx id member stored storedMem sameId external peer registered learned
  rcases LocRib.mem_drop storedMem with ⟨old, oldMem, same⟩
  have origin := Path.sameSource_of_unmarked same
  exact allowed pfx id member old oldMem ((Path.id_of_unmarked same).symm.trans sameId)
    (origin.1.symm.trans external) peer registered ((origin.learnedFrom_iff peer).mp learned)

theorem noticesOf_drop_allowed (sourced : Sourced rib) {pathId : IpNet × UInt64}
    (successor : SuccessorAllowed family rib.peers rib.locRib pathId)
    (returned : (rib.locRib.drop family pathId.1 pathId.2).1 = .ok status) :
    AdvertsAllowed family (noticesOf status)
      { rib with locRib := (rib.locRib.drop family pathId.1 pathId.2).2 } := by
  rcases LocRib.drop_ok returned with ⟨before, removed, after, _, split, list, dropped, _⟩
  have reported : ∀ next rest, before ++ after = next :: rest →
      Succeeds rib.locRib.multiPath before removed after next →
      AdvertsAllowed family [.advertise pathId.1 next.id]
        { rib with locRib := (rib.locRib.drop family pathId.1 pathId.2).2 } := by
    intro next rest shape succeeds pfx id member stored storedMem sameId external peer registered
    simp only [List.mem_singleton, Notice.advertise.injEq] at member
    rcases member with ⟨rfl, rfl⟩
    rcases LocRib.mem_drop storedMem with ⟨old, oldMem, same⟩
    have nextMem := LocRib.mem_of_mem_others list (by simp [shape] : next ∈ before ++ after)
    have origin := (Path.sameSource_of_unmarked same).trans
      (sourced.sameSource _ _ old oldMem next nextMem
        ((Path.id_of_unmarked same).symm.trans sameId))
    rw [origin.learnedFrom_iff]
    exact successor _ split next (by simp [shape]) succeeds (origin.1.symm.trans external) peer
      registered
  cases dropped with
  | succeeded succeeds shape | recomputed succeeds shape _ _ => exact reported _ _ shape succeeds
  | unchanged _ | emptied _ _ | left _ _ _ _ =>
    intro pfx id member
    simp [noticesOf] at member

theorem dropLoop_keeps :
    Spec (fun state => Horizon asn past state ∧ SuccessorsAllowed family state.rib pathIds)
      (collect (dropPath env family applyToFib) pathIds)
      (fun notices state => Horizon asn past state ∧ AdvertsAllowed family notices state.rib)
      (fun _ => Horizon asn past) := by
  refine (Spec.collect (fun todo notices state => Horizon asn past state ∧
    SuccessorsAllowed family state.rib todo ∧ AdvertsAllowed family notices state.rib) ?_
    pathIds []).conseq ?_ ?_
  · intro pathId rest collected
    refine (dropPath_spec (fun status state => Horizon asn past state ∧
      SuccessorsAllowed family state.rib rest ∧ AdvertsAllowed family collected state.rib ∧
      AdvertsAllowed family (noticesOf status) state.rib) ?_ ?_ ?_ ?_).implies ?_
    · exact fun status state request holds => ⟨holds.1.put trivial, holds.2⟩
    · rintro state status ⟨horizon, ⟨now, later⟩, done⟩ returned
      exact ⟨horizon.withLocRib (horizon.sourced.drop _ _ _), later, done.drop pathId,
        noticesOf_drop_allowed horizon.sourced now returned⟩
    · rintro state cause ⟨horizon, _⟩ _
      exact horizon.withLocRib (horizon.sourced.drop _ _ _)
    · exact fun _ _ state holds _ _ => holds.1
    · rintro notices state ⟨status, ⟨horizon, later, done, new⟩, rfl⟩
      refine ⟨horizon, later, ?_⟩
      intro pfx id member
      rcases List.mem_append.mp member with member | member
      · exact done pfx id member
      · exact new pfx id member
  · rintro state ⟨horizon, allowed⟩
    exact ⟨horizon, allowed, fun pfx id member => by simp at member⟩
  · rintro notices state ⟨horizon, _, allowed⟩
    exact ⟨horizon, by simpa using allowed⟩

theorem dropPaths_keeps :
    Spec (fun state => Horizon asn past state ∧ SuccessorsAllowed family state.rib pathIds)
      (dropPaths env neighbor family pathIds applyToFib)
      (fun _ => Horizon asn past) (fun _ => Horizon asn past) := by
  refine dropLoop_keeps.bind fun notices => ?_
  refine (withdraw_spec (fun _ state => Horizon asn past state ∧
    AdvertsAllowed family notices state.rib) ?_ ?_ ?_).bind fun _ => ?_
  · exact fun state peer rest holds _ => holds
  · exact fun state peer rest holds _ => ⟨holds.1.put trivial, holds.2⟩
  · exact fun state peer rest cause holds => holds.1
  refine advertise_keeps.conseq ?_ fun _ _ holds => holds
  rintro state ⟨horizon, allowed⟩
  refine ⟨horizon, ?_⟩
  intro entry entryMem stored storedMem sameId peer registered notSkipped
  rcases List.mem_filterMap.mp entryMem with ⟨notice, noticeMem, noticeEq⟩
  cases notice with
  | withdraw pfx kind => simp [Notice.advertise?] at noticeEq
  | advertise pfx id =>
    simp only [Notice.advertise?, Option.some.injEq] at noticeEq
    subst noticeEq
    refine horizon.sourced.offerable storedMem registered ?_ ?_
    · exact fun external => allowed pfx id noticeMem stored storedMem sameId external peer
        registered
    intro internal
    rw [internal] at notSkipped
    simpa [skipsSuccessor] using notSkipped

theorem head_of_mem_getAllBest {bests : List Path} (found : locRib.getAllBest family = some bests)
    {best : Path} (member : best ∈ bests) :
    ∃ pfx, (locRib.paths family.afi pfx).head? = some best := by
  unfold LocRib.getAllBest at found
  cases entry : locRib.table.lookup family.afi with
  | none => simp [entry] at found
  | some table =>
    simp only [entry] at found
    split at found
    · cases found
    simp only [Option.some.injEq] at found
    subst found
    rcases List.mem_filterMap.mp member with ⟨⟨pfx, stored⟩, entryMem, head⟩
    refine ⟨pfx, ?_⟩
    have lookup : table.lookup pfx = some stored := AList.mem_lookup_iff.mpr entryMem
    simpa [LocRib.paths, entry, lookup] using head

theorem offerable_of_initFilter (sourced : Sourced rib) {afi : Afi} {pfx : IpNet}
    (stored : path ∈ rib.locRib.paths afi pfx) (registered : neighbor ∈ rib.peers)
    (passes : rib.initFilter neighbor path = true)
    (internal : rib.asn = neighbor.asn → path.kind = .internal → path.peerAddr = neighbor.addr) :
    Offerable rib.asn neighbor path := by
  simp only [initFilter, Bool.or_eq_true, bne_iff_ne, ne_eq] at passes
  refine sourced.offerable stored registered ?_ ?_
  · rintro external ⟨addr, asn⟩
    rcases passes with otherAddr | passes
    · exact otherAddr addr
    split_ifs at passes with sameAsn
    -- an external path from the address of an iBGP peer would carry another AS number
    have sourceAsn := sourced.localAsn _ _ path stored
    unfold Path.kind at external
    split_ifs at external with sameId sameAs
    exact sameAs (sourceAsn.trans (sameAsn.trans asn.symm))
  intro isInternal sameAsn
  rcases passes with otherAddr | passes
  · exact otherAddr (internal sameAsn isInternal)
  · simp [sameAsn, isInternal] at passes

/-- An iBGP peer comes up while the internal best paths of the family are its own. -/
def InitAllowed (family : AddressFamily) (neighbor : NeighborPair) (rib : RibManager) : Prop :=
  rib.asn = neighbor.asn → ∀ bests ∈ rib.locRib.getAllBest family, ∀ best ∈ bests,
    best.kind = .internal → best.peerAddr = neighbor.addr
  deriving Decidable

theorem init_keeps :
    Spec (fun state => Horizon asn past state ∧ InitAllowed family neighbor state.rib)
      (init env family neighbor) (fun _ => Horizon asn past) (fun _ => Horizon asn past) := by
  refine Spec.read.bind fun rib => ?_
  split
  · rename_i paths found
    split_ifs with registered
    · refine output_spec ?_ fun state cause holds _ => holds.2.1
      rintro state ⟨rfl, horizon, internal⟩
      refine horizon.put ?_
      intro path pathMem
      rcases List.mem_filter.mp pathMem with ⟨pathMem, passes⟩
      rcases head_of_mem_getAllBest found pathMem with ⟨pfx, head⟩
      rw [← horizon.sameAsn]
      exact offerable_of_initFilter horizon.sourced (List.mem_of_mem_head? head) registered passes
        fun sameAsn => internal sameAsn paths found path pathMem
    · exact Spec.fail fun state holds => holds.2.1
  · exact Spec.pure fun state holds => holds.2.1

theorem addPathBuild_source {networks : List IpNet} {attrs : List Attribute}
    (built : addPathBuild env state networks attrs = .ok paths) (neighbor : NeighborPair) :
    FromOneSource state.rib.asn neighbor paths := by
  rcases Outcome.bind_eq_ok.mp built with ⟨builder, attrsOk, buildOk⟩
  have origin := PathBuilder.attrs_sameOrigin attrsOk
  have label : ∀ path ∈ paths, path.localAsn = state.rib.asn ∧ path.peerAsn = state.rib.asn ∧
      path.peerAddr = .v4 0 ∧ path.kind = .local := by
    intro path pathMem
    rcases PathBuilder.mem_of_build_eq_ok buildOk pathMem with ⟨_, _, _, _, _, rfl⟩
    refine ⟨origin.localAsn, origin.peerAsn, origin.peerAddr, ?_⟩
    have sameId : builder.localId = builder.peerId := origin.localId.trans origin.peerId.symm
    simp [Path.kind, PathBuilder.path, PathBuilder.addNlri, sameId]
  refine ⟨?_, fun path member => (label path member).1,
    fun path member _ => (label path member).2.2.1, ?_⟩
  · intro path member other otherMem
    rcases label path member with ⟨_, asn, addr, kind⟩
    rcases label other otherMem with ⟨_, asn', addr', kind'⟩
    exact ⟨kind.trans kind'.symm, addr.trans addr'.symm, asn.trans asn'.symm⟩
  intro path member external
  rw [(label path member).2.2.2] at external
  cases external

end RibManager

def LocRib.Vacant (locRib : LocRib) : Prop :=
  ∀ family ∈ locRib.table.entries, ∀ entry ∈ family.2.entries, entry.2 = []
  deriving Decidable

theorem LocRib.Vacant.paths_eq_nil (vacant : locRib.Vacant) (afi : Afi) (pfx : IpNet) :
    locRib.paths afi pfx = [] := by
  unfold LocRib.paths
  cases found : locRib.table.lookup afi with
  | none => rfl
  | some table =>
    cases entry : table.lookup pfx with
    | none => simp [entry]
    | some stored =>
      have empty := vacant ⟨afi, table⟩ (AList.mem_lookup_iff.mp found) ⟨pfx, stored⟩
        (AList.mem_lookup_iff.mp entry)
      simpa [entry] using empty

/-- The AS number changes only while no path is stored; an iBGP peer comes up when no internal path
of another neighbour is best; installed paths are labelled with their neighbour; no two sources
share an identifier; and no dropped path is succeeded by one learned over eBGP from a registered
peer. -/
def KeepsSplitHorizon (env : Env) (state : RibState) : RibEvent → Prop
  | .setAsn asn => asn = state.rib.asn ∨ state.rib.locRib.Vacant
  | .addPeer neighbor => neighbor.addr ≠ .v4 0
  | .init family neighbor => RibManager.InitAllowed family neighbor state.rib
  | .addPath networks attrs =>
    (RibManager.addPathBuild env state networks attrs).Forall fun paths =>
      ∀ first ∈ paths.head?, RibManager.SourceIds first.family paths state.rib.locRib
  | .deletePath family networks => RibManager.SuccessorsAllowed family state.rib
      (state.rib.deletePathIds family networks)
  | .installPaths neighbor paths =>
    (∀ path ∈ paths, path.LearnedFrom neighbor ∧ path.localAsn = state.rib.asn ∧
      path.kind ≠ .local) ∧
    ∀ first ∈ paths.head?, RibManager.SourceIds first.family paths state.rib.locRib
  | .dropPaths _ family pathIds => RibManager.SuccessorsAllowed family state.rib pathIds
  | _ => True

instance (env : Env) (state : RibState) :
    (event : RibEvent) → Decidable (KeepsSplitHorizon env state event)
  | .setAsn _ => inferInstanceAs (Decidable (_ ∨ _))
  | .addPeer _ => inferInstanceAs (Decidable (_ ≠ _))
  | .init _ _ => inferInstanceAs (Decidable (RibManager.InitAllowed _ _ _))
  | .addPath _ _ => inferInstanceAs (Decidable (Outcome.Forall _ _))
  | .deletePath _ _ => inferInstanceAs (Decidable (RibManager.SuccessorsAllowed _ _ _))
  | .installPaths _ _ => inferInstanceAs (Decidable (_ ∧ ∀ _ ∈ _, _))
  | .dropPaths _ _ _ => inferInstanceAs (Decidable (RibManager.SuccessorsAllowed _ _ _))
  | .setRouterId _ | .setMultiPath _ | .deletePeer _ | .flush _ _ | .advertise _ | .withdraw _
  | .getPath _ | .getPathByPrefix _ _ => isTrue trivial

namespace RibManager

variable {env : Env} {asn : UInt32} {past : List Output}

theorem installPaths_source
    (labels : ∀ path ∈ paths, path.LearnedFrom neighbor ∧ path.localAsn = asn ∧
      path.kind ≠ .local) : FromOneSource asn neighbor paths := by
  refine ⟨?_, fun path member => (labels path member).2.1,
    fun path member isLocal => absurd isLocal (labels path member).2.2,
    fun path member _ => (labels path member).1⟩
  intro path member other otherMem
  rcases labels path member with ⟨learned, localAsn, notLocal⟩
  rcases labels other otherMem with ⟨learned', localAsn', notLocal'⟩
  refine ⟨?_, learned.1.trans learned'.1.symm, learned.2.trans learned'.2.symm⟩
  rw [Path.kind_of_ne_local notLocal, Path.kind_of_ne_local notLocal', localAsn, localAsn',
    learned.2, learned'.2]

theorem addPeer_keeps (specified : neighbor.addr ≠ .v4 0) :
    Spec (Horizon asn past) (addPeer neighbor) (fun _ => Horizon asn past)
      (fun _ => Horizon asn past) := by
  refine Spec.read.bind fun rib => ?_
  split_ifs
  · exact Spec.fail fun state holds => holds.2
  refine RibM.modifyRib_spec ?_
  rintro state ⟨rfl, horizon⟩
  refine ⟨⟨horizon.sourced.1, horizon.sourced.2, horizon.sourced.3, ?_⟩, horizon.sameAsn,
    horizon.allowed⟩
  intro peer registered
  simp only [peers, AList.keys_insert, List.mem_cons] at registered
  rcases registered with rfl | registered
  · exact specified
  · exact horizon.sourced.peers peer (List.mem_of_mem_erase registered)

theorem deletePeer_keeps :
    Spec (Horizon asn past) (deletePeer neighbor) (fun _ => Horizon asn past)
      (fun _ => Horizon asn past) := by
  refine Spec.read.bind fun rib => ?_
  split_ifs
  · refine RibM.modifyRib_spec ?_
    rintro state ⟨rfl, horizon⟩
    refine ⟨⟨horizon.sourced.1, horizon.sourced.2, horizon.sourced.3, ?_⟩, horizon.sameAsn,
      horizon.allowed⟩
    intro peer registered
    simp only [peers, AList.keys_erase] at registered
    exact horizon.sourced.peers peer (List.mem_of_mem_erase registered)
  · exact Spec.fail fun state holds => holds.2

theorem query_keeps (view : RibManager → Option (List Path)) :
    Spec (Horizon asn past) (do
      let rib ← Effect.read RibState.rib
      match view rib with
      | some paths => RibM.output env (.api paths)
      | none => pure ⟨⟩) (fun _ => Horizon asn past) (fun _ => Horizon asn past) := by
  refine Spec.read.bind fun rib => ?_
  split
  · exact RibM.output_spec (fun state holds => holds.2.put trivial) fun _ _ holds _ => holds.2
  · exact Spec.pure fun state holds => holds.2

variable {state : RibState}

theorem addPath_keeps {networks : List IpNet} {attrs : List Attribute}
    (horizon : Horizon state.rib.asn past state)
    (condition : KeepsSplitHorizon env state (.addPath networks attrs)) :
    Horizon state.rib.asn past (addPath env networks attrs state).2 := by
  simp only [KeepsSplitHorizon] at condition
  have run : addPath env networks attrs state =
      ((lift (addPathBuild env state networks attrs) : RibM (List Path)) >>= fun paths =>
        installPaths env ⟨.v4 state.rib.routerId, state.rib.asn⟩ paths false) state := rfl
  rw [run, bind_apply]
  cases built : addPathBuild env state networks attrs with
  | ok paths =>
    rw [built] at condition
    exact (installPaths_keeps (addPathBuild_source built _)).final ⟨horizon, condition⟩
  | error cause | panic => exact horizon

theorem apply_keeps {event : RibEvent} (sourced : Sourced state.rib)
    (condition : KeepsSplitHorizon env state event) :
    Sourced (state.apply env event).rib ∧ ∃ new, (state.apply env event).sent =
      state.sent ++ new ∧ ∀ out ∈ new, Allowed state.rib.asn out := by
  have start : Horizon state.rib.asn state.sent state := ⟨sourced, rfl, [], by simp, by simp⟩
  have finish : Horizon state.rib.asn state.sent (state.apply env event) →
      Sourced (state.apply env event).rib ∧ ∃ new, (state.apply env event).sent =
        state.sent ++ new ∧ ∀ out ∈ new, Allowed state.rib.asn out :=
    fun horizon => ⟨horizon.sourced, horizon.allowed⟩
  cases event with
  | setAsn asn =>
    refine ⟨?_, [], by simp [RibState.apply, handle, RibM.modifyRib], by simp⟩
    rcases condition with rfl | vacant
    · exact sourced
    · refine ⟨?_, ?_, ?_, sourced.peers⟩ <;> intro afi pfx path member <;>
        simp [RibState.apply, handle, RibM.modifyRib, vacant.paths_eq_nil] at member
  | setRouterId id => exact finish ⟨⟨sourced.1, sourced.2, sourced.3, sourced.4⟩, rfl,
      start.allowed⟩
  | setMultiPath enable =>
    exact finish ⟨⟨sourced.1, sourced.2, sourced.3, sourced.4⟩, rfl, start.allowed⟩
  | addPeer neighbor => exact finish ((addPeer_keeps condition).final start)
  | deletePeer neighbor => exact finish (deletePeer_keeps.final start)
  | init family neighbor => exact finish (init_keeps.final ⟨start, condition⟩)
  | flush family neighbor | advertise paths | withdraw networks => exact finish start
  | addPath networks attrs => exact finish (addPath_keeps start condition)
  | deletePath family networks | dropPaths neighbor family pathIds =>
    exact finish (dropPaths_keeps.final ⟨start, condition⟩)
  | installPaths neighbor paths =>
    exact finish ((installPaths_keeps (installPaths_source condition.1)).final
      ⟨start, condition.2⟩)
  | getPath family =>
    exact finish ((query_keeps fun rib => rib.locRib.getAll family).final start)
  | getPathByPrefix pfx family =>
    exact finish ((query_keeps fun rib => rib.locRib.get family pfx).final start)

theorem new_sourced (asn : UInt32) (routerId : Ipv4Addr) (endpoint : Bool) (tableId : UInt8)
    (protocols : List Afi) (multiPath : Bool) :
    Sourced (new asn routerId endpoint tableId protocols multiPath) := by
  refine ⟨?_, ?_, ?_, ?_⟩
  · intro afi pfx path member
    simp [new] at member
  · intro afi pfx path member
    simp [new] at member
  · intro afi pfx path member
    simp [new] at member
  · intro peer member
    simp [new, peers] at member

end RibManager

namespace RibState

variable {env : Env} {asn : UInt32} {routerId : Ipv4Addr} {endpoint : Bool} {tableId : UInt8}
  {protocols : List Afi} {multiPath : Bool} {events : List RibEvent} {event : RibEvent}

/-- In every run whose events keep the split horizon, no event makes the manager advertise a
path to the peer it was learned from, or an internal path to a peer in the AS of the router. -/
theorem run_split_horizon (steps : AllSteps (apply env) (KeepsSplitHorizon env)
      (start (.new asn routerId endpoint tableId protocols multiPath)) (events ++ [event])) :
    let state := (start (.new asn routerId endpoint tableId protocols multiPath)).run env events
    ∃ new, (state.apply env event).sent = state.sent ++ new ∧
      ∀ peer paths, .send peer (.advertise paths) ∈ new → ∀ path ∈ paths,
        ¬path.LearnedFrom peer ∧ (peer.asn = state.rib.asn → path.kind ≠ .internal) := by
  intro state
  have sourced : Sourced state.rib :=
    foldl_invariant (fun state : RibState => Sourced state.rib)
      (fun state event sourced condition => (RibManager.apply_keeps sourced condition).1)
      (RibManager.new_sourced ..) steps.of_append
  rcases RibManager.apply_keeps sourced steps.append_right.1 with ⟨_, new, sent, allowed⟩
  exact ⟨new, sent, fun peer paths member => allowed _ member⟩

theorem run_split_horizon_of_three :
    let events : List RibEvent :=
      [.addPeer (sampleNeighbor 0x0a000001 65001), .addPeer (sampleNeighbor 0x0a000002 65002),
        .addPeer (sampleNeighbor 0x0a000003 65000),
        .installPaths (sampleNeighbor 0x0a000003 65000)
          [samplePath 3 0x0a000003 65000 100 [64999]]]
    let event : RibEvent := .installPaths (sampleNeighbor 0x0a000001 65001)
      [samplePath 1 0x0a000001 65001 200 [65001]]
    let state := (start (sampleRib false)).run sampleEnv events
    state.sent.length = 2 ∧ (state.apply sampleEnv event).sent.length = 4 ∧
      ∃ new, (state.apply sampleEnv event).sent = state.sent ++ new ∧
        ∀ peer paths, .send peer (.advertise paths) ∈ new → ∀ path ∈ paths,
          ¬path.LearnedFrom peer ∧ (peer.asn = state.rib.asn → path.kind ≠ .internal) :=
  ⟨by decide, by decide, run_split_horizon (by decide)⟩

/-- When the better of two paths is dropped, the other one is advertised to its own source. -/
theorem run_not_split_horizon :
    ¬∀ (events : List RibEvent) (peer : NeighborPair) (paths : List Path) (path : Path),
      .send peer (.advertise paths) ∈ ((start (sampleRib false)).run sampleEnv events).sent →
      path ∈ paths → ¬path.LearnedFrom peer := by
  intro claim
  refine claim
    [.addPeer (sampleNeighbor 0x0a000001 65001), .addPeer (sampleNeighbor 0x0a000002 65002),
      .installPaths (sampleNeighbor 0x0a000001 65001)
        [samplePath 1 0x0a000001 65001 200 [65001]],
      .installPaths (sampleNeighbor 0x0a000002 65002)
        [samplePath 2 0x0a000002 65002 100 [65002, 64999]],
      .dropPaths (sampleNeighbor 0x0a000001 65001) .ipv4Unicast [(sampleNet, 1)]]
    (sampleNeighbor 0x0a000002 65002)
    [(samplePath 2 0x0a000002 65002 100 [65002, 64999]).markBest .onlyPath] _ ?_
    (List.mem_singleton_self _) ?_
  · decide
  · decide

end RibState

end Sart
