import Sart.Packet.Build

/-!
# Paths and their construction

A path is a route to one network with the marks the tables keep on it.
`PathBuilder` collects the attributes of one UPDATE and builds a path for each
network it announces.  All of them carry the same identifier, a hash of the
whole builder; the hash function and the clock are parameters here.
-/

namespace Sart

open Sart.Lib

inductive PathKind where
  | «local»
  | internal
  | external
  deriving DecidableEq

inductive BestPathReason where
  | onlyPath
  | weight
  | localPref
  | localOriginated
  | asPath
  | origin
  | multiExitDisc
  | external
  | igpMetric
  | olderRoute
  | routerId
  | peerAddr
  | equalCostMiltiPath
  | notBest
  deriving DecidableEq

structure Path where
  id : UInt64
  best : Bool
  reason : BestPathReason
  timestamp : ℕ
  localId : Ipv4Addr
  localAsn : UInt32
  peerId : Ipv4Addr
  peerAddr : IpAddr
  peerAsn : UInt32
  family : AddressFamily
  origin : UInt8
  localPref : UInt32
  med : UInt32
  asSequence : List UInt32
  asSet : List UInt32
  nextHops : List IpAddr
  propagateAttributes : List Attribute
  pfx : IpNet
  deriving DecidableEq

namespace Path

/-- The equality of the source: two paths are equal when *some* field agrees. -/
def eq (path other : Path) : Bool :=
  path.localId == other.localId
    || path.localAsn == other.localAsn
    || path.peerId == other.peerId
    || path.peerAddr == other.peerAddr
    || path.peerAsn == other.peerAsn
    || path.family == other.family
    || path.origin == other.origin
    || path.localPref == other.localPref
    || path.med == other.med
    || path.asSequence == other.asSequence
    || path.asSet == other.asSet
    || path.nextHops == other.nextHops
    || path.propagateAttributes == other.propagateAttributes
    || path.pfx == other.pfx

def isLocalOriginated (path : Path) : Bool := path.localId == path.peerId

def isExternal (path : Path) : Bool :=
  !path.isLocalOriginated && path.localAsn != path.peerAsn

def kind (path : Path) : PathKind :=
  if path.localId = path.peerId then .local
  else if path.localAsn = path.peerAsn then .internal
  else .external

def hasAs (path : Path) (asn : UInt32) : Bool :=
  path.asSequence.contains asn || path.asSet.contains asn

def hasOwnAs (path : Path) : Bool := path.hasAs path.localAsn

def isEqualCost (path other : Path) : Bool :=
  if path.localPref ≠ other.localPref then false
  else if path.asSequence.length ≠ other.asSequence.length then false
  else if path.origin ≠ other.origin then false
  else if path.med ≠ other.med then false
  else if decide (path.localAsn = path.peerAsn) ≠ decide (other.localAsn = other.peerAsn) then
    false
  else true

theorem eq_of_pfx {path other : Path} (same : path.pfx = other.pfx) : path.eq other = true := by
  simp [eq, same]

/-- The path without the marks and the time stamp the tables write on it. -/
def unmarked (path : Path) : Path :=
  { path with best := false, reason := .notBest, timestamp := 0 }

/-- A path as it is announced to a peer.  Only the paths that are sent on to an internal peer
keep their next hops. -/
def toOutgoing (path : Path) (isIbgp : Bool) (asn : UInt32) (nextHops : List IpAddr) : Path :=
  let path :=
    if path.kind = .internal ∧ !isIbgp then { path with origin := Attribute.ORIGIN_INCOMPLETE }
    else path
  let path := if !isIbgp then { path with asSequence := asn :: path.asSequence } else path
  if isIbgp ∧ path.kind = .external then path
  else
    let path := { path with nextHops := nextHops }
    if isIbgp ∧ path.localPref = 0 then { path with localPref := 100 } else path

variable (path : Path) (isIbgp : Bool) (asn : UInt32) (nextHops : List IpAddr)

@[simp]
theorem toOutgoing_pfx : (path.toOutgoing isIbgp asn nextHops).pfx = path.pfx := by
  unfold toOutgoing
  dsimp only
  split_ifs <;> rfl

@[simp]
theorem toOutgoing_family : (path.toOutgoing isIbgp asn nextHops).family = path.family := by
  unfold toOutgoing
  dsimp only
  split_ifs <;> rfl

/-- The AS path for a neighbour without four-octet AS numbers, with the large numbers in an
attribute of their own. -/
def asPathAttributes (path : Path) : List Attribute :=
  let as4Seq := path.asSequence.filter (· > Attribute.AS_2BYTES_LIMIT)
  let as4Set := path.asSet.filter (· > Attribute.AS_2BYTES_LIMIT)
  let asSeq := path.asSequence.map fun n =>
    if n > Attribute.AS_2BYTES_LIMIT then Attribute.AS_TRANS else n
  let small := path.asSet.filter (· ≤ Attribute.AS_2BYTES_LIMIT)
  let asSet := if small.length < path.asSet.length then small ++ [Attribute.AS_TRANS] else small
  Attribute.newAsPath asSeq asSet true ::
    if as4Seq.isEmpty && as4Set.isEmpty then [] else [Attribute.newAs4Path as4Seq as4Set true]

/-- The attributes of the UPDATE that announces the path.  An IPv6 next hop is left out. -/
def attributes (path : Path) (as4Enabled : Bool) : Outcome Error (List Attribute) := do
  let origin ← Attribute.newOrigin path.origin
  let asPath :=
    if as4Enabled then [Attribute.newAsPath path.asSequence path.asSet true]
    else path.asPathAttributes
  let nextHop ← match path.nextHops with
    | [] => .error (.updateMessage .invalidNextHopAttribute)
    | .v4 addr :: _ => .ok [Attribute.newNexthop addr]
    | .v6 _ :: _ => .ok []
  let localPref := if path.localPref ≠ 0 then [Attribute.newLocalPref path.localPref] else []
  let med := if path.med ≠ 0 then [Attribute.newMed path.med] else []
  .ok (origin :: asPath ++ nextHop ++ localPref ++ med)

end Path

structure PathBuilder where
  localId : Ipv4Addr
  localAsn : UInt32
  peerId : Ipv4Addr
  peerAddr : IpAddr
  peerAsn : UInt32
  family : AddressFamily
  nextHop : List IpAddr
  origin : UInt8
  asSequence : List UInt32
  asSet : List UInt32
  as4Sequence : List UInt32
  as4Set : List UInt32
  localPref : UInt32
  med : UInt32
  propagateAttrs : List Attribute
  nlri : List Prefix
  deriving DecidableEq

namespace PathBuilder

def builder (localId : Ipv4Addr) (localAsn : UInt32) (peerId : Ipv4Addr) (peerAddr : IpAddr)
    (peerAsn : UInt32) : PathBuilder where
  localId := localId
  localAsn := localAsn
  peerId := peerId
  peerAddr := peerAddr
  peerAsn := peerAsn
  family := .ipv4Unicast
  nextHop := []
  origin := Attribute.ORIGIN_IGP
  asSequence := []
  asSet := []
  as4Sequence := []
  as4Set := []
  localPref := 0
  med := 0
  propagateAttrs := []
  nlri := []

def builderLocal (localId : Ipv4Addr) (localAsn : UInt32) : PathBuilder :=
  builder localId localAsn localId (.v4 0) localAsn

def asSegment (builder : PathBuilder) (as4 : Bool) (segment : ASSegment) : PathBuilder :=
  if as4 then
    if segment.segmentType = Attribute.AS_SEQUENCE then
      { builder with as4Sequence := builder.as4Sequence ++ segment.segments }
    else { builder with as4Set := builder.as4Set ++ segment.segments }
  else if segment.segmentType = Attribute.AS_SEQUENCE then
    { builder with asSequence := builder.asSequence ++ segment.segments }
  else { builder with asSet := builder.asSet ++ segment.segments }

def asSegments (builder : PathBuilder) (segments : List ASSegment) (as4 : Bool) : PathBuilder :=
  segments.foldl (fun builder segment => builder.asSegment as4 segment) builder

def propagateAttr (builder : PathBuilder) (attr : Attribute) : PathBuilder :=
  { builder with propagateAttrs := builder.propagateAttrs ++ [attr] }

def addNlri (builder : PathBuilder) (nlri : List Prefix) : PathBuilder :=
  { builder with nlri := builder.nlri ++ nlri }

/-- Set the partial bit by addition: a set bit carries, and may overflow the octet. -/
def setPartial (base : Base) : Outcome Error Base :=
  if base.flag.toNat + Attribute.FLAG_PARTIAL.toNat < 256 then
    .ok { base with flag := base.flag + Attribute.FLAG_PARTIAL }
  else .panic

def attr (builder : PathBuilder) (attr : Attribute) : Outcome Error PathBuilder :=
  let builder :=
    if attr.isOptional && attr.isTransitive && attr.isRecognized then builder.propagateAttr attr
    else builder
  match attr with
  | .origin _ val => .ok { builder with origin := val }
  | .asPath _ segments => .ok (builder.asSegments segments false)
  | .nextHop _ addr => .ok { builder with nextHop := builder.nextHop ++ [.v4 addr] }
  | .multiExitDisc _ val => .ok { builder with med := val }
  | .localPref _ val => .ok { builder with localPref := val }
  | .mpReachNLRI _ family nextHops nlri =>
    .ok { builder with
      nextHop := builder.nextHop ++ nextHops
      nlri := builder.nlri ++ nlri
      family := family }
  | .as4Path _ segments => .ok (builder.asSegments segments true)
  | .unsupported base data =>
    if base.isOptional && base.isTransitive then do
      let base ← setPartial base
      .ok (builder.propagateAttr (.unsupported base data))
    else .ok (builder.propagateAttr (.unsupported base data))
  | .atomicAggregate _ | .aggregator _ _ _ | .communities _ _ | .extendedCommunities _ _ _
  | .mpUnReachNLRI _ _ _ | .as4Aggregator _ _ _ => .ok builder

def attrs (builder : PathBuilder) : List Attribute → Outcome Error PathBuilder
  | [] => .ok builder
  | attr :: rest => do
      let builder ← builder.attr attr
      builder.attrs rest

/-- Replace each two-octet placeholder by the next four-octet number.  The index runs on
through both lists of `build`. -/
def resolveTrans (as4 : List UInt32) : ℕ → List UInt32 → Outcome Error (List UInt32 × ℕ)
  | index, [] => .ok ([], index)
  | index, asn :: rest =>
    if asn = Attribute.AS_TRANS then
      match as4[index]? with
      | none => .panic
      | some asn4 => do
          let (resolved, last) ← resolveTrans as4 (index + 1) rest
          .ok (asn4 :: resolved, last)
    else do
      let (resolved, last) ← resolveTrans as4 index rest
      .ok (asn :: resolved, last)

def path (builder : PathBuilder) (id : UInt64) (asSequence asSet : List UInt32) (time : ℕ)
    (net : Prefix) : Path where
  id := id
  best := false
  reason := .notBest
  timestamp := time
  localId := builder.localId
  localAsn := builder.localAsn
  peerId := builder.peerId
  peerAddr := builder.peerAddr
  peerAsn := builder.peerAsn
  family := builder.family
  origin := builder.origin
  localPref := builder.localPref
  med := builder.med
  asSequence := asSequence
  asSet := asSet
  nextHops := builder.nextHop
  propagateAttributes := builder.propagateAttrs
  pfx := net.inner

/-- Build one path for each network.  `hash` is the standard hasher applied to the whole
builder, `clock` the readings of the system clock, one for each path. -/
def build (hash : PathBuilder → UInt64) (clock : ℕ → ℕ) (builder : PathBuilder) :
    Outcome Error (List Path) := do
  let (sequence, index) ← resolveTrans builder.as4Sequence 0 builder.asSequence
  let (set, _) ← resolveTrans builder.as4Sequence index builder.asSet
  .ok (builder.nlri.mapIdx fun i net => builder.path (hash builder) sequence set (clock i) net)

structure SameOrigin (builder other : PathBuilder) : Prop where
  localId : other.localId = builder.localId
  localAsn : other.localAsn = builder.localAsn
  peerId : other.peerId = builder.peerId
  peerAddr : other.peerAddr = builder.peerAddr
  peerAsn : other.peerAsn = builder.peerAsn

theorem SameOrigin.trans {builder other third : PathBuilder}
    (first : builder.SameOrigin other) (second : other.SameOrigin third) :
    builder.SameOrigin third :=
  ⟨second.localId.trans first.localId, second.localAsn.trans first.localAsn,
    second.peerId.trans first.peerId, second.peerAddr.trans first.peerAddr,
    second.peerAsn.trans first.peerAsn⟩

theorem asSegments_sameOrigin (builder : PathBuilder) (segments : List ASSegment) (as4 : Bool) :
    builder.SameOrigin (builder.asSegments segments as4) := by
  induction segments generalizing builder with
  | nil => exact ⟨rfl, rfl, rfl, rfl, rfl⟩
  | cons segment rest ih =>
    have step : builder.SameOrigin (builder.asSegment as4 segment) := by
      unfold asSegment
      split_ifs <;> exact ⟨rfl, rfl, rfl, rfl, rfl⟩
    exact step.trans (ih (builder.asSegment as4 segment))

variable {result : PathBuilder} {hash : PathBuilder → UInt64} {paths : List Path} {clock : ℕ → ℕ}

theorem attr_sameOrigin {builder : PathBuilder} {attr : Attribute}
    (ok : builder.attr attr = .ok result) : builder.SameOrigin result := by
  have propagated : builder.SameOrigin (if attr.isOptional && attr.isTransitive &&
      attr.isRecognized then builder.propagateAttr attr else builder) := by
    split_ifs <;> exact ⟨rfl, rfl, rfl, rfl, rfl⟩
  refine propagated.trans ?_
  unfold PathBuilder.attr at ok
  generalize (if attr.isOptional && attr.isTransitive && attr.isRecognized then
    builder.propagateAttr attr else builder) = start at ok ⊢
  cases attr with
  | asPath base segments | as4Path base segments =>
    simp only [Outcome.ok.injEq] at ok
    subst ok
    exact asSegments_sameOrigin _ _ _
  | unsupported base data =>
    dsimp only at ok
    split_ifs at ok
    · rcases Outcome.bind_eq_ok.mp ok with ⟨base, _, same⟩
      simp only [Outcome.ok.injEq] at same
      subst same
      exact ⟨rfl, rfl, rfl, rfl, rfl⟩
    simp only [Outcome.ok.injEq] at ok
    subst ok
    exact ⟨rfl, rfl, rfl, rfl, rfl⟩
  | _ =>
    simp only [Outcome.ok.injEq] at ok
    subst ok
    exact ⟨rfl, rfl, rfl, rfl, rfl⟩

theorem attrs_sameOrigin {builder : PathBuilder} {attrs : List Attribute}
    (ok : builder.attrs attrs = .ok result) : builder.SameOrigin result := by
  induction attrs generalizing builder with
  | nil =>
    simp only [PathBuilder.attrs, Outcome.ok.injEq] at ok
    subst ok
    exact ⟨rfl, rfl, rfl, rfl, rfl⟩
  | cons attr rest ih =>
    rcases Outcome.bind_eq_ok.mp ok with ⟨next, nextOk, restOk⟩
    exact (attr_sameOrigin nextOk).trans (ih restOk)

def asLists (builder : PathBuilder) : Outcome Error (List UInt32 × List UInt32) := do
  let sequence ← resolveTrans builder.as4Sequence 0 builder.asSequence
  let set ← resolveTrans builder.as4Sequence sequence.2 builder.asSet
  .ok (sequence.1, set.1)

theorem build_eq (hash : PathBuilder → UInt64) (clock : ℕ → ℕ) (builder : PathBuilder) :
    builder.build hash clock = builder.asLists >>= fun lists =>
      .ok (builder.nlri.mapIdx fun i net =>
        builder.path (hash builder) lists.1 lists.2 (clock i) net) := by
  simp only [build, asLists, Outcome.bind_assoc, Outcome.ok_bind]

theorem build_eq_ok {builder : PathBuilder} (ok : builder.build hash clock = .ok paths) :
    ∃ sequence set, paths = builder.nlri.mapIdx fun i net =>
      builder.path (hash builder) sequence set (clock i) net := by
  rw [build_eq] at ok
  rcases Outcome.bind_eq_ok.mp ok with ⟨⟨sequence, set⟩, _, built⟩
  simp only [Outcome.ok.injEq] at built
  exact ⟨sequence, set, built.symm⟩

theorem mem_of_build_eq_ok {builder : PathBuilder} (ok : builder.build hash clock = .ok paths)
    {path : Path} (member : path ∈ paths) :
    ∃ sequence set time net, net ∈ builder.nlri ∧
      path = builder.path (hash builder) sequence set time net := by
  rcases build_eq_ok ok with ⟨sequence, set, rfl⟩
  rcases List.mem_mapIdx.mp member with ⟨index, bound, rfl⟩
  exact ⟨sequence, set, clock index, _, List.getElem_mem bound, rfl⟩

end PathBuilder

/-! ## Sample announcements

Paths to one network as `PathBuilder` builds them on a router in AS 65000, for the concrete
runs that accompany the general statements. -/

def sampleNet : IpNet := .v4 (.ofLength 0x0a000000 24)

def sampleRouter : Ipv4Addr := 0x01010101

/-- An announcement of `sampleNet` by the neighbour with the given address and AS number. -/
def samplePath (id : UInt64) (peer : Ipv4Addr) (peerAsn : UInt32) (localPref : UInt32)
    (asSequence : List UInt32) : Path :=
  { PathBuilder.builder sampleRouter 65000 peer (.v4 peer) peerAsn with
    localPref := localPref
    nextHop := [.v4 peer] }.path id asSequence [] 0 ⟨sampleNet, none⟩

end Sart
