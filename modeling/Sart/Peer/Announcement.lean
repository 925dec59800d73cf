import Sart.Lib.Table
import Sart.Peer.Loop

/-!
# Announced paths

To a peer of the same AS a path goes with a LOCAL_PREF and its AS sequence; to another one without
LOCAL_PREF, with the own AS number in front and with the own address as next hop.

A LOCAL_PREF is put into the message whenever it is not zero, whoever the peer is.  And a next hop
that is an IPv6 address is not put into the message at all.
-/

namespace Sart

open Sart.Lib Sart.Lib.Effect

namespace Attribute

def sequence (segments : List ASSegment) : List UInt32 :=
  (segments.filter fun segment => segment.segmentType = AS_SEQUENCE).flatMap ASSegment.segments

def carriedLocalPref (attrs : List Attribute) : Option UInt32 :=
  attrs.findSome? fun attr =>
    match attr with
    | .localPref _ val => some val
    | _ => none

def carriedNextHop (attrs : List Attribute) : Option Ipv4Addr :=
  attrs.findSome? fun attr =>
    match attr with
    | .nextHop _ addr => some addr
    | _ => none

def carriedSequence (attrs : List Attribute) : Option (List UInt32) :=
  attrs.findSome? fun attr =>
    match attr with
    | .asPath _ segments => some (sequence segments)
    | _ => none

def carriedSequence4 (attrs : List Attribute) : Option (List UInt32) :=
  attrs.findSome? fun attr =>
    match attr with
    | .as4Path _ segments => some (sequence segments)
    | _ => none

/-- The AS sequence is announced.  Without four octets the large numbers have a placeholder, and
they follow in an attribute of their own. -/
def CarriesSequence (as4Enabled : Bool) (attrs : List Attribute)
    (asSequence : List UInt32) : Prop :=
  if as4Enabled then carriedSequence attrs = some asSequence
  else carriedSequence attrs = some (asSequence.map fun n => if n > AS_2BYTES_LIMIT then
    AS_TRANS else n) ∧
    (carriedSequence4 attrs).getD [] = asSequence.filter (· > AS_2BYTES_LIMIT)

theorem sequence_newSegments (asSequence asSet : List UInt32) :
    sequence (newSegments asSequence asSet) = asSequence := by
  have other : AS_SET ≠ AS_SEQUENCE := by decide
  unfold newSegments
  split_ifs <;> simp [sequence, other]

end Attribute

namespace Path

variable {path : Path} {as4Enabled : Bool} {attrs : List Attribute}

def asPathPart (path : Path) (as4Enabled : Bool) : List Attribute :=
  if as4Enabled then [Attribute.newAsPath path.asSequence path.asSet true] else
    path.asPathAttributes

def otherPart (path : Path) (nextHop : IpAddr) : List Attribute :=
  (match nextHop with
    | .v4 addr => [Attribute.newNexthop addr]
    | .v6 _ => []) ++
  (if path.localPref ≠ 0 then [Attribute.newLocalPref path.localPref] else []) ++
  (if path.med ≠ 0 then [Attribute.newMed path.med] else [])

theorem attributes_eq_ok :
    path.attributes as4Enabled = .ok attrs ↔
      (path.origin = Attribute.ORIGIN_IGP ∨ path.origin = Attribute.ORIGIN_EGP ∨
        path.origin = Attribute.ORIGIN_INCOMPLETE) ∧
      ∃ nextHop rest, path.nextHops = nextHop :: rest ∧ attrs =
        .origin ⟨Attribute.FLAG_TRANSITIVE, Attribute.ORIGIN⟩ path.origin ::
          path.asPathPart as4Enabled ++ path.otherPart nextHop := by
  unfold attributes Attribute.newOrigin
  by_cases known : path.origin = Attribute.ORIGIN_IGP ∨ path.origin = Attribute.ORIGIN_EGP ∨
      path.origin = Attribute.ORIGIN_INCOMPLETE
  · rw [and_iff_right known, if_pos known, Outcome.ok_bind]
    rcases path.nextHops with _ | ⟨addr | addr, rest⟩
    · simp
    all_goals simp [eq_comm, asPathPart, otherPart]
  · rw [if_neg known]
    simp [known]

theorem carriedSequence_asPathPart :
    Attribute.carriedSequence (path.asPathPart as4Enabled) =
      some (if as4Enabled then path.asSequence
      else path.asSequence.map fun n =>
        if n > Attribute.AS_2BYTES_LIMIT then Attribute.AS_TRANS else n) := by
  cases as4Enabled with
  | true => simp [asPathPart, Attribute.carriedSequence, Attribute.newAsPath,
      Attribute.sequence_newSegments]
  | false =>
    simp [asPathPart, asPathAttributes, Attribute.carriedSequence, Attribute.newAsPath,
      Attribute.sequence_newSegments]

theorem carriedSequence4_asPathPart : (Attribute.carriedSequence4 (path.asPathPart false)).getD [] =
      path.asSequence.filter (· > Attribute.AS_2BYTES_LIMIT) := by
  unfold asPathPart asPathAttributes
  rw [if_neg (by simp)]
  simp only [Attribute.carriedSequence4, Attribute.newAsPath, List.findSome?_cons]
  split_ifs with none
  · rw [Bool.and_eq_true, List.isEmpty_iff] at none
    simp [none.1]
  · simp [Attribute.newAs4Path, Attribute.sequence_newSegments]

theorem findSome?_asPathPart {α : Type} {view : Attribute → Option α}
    (asPath : ∀ base segments, view (.asPath base segments) = none)
    (as4Path : ∀ base segments, view (.as4Path base segments) = none) :
    (path.asPathPart as4Enabled).findSome? view = none := by
  unfold asPathPart asPathAttributes
  split_ifs <;> simp [Attribute.newAsPath, Attribute.newAs4Path, asPath, as4Path]

theorem attributes_carry (made : path.attributes as4Enabled = .ok attrs) :
    Attribute.carriedLocalPref attrs = (if path.localPref ≠ 0 then some path.localPref else none) ∧
    Attribute.CarriesSequence as4Enabled attrs path.asSequence ∧
    ∃ nextHop rest, path.nextHops = nextHop :: rest ∧
      Attribute.carriedNextHop attrs = (match nextHop with
        | .v4 addr => some addr
        | .v6 _ => none) := by
  rcases attributes_eq_ok.mp made with ⟨-, nextHop, rest, hops, rfl⟩
  refine ⟨?_, ?_, nextHop, rest, hops, ?_⟩
  · simp only [Attribute.carriedLocalPref, List.cons_append, List.findSome?_cons,
      List.findSome?_append]
    rw [findSome?_asPathPart (fun _ _ => rfl) fun _ _ => rfl]
    unfold otherPart
    cases nextHop <;> split_ifs <;> rfl
  · have sequence := @carriedSequence_asPathPart path as4Enabled
    have found : ∀ asSequence, Attribute.carriedSequence (path.asPathPart as4Enabled) =
        some asSequence →
        Attribute.carriedSequence (.origin ⟨Attribute.FLAG_TRANSITIVE, Attribute.ORIGIN⟩
          path.origin ::
          path.asPathPart as4Enabled ++ path.otherPart nextHop) = some asSequence := by
      intro asSequence part
      rw [Attribute.carriedSequence] at part ⊢
      simp only [List.cons_append, List.findSome?_cons, List.findSome?_append, part, Option.some_or]
    have others : Attribute.carriedSequence4 (path.otherPart nextHop) = none := by
      unfold otherPart
      cases nextHop <;> split_ifs <;> rfl
    have large := @carriedSequence4_asPathPart path
    cases as4Enabled with
    | true => exact found _ sequence
    | false =>
      refine ⟨found _ sequence, ?_⟩
      rw [← large]
      rw [Attribute.carriedSequence4] at others ⊢
      simp only [List.cons_append, List.findSome?_cons, List.findSome?_append, others,
        Option.or_none]
      rfl
  · simp only [Attribute.carriedNextHop, List.cons_append, List.findSome?_cons,
      List.findSome?_append]
    rw [findSome?_asPathPart (fun _ _ => rfl) fun _ _ => rfl]
    unfold otherPart
    cases nextHop <;> split_ifs <;> rfl

end Path

namespace PeerLoop

variable {start loop : PeerLoop} {path : Path} {paths : List Path} {attrs : List Attribute}

def outgoing (loop : PeerLoop) (path : Path) : Path :=
  path.toOutgoing (loop.info.asn == loop.info.neighbor.asn) loop.info.asn
    (loop.addr :: loop.otherAddrs)

def as4Enabled (loop : PeerLoop) : Bool :=
  (loop.localCapabilities.lookup Cap.FOUR_OCTET_AS_NUMBER).isSome

def Returns (loop : PeerLoop) (path : Path) : Prop := path.asSequence = [loop.info.neighbor.asn]
  deriving Decidable

def Announces (loop : PeerLoop) (path : Path) (attrs : List Attribute) : Prop :=
  ¬loop.Returns path ∧ (loop.outgoing path).attributes loop.as4Enabled = .ok attrs

def Conforms (loop : PeerLoop) (path : Path) (attrs : List Attribute) : Prop :=
  if loop.info.asn = loop.info.neighbor.asn then
    Attribute.carriedLocalPref attrs ≠ none ∧
      Attribute.CarriesSequence loop.as4Enabled attrs path.asSequence
  else
    Attribute.carriedLocalPref attrs = none ∧
      Attribute.CarriesSequence loop.as4Enabled attrs (loop.info.asn :: path.asSequence) ∧
      (Attribute.carriedNextHop attrs).map IpAddr.v4 = some loop.addr

/-- The condition on a path.  A peer of the same AS gets the paths of another AS with a LOCAL_PREF
only; another peer gets paths without, and over IPv4. -/
def Lawful (loop : PeerLoop) (path : Path) : Prop :=
  if loop.info.asn = loop.info.neighbor.asn then path.kind = .external → path.localPref ≠ 0
  else path.localPref = 0 ∧ loop.addr.afi = .ipv4

theorem outgoing_internal (same : loop.info.asn = loop.info.neighbor.asn) :
    (loop.outgoing path).asSequence = path.asSequence ∧
      ((loop.outgoing path).localPref = 0 ↔ path.kind = .external ∧ path.localPref = 0) := by
  have isIbgp : (loop.info.asn == loop.info.neighbor.asn) = true := by simpa using same
  unfold outgoing Path.toOutgoing
  rw [isIbgp]
  by_cases external : path.kind = .external
  · simp [external]
  · by_cases zero : path.localPref = 0
    all_goals simp [external, zero]

theorem outgoing_external (other : loop.info.asn ≠ loop.info.neighbor.asn) :
    (loop.outgoing path).asSequence = loop.info.asn :: path.asSequence ∧
      (loop.outgoing path).localPref = path.localPref ∧
      (loop.outgoing path).nextHops = loop.addr :: loop.otherAddrs := by
  have isEbgp : (loop.info.asn == loop.info.neighbor.asn) = false := by simpa using other
  unfold outgoing Path.toOutgoing
  rw [isEbgp]
  by_cases internal : path.kind = .internal
  all_goals simp [internal]

theorem conforms_iff_lawful (announces : loop.Announces path attrs) :
    loop.Conforms path attrs ↔ loop.Lawful path := by
  rcases Path.attributes_carry announces.2 with ⟨localPref, sequence, nextHop, rest, hops, carried⟩
  unfold Conforms Lawful
  by_cases same : loop.info.asn = loop.info.neighbor.asn
  · rcases @outgoing_internal loop path same with ⟨unchanged, zero⟩
    rw [unchanged] at sequence
    rw [if_pos same, if_pos same, and_iff_left sequence, localPref]
    by_cases none : (loop.outgoing path).localPref = 0
    · simp [none, zero.mp none]
    · simp only [ne_eq, none, not_false_eq_true, ↓reduceIte, reduceCtorEq, true_iff]
      exact fun external isZero => none (zero.mpr ⟨external, isZero⟩)
  rcases @outgoing_external loop path same with ⟨prepended, kept, own⟩
  rw [prepended] at sequence
  rw [own, List.cons.injEq] at hops
  rw [if_neg same, if_neg same, localPref, kept, and_iff_right sequence, carried, ← hops.1]
  refine and_congr (by simp) ?_
  cases loop.addr with
  | v4 addr | v6 addr => simp [IpAddr.afi]

variable (staged : List (List Attribute × Path))

theorem lookup_groups (attrs : List Attribute) :
    (staged.foldl (fun groups entry => addToGroup groups entry.1 entry.2) ∅).lookup attrs =
      Lib.Table.nonEmpty ((staged.filter fun entry => entry.1 = attrs).map Prod.snd) := by
  induction staged using List.reverseRecOn with
  | nil => rfl
  | append_singleton before entry ih =>
    rw [List.foldl_append, List.foldl_cons, List.foldl_nil, addToGroup, Lib.Table.lookup_insert]
    by_cases same : attrs = entry.1
    · subst same
      rw [if_pos rfl, ih, Lib.Table.getD_nonEmpty]
      simp [List.filter_append, Lib.Table.nonEmpty_append_singleton]
    · rw [if_neg same, ih]
      simp [List.filter_append, Ne.symm same]

theorem mem_keys_groups (attrs : List Attribute) :
    attrs ∈ (staged.foldl (fun groups entry => addToGroup groups entry.1 entry.2) ∅).keys ↔
      ∃ path, (attrs, path) ∈ staged := by
  rw [← AList.mem_keys, ← AList.lookup_isSome, lookup_groups]
  constructor
  · intro some
    rcases Option.isSome_iff_exists.mp some with ⟨group, found⟩
    rcases Lib.Table.nonEmpty_eq_some.mp found with ⟨-, full⟩
    rcases List.exists_mem_of_ne_nil _ full with ⟨path, member⟩
    rcases List.mem_map.mp member with ⟨entry, listed, rfl⟩
    rcases List.mem_filter.mp listed with ⟨listed, same⟩
    refine ⟨entry.2, ?_⟩
    rw [← of_decide_eq_true same]
    exact listed
  · rintro ⟨path, listed⟩
    have member : path ∈ (staged.filter fun entry => entry.1 = attrs).map Prod.snd :=
      List.mem_map.mpr ⟨(attrs, path), List.mem_filter.mpr ⟨listed, by simp⟩, rfl⟩
    rw [Lib.Table.nonEmpty_eq_some.mpr ⟨rfl, List.ne_nil_of_mem member⟩]
    rfl

theorem mem_group {staged : List (List Attribute × Path)} :
    path ∈ ((staged.foldl (fun groups entry => addToGroup groups entry.1 entry.2) ∅).lookup
      attrs).getD [] ↔ (attrs, path) ∈ staged := by
  rw [lookup_groups, Lib.Table.getD_nonEmpty, List.mem_map]
  constructor
  · rintro ⟨entry, listed, rfl⟩
    rcases List.mem_filter.mp listed with ⟨listed, same⟩
    rw [← of_decide_eq_true same]
    exact listed
  · exact fun listed => ⟨(attrs, path), List.mem_filter.mpr ⟨listed, by simp⟩, rfl⟩

/-- The messages for some paths: a path that the neighbour made is withdrawn, and announcements have
the attributes of all their paths. -/
inductive MessageFor (start : PeerLoop) (paths : List Path) : Message → Prop
  | withdrawal {path : Path} (member : path ∈ paths) (returns : start.Returns path) :
      MessageFor start paths (.update [⟨path.pfx, none⟩] [] [])
  | announcement {attrs : List Attribute} {nlri : List Prefix}
      (announces : ∀ pfx ∈ nlri, ∃ path ∈ paths, pfx = ⟨path.pfx, none⟩ ∧
        start.Announces path attrs) :
      MessageFor start paths (.update [] attrs nlri)

structure Telling (start : PeerLoop) (paths : List Path) (loop : PeerLoop) : Prop where
  peer : loop.toPeer = start.toPeer
  localInfo : loop.toLocalInfo = start.toLocalInfo
  sent : ∃ messages, loop.sent = start.sent ++ messages ∧
    ∀ message ∈ messages, start.MessageFor paths message.2

theorem Telling.refl (start : PeerLoop) (paths : List Path) : start.Telling paths start :=
  ⟨rfl, rfl, [], by simp, by simp⟩

theorem Telling.announces_iff (telling : start.Telling paths loop) :
    loop.Announces path attrs ↔ start.Announces path attrs := by
  unfold Announces Returns outgoing as4Enabled
  rw [show loop.info = start.info from congrArg Peer.info telling.peer,
    show loop.addr = start.addr from congrArg LocalInfo.addr telling.localInfo,
    show loop.otherAddrs = start.otherAddrs from congrArg LocalInfo.otherAddrs telling.localInfo,
    show loop.localCapabilities = start.localCapabilities from
      congrArg LocalInfo.localCapabilities telling.localInfo]

theorem send_telling {msg : Message} (isFor : start.MessageFor paths msg) :
    Keeps (start.Telling paths) (send msg) := by
  refine Keeps.readState fun current => ?_
  rcases current.connections with _ | ⟨conn, _ | ⟨other, rest⟩⟩
  · exact Keeps.fail
  · refine Spec.of_final fun loop telling => ?_
    dsimp only [sendOn]
    split_ifs
    · rcases telling with ⟨peer, localInfo, messages, sent, all⟩
      refine ⟨peer, localInfo, messages ++ [(conn.toStream, msg)], by simp [sent], ?_⟩
      intro message member
      rcases List.mem_append.mp member with before | now
      · exact all message before
      · rw [List.mem_singleton.mp now]
        exact isFor
    · exact telling
  · exact Keeps.fail

theorem onAdjRibOut_telling (call : AdjRib → Outcome Error PUnit × AdjRib) :
    Keeps (start.Telling paths) (onAdjRibOut call) :=
  Spec.of_final fun _ telling => ⟨telling.peer, telling.localInfo, telling.sent⟩

def StagedFrom (start : PeerLoop) (paths : List Path) (entry : List Attribute × Path) : Prop :=
  ∃ path ∈ paths, entry.2.pfx = path.pfx ∧ start.Announces path entry.1

theorem stage_telling (member : path ∈ paths) :
    Spec (start.Telling paths) (stage path)
      (fun staged loop => (∀ entry ∈ staged, start.StagedFrom paths entry) ∧
        start.Telling paths loop)
      (fun _ => start.Telling paths) := by
  refine Spec.readState fun current telling => ?_
  have enter : ∀ loop, loop = current → start.Telling paths loop := by
    rintro _ rfl
    exact telling
  by_cases returns : path.asSequence = [current.info.neighbor.asn]
  · rw [if_pos returns]
    have isFor : start.MessageFor paths (.update [⟨path.pfx, none⟩] [] []) := by
      refine .withdrawal member ?_
      rw [Returns, ← telling.peer]
      exact returns
    refine ((send_telling isFor).conseq enter fun _ _ holds => holds).bind fun _ => ?_
    exact Spec.pure fun _ holds => ⟨by simp, holds⟩
  rw [if_neg returns]
  refine ((onAdjRibOut_telling _).conseq enter fun _ _ holds => holds).bind fun _ => ?_
  have made : Spec (start.Telling paths)
      (lift ((current.outgoing path).attributes current.as4Enabled) : LoopM (List Attribute))
      (fun attrs loop => (current.outgoing path).attributes current.as4Enabled = .ok attrs ∧
        start.Telling paths loop) (fun _ => start.Telling paths) :=
    Spec.lift fun _ holds => ⟨fun _ _ => holds, fun _ => holds⟩
  refine made.bind fun attrs => ?_
  refine Spec.pure fun loop holds => ⟨fun entry listed => ?_, holds.2⟩
  rw [List.mem_singleton.mp listed]
  exact ⟨path, member, Path.toOutgoing_pfx _ _ _ _,
    telling.announces_iff.mp ⟨returns, holds.1⟩⟩

theorem collect_stage_telling {rest : List Path} (members : ∀ path ∈ rest, path ∈ paths) :
    Spec (start.Telling paths) (collect stage rest)
      (fun staged loop => (∀ entry ∈ staged, start.StagedFrom paths entry) ∧
        start.Telling paths loop)
      (fun _ => start.Telling paths) := by
  induction rest with
  | nil => exact Spec.pure fun _ telling => ⟨by simp, telling⟩
  | cons path rest ih =>
    refine (stage_telling (members path List.mem_cons_self)).bind fun staged => ?_
    refine Spec.fact_pre fun good => ?_
    refine (ih fun other later => members other (List.mem_cons_of_mem _ later)).bind fun others =>
      ?_
    refine Spec.fact_pre fun good' => ?_
    exact Spec.pure fun _ telling => ⟨List.forall_mem_append.mpr ⟨good, good'⟩, telling⟩

theorem withdrawal_eq (prefixes : List IpNet) :
    withdrawal prefixes = .ok (.update (prefixes.map (⟨·, none⟩)) [] []) := rfl

theorem announcement_eq (attrs : List Attribute) (prefixes : List IpNet) :
    announcement attrs prefixes = .ok (.update [] attrs (prefixes.map (⟨·, none⟩))) := rfl

theorem advertise_telling (env : LoopEnv) (start : PeerLoop) (paths : List Path) :
    start.Telling paths (advertise env paths start).2 := by
  have kept : Keeps (start.Telling paths) (advertise env paths) := by
    refine (collect_stage_telling fun _ member => member).bind fun staged => ?_
    refine Spec.fact_pre fun good => ?_
    refine Keeps.forEach (fun attrs => ?_) _
    refine send_telling (.announcement fun pfx listed => ?_)
    rcases List.mem_map.mp listed with ⟨net, networks, rfl⟩
    rcases List.mem_map.mp networks with ⟨outgoing, grouped, rfl⟩
    rcases good _ (mem_group.mp grouped) with ⟨path, member, same, announces⟩
    exact ⟨path, member, congrArg (Prefix.mk · none) same, announces⟩
  exact kept.final (Telling.refl start paths)

/-- Every network of an announcement that leaves belongs to a path with its attributes, and such a
path is announced by the rules exactly under the condition. -/
theorem announced_conforms_iff {env : LoopEnv} {messages : List (Stream × Message)}
    (sent : (advertise env paths loop).2.sent = loop.sent ++ messages) {stream : Stream}
    {attrs : List Attribute} {nlri : List Prefix}
    (left : (stream, Message.update [] attrs nlri) ∈ messages) {pfx : Prefix}
    (member : pfx ∈ nlri) :
    (∃ path ∈ paths, pfx = ⟨path.pfx, none⟩ ∧ loop.Announces path attrs) ∧
      ∀ path, loop.Announces path attrs → (loop.Conforms path attrs ↔ loop.Lawful path) := by
  refine ⟨?_, fun path announces => conforms_iff_lawful announces⟩
  rcases (advertise_telling env loop paths).sent with ⟨messages', sent', all⟩
  rw [sent, List.append_cancel_left_eq] at sent'
  subst sent'
  have isFor := all _ left
  generalize message : Message.update [] attrs nlri = update at isFor
  cases isFor with
  | withdrawal _ _ => simp at message
  | announcement announces =>
    rcases message with ⟨-, rfl, rfl⟩
    exact announces pfx member

def sampleSession : PeerLoop := run sampleLoopEnv sampleLoop sampleEstablish

def samplePath (localPref : UInt32) : Path where
  id := 1
  best := true
  reason := .onlyPath
  timestamp := 0
  localId := 0x0a000002
  localAsn := 65000
  peerId := 0x0a000003
  peerAddr := .v4 0x0a000003
  peerAsn := 65002
  family := .ipv4Unicast
  origin := 0
  localPref := localPref
  med := 0
  asSequence := [65002]
  asSet := []
  nextHops := [.v4 0x0a000003]
  propagateAttributes := []
  pfx := .v4 (.ofLength 0xc0a80000 24)

def sampleAttributes (localPref : List Attribute) : List Attribute :=
  [.origin ⟨0x40, 1⟩ 0, .asPath ⟨0x50, 2⟩ [⟨2, [65000, 65002]⟩], .nextHop ⟨0x40, 3⟩ 0x0a000002] ++
    localPref

theorem conforms_samplePath :
    sampleSession.Conforms (samplePath 0) (sampleAttributes []) := by
  have sent : (advertise sampleLoopEnv [samplePath 0] sampleSession).2.sent =
      sampleSession.sent ++ [(sampleActive, .update [] (sampleAttributes [])
        [⟨(samplePath 0).pfx, none⟩])] := by decide +kernel
  refine ((announced_conforms_iff sent (List.mem_singleton_self _) (List.mem_singleton_self _)).2 _
    ⟨by decide +kernel, by decide +kernel⟩).mpr ?_
  exact ⟨rfl, rfl⟩

/-- A LOCAL_PREF leaves for another AS. -/
theorem not_conforms_samplePath : (advertise sampleLoopEnv [samplePath 200] sampleSession).2.sent =
      sampleSession.sent ++ [(sampleActive, .update []
        (sampleAttributes [.localPref ⟨0x40, 5⟩ 200]) [⟨(samplePath 200).pfx, none⟩])] ∧
    ¬sampleSession.Conforms (samplePath 200) (sampleAttributes [.localPref ⟨0x40, 5⟩ 200]) := by
  refine ⟨by decide +kernel, fun conforms => ?_⟩
  exact absurd conforms.1 (by decide +kernel)

end PeerLoop

end Sart
