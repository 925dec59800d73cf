import Sart.Lib.Keyed
import Sart.Lib.Run
import Sart.Peer.Announcement
import Sart.Peer.ErrorHandling

/-!
# The Adj-RIB-Out and the messages

The Adj-RIB-Out is to hold what the neighbour was told.  It is written path by path before the
messages are made, so an error on the way leaves it ahead of them.  And a path that the neighbour
itself made is withdrawn by a message, while an older path to its network stays in the table.
-/

namespace Sart

open Sart.Lib Sart.Lib.Effect

def told (known : IpNet → Option (List Attribute)) (message : Message) (pfx : IpNet) :
    Option (List Attribute) :=
  match message with
  | .update withdrawn attrs nlri =>
    if pfx ∈ nlri.map Prefix.inner then some attrs
    else if pfx ∈ withdrawn.map Prefix.inner then none
    else known pfx
  | _ => known pfx

def toldAll (known : IpNet → Option (List Attribute)) (messages : List (Stream × Message)) :
    IpNet → Option (List Attribute) :=
  messages.foldl (fun known message => told known message.2) known

def netEffect (messages : List (Stream × Message)) : IpNet → Option (List Attribute) :=
  toldAll (fun _ => none) messages

structure PeerLoop.InStep (known : IpNet → Option (List Attribute)) (loop : PeerLoop) : Prop where
  announced : ∀ pfx family path, loop.adjRibOut.get family pfx = some path →
    ∃ attrs, known pfx = some attrs ∧ path.attributes loop.as4Enabled = .ok attrs
  stored : ∀ pfx attrs, known pfx = some attrs →
    ∃ family path, loop.adjRibOut.get family pfx = some path

namespace PeerLoop

inductive OutCall where
  | advertise (paths : List Path)
  | withdraw (prefixes : List IpNet)
  deriving DecidableEq

def call (env : LoopEnv) (loop : PeerLoop) : OutCall → PeerLoop
  | .advertise paths => (advertise env paths loop).2
  | .withdraw prefixes => (withdraw prefixes loop).2

def familyOf (loop : PeerLoop) (pfx : IpNet) : Option AddressFamily :=
  loop.info.families.find? fun family => family.afi == pfx.afi

def Announceable (loop : PeerLoop) (path : Path) : Prop :=
  (path.origin = Attribute.ORIGIN_IGP ∨ path.origin = Attribute.ORIGIN_EGP ∨
    path.origin = Attribute.ORIGIN_INCOMPLETE ∨
    path.kind = .internal ∧ loop.info.asn ≠ loop.info.neighbor.asn) ∧
  (path.nextHops ≠ [] ∨ path.kind ≠ .external ∨ loop.info.asn ≠ loop.info.neighbor.asn)

/-- The condition on a call.  A message can be sent.  Announced networks are different from each
other; a path that the neighbour made is to a network that is not in the table, and another one can
be announced and stored.  Withdrawn networks are different from each other and in the table. -/
def Safe (loop : PeerLoop) (outCall : OutCall) : Prop :=
  loop.Sends ∧
  match outCall with
  | .advertise paths =>
    (paths.map Path.pfx).Nodup ∧ ∀ path ∈ paths,
      if loop.Returns path then ∀ family, loop.adjRibOut.get family path.pfx = none
      else loop.familyOf path.pfx = some path.family ∧ loop.adjRibOut.Registered path.family ∧
        loop.Announceable path
  | .withdraw prefixes =>
    prefixes.Nodup ∧ ∀ pfx ∈ prefixes, ∃ family path, loop.familyOf pfx = some family ∧
      loop.adjRibOut.get family pfx = some path

variable {loop : PeerLoop} {path : Path} {attrs : List Attribute} {conn : Connection}
  {rib : AdjRib} {sent : List (Stream × Message)}

theorem announceable_iff : loop.Announceable path ↔
    ∃ attrs, (loop.outgoing path).attributes loop.as4Enabled = .ok attrs := by
  have made : (∃ attrs, (loop.outgoing path).attributes loop.as4Enabled = .ok attrs) ↔
      ((loop.outgoing path).origin = Attribute.ORIGIN_IGP ∨
        (loop.outgoing path).origin = Attribute.ORIGIN_EGP ∨
        (loop.outgoing path).origin = Attribute.ORIGIN_INCOMPLETE) ∧
      (loop.outgoing path).nextHops ≠ [] := by
    constructor
    · rintro ⟨attrs, made⟩
      rcases Path.attributes_eq_ok.mp made with ⟨known, nextHop, rest, hops, -⟩
      exact ⟨known, by simp [hops]⟩
    · rintro ⟨known, some⟩
      rcases List.exists_cons_of_ne_nil some with ⟨nextHop, rest, hops⟩
      exact ⟨_, Path.attributes_eq_ok.mpr ⟨known, nextHop, rest, hops, rfl⟩⟩
  rw [made, Announceable]
  unfold outgoing Path.toOutgoing
  by_cases same : loop.info.asn = loop.info.neighbor.asn
  · by_cases external : path.kind = .external
    · simp [same, external]
    · by_cases zero : path.localPref = 0
      all_goals simp [same, external, zero]
  · by_cases internal : path.kind = .internal
    all_goals simp [same, internal]

theorem send_eq (only : loop.connections = [conn]) (alive : conn.alive = true) (msg : Message) :
    send msg loop = (.ok ⟨⟩, { loop with sent := loop.sent ++ [(conn.toStream, msg)] }) := by
  unfold send
  rw [bind_apply]
  simp only [Effect.read, id_eq, only, sendOn, alive, ↓reduceIte]

def stagedOf (loop : PeerLoop) (paths : List Path) : List (List Attribute × Path) :=
  paths.flatMap fun path =>
    if loop.Returns path then []
    else match (loop.outgoing path).attributes loop.as4Enabled with
      | .ok attrs => [(attrs, loop.outgoing path)]
      | _ => []

def returned (loop : PeerLoop) (stream : Stream) (paths : List Path) : List (Stream × Message) :=
  (paths.filter fun path => loop.Returns path).map fun path =>
    (stream, .update [⟨path.pfx, none⟩] [] [])

def storeAll (rib : AdjRib) (staged : List (List Attribute × Path)) : AdjRib :=
  staged.foldl (fun rib entry => (rib.insert entry.2.family entry.2.pfx entry.2).2) rib

theorem stage_of_returns (only : loop.connections = [conn]) (alive : conn.alive = true)
    (returns : loop.Returns path) :
    stage path loop =
      (.ok [], { loop with sent := loop.sent ++
        [(conn.toStream, .update [⟨path.pfx, none⟩] [] [])] }) := by
  refine (bind_of_ok rfl).trans ?_
  rw [id, if_pos (by exact returns), withdrawal_eq, lift_ok_bind]
  exact bind_of_ok (send_eq only alive _)

theorem onAdjRibOut_of_ok {call : AdjRib → Outcome Error PUnit × AdjRib} {rib : AdjRib}
    (ran : call loop.adjRibOut = (.ok ⟨⟩, rib)) :
    onAdjRibOut call loop = (.ok ⟨⟩, { loop with adjRibOut := rib }) := by
  rw [onAdjRibOut, ran]

theorem stage_of_announces (registered : loop.adjRibOut.Registered path.family)
    (announces : loop.Announces path attrs) :
    stage path loop = (.ok [(attrs, loop.outgoing path)],
      { loop with adjRibOut := storeAll loop.adjRibOut [(attrs, loop.outgoing path)] }) := by
  have family : (loop.outgoing path).family = path.family := Path.toOutgoing_family _ _ _ _
  rw [← family] at registered
  rcases AdjRib.insert_result registered (loop.outgoing path).pfx (loop.outgoing path) with
    ⟨old, inserted⟩
  refine (bind_of_ok rfl).trans ?_
  rw [id, if_neg (by exact announces.1)]
  refine (bind_of_ok (onAdjRibOut_of_ok ?_)).trans (bind_of_ok (congrArg (·, _) announces.2))
  change _ = (_, (loop.adjRibOut.insert (loop.outgoing path).family (loop.outgoing path).pfx
    (loop.outgoing path)).2)
  unfold outgoing at inserted ⊢
  generalize loop.adjRibOut.insert _ _ _ = result at inserted ⊢
  rcases result with ⟨_, rib⟩
  subst inserted
  rfl

theorem stagedOf_cons (loop : PeerLoop) (path : Path) (rest : List Path) :
    loop.stagedOf (path :: rest) = loop.stagedOf [path] ++ loop.stagedOf rest := by
  simp [stagedOf]

theorem stagedOf_cons_of_announces {rest : List Path} (announces : loop.Announces path attrs) :
    loop.stagedOf (path :: rest) = (attrs, loop.outgoing path) :: loop.stagedOf rest := by
  simp [stagedOf, announces.1, announces.2]

variable {paths : List Path} {pfx : IpNet} {known : IpNet → Option (List Attribute)}
  {staged : List (List Attribute × Path)}

theorem collect_stage (only : loop.connections = [conn]) (alive : conn.alive = true)
    (rib : AdjRib) (sent : List (Stream × Message))
    (stageable : ∀ path ∈ paths, ¬loop.Returns path →
      rib.Registered path.family ∧ loop.Announceable path) :
    collect stage paths { loop with adjRibOut := rib, sent := sent } =
      (.ok (loop.stagedOf paths), { loop with
        adjRibOut := storeAll rib (loop.stagedOf paths)
        sent := sent ++ loop.returned conn.toStream paths }) := by
  induction paths generalizing rib sent with
  | nil => simp [collect, stagedOf, returned, storeAll, pure_apply]
  | cons path rest ih =>
    have later : ∀ other ∈ rest, ¬loop.Returns other →
        rib.Registered other.family ∧ loop.Announceable other :=
      fun other member => stageable other (List.mem_cons_of_mem _ member)
    by_cases returns : loop.Returns path
    · have staged := @stage_of_returns { loop with adjRibOut := rib, sent := sent } path conn only
        alive returns
      refine (bind_of_ok staged).trans ((bind_of_ok (ih _ _ later)).trans ?_)
      simp [pure_apply, stagedOf, returned, returns]
    rcases stageable path List.mem_cons_self returns with ⟨registered, announceable⟩
    rcases announceable_iff.mp announceable with ⟨attrs, made⟩
    have staged := @stage_of_announces { loop with adjRibOut := rib, sent := sent } path attrs
      registered ⟨returns, made⟩
    have kept : ∀ other ∈ rest, ¬loop.Returns other →
        (storeAll rib [(attrs, loop.outgoing path)]).Registered other.family ∧
          loop.Announceable other := by
      intro other member gone
      refine ⟨?_, (later other member gone).2⟩
      exact (AdjRib.registered_insert _ _ _ _ _).mpr (later other member gone).1
    refine (bind_of_ok staged).trans ((bind_of_ok (ih _ _ kept)).trans ?_)
    have none : loop.returned conn.toStream (path :: rest) = loop.returned conn.toStream rest := by
      simp [returned, returns]
    rw [stagedOf_cons_of_announces ⟨returns, made⟩, none]
    rfl

def announcements (stream : Stream) (staged : List (List Attribute × Path))
    (keys : List (List Attribute)) : List (Stream × Message) :=
  keys.map fun attrs => (stream, .update [] attrs
    ((staged.filter fun entry => entry.1 = attrs).map fun entry => ⟨entry.2.pfx, none⟩))

theorem forEach_send (only : loop.connections = [conn]) (alive : conn.alive = true)
    {α : Type} (message : α → Message) (items : List α) :
    forEach (fun item => send (message item)) items loop = (.ok ⟨⟩, { loop with
      sent := loop.sent ++ items.map fun item => (conn.toStream, message item) }) := by
  induction items generalizing loop with
  | nil => simp [forEach, pure_apply]
  | cons item rest ih =>
    refine (bind_of_ok (send_eq only alive (message item))).trans ((ih (by exact only)).trans ?_)
    simp

theorem advertise_eq (only : loop.connections = [conn]) (alive : conn.alive = true)
    (env : LoopEnv) (stageable : ∀ path ∈ paths, ¬loop.Returns path →
      loop.adjRibOut.Registered path.family ∧ loop.Announceable path) :
    ∃ keys : List (List Attribute), (∀ attrs, attrs ∈ keys ↔
      ∃ path, (attrs, path) ∈ loop.stagedOf paths) ∧
      advertise env paths loop = (.ok ⟨⟩, { loop with
        adjRibOut := storeAll loop.adjRibOut (loop.stagedOf paths)
        sent := loop.sent ++ loop.returned conn.toStream paths ++
          announcements conn.toStream (loop.stagedOf paths) keys }) := by
  refine ⟨env.order ((loop.stagedOf paths).foldl (fun groups entry =>
    addToGroup groups entry.1 entry.2) ∅).keys, fun attrs => ?_, ?_⟩
  · rw [(env.order_perm _).mem_iff]
    exact mem_keys_groups _ _
  refine (bind_of_ok (collect_stage only alive loop.adjRibOut loop.sent stageable)).trans ?_
  simp only [announcement_eq, lift_ok_bind, lookup_groups, Lib.Table.getD_nonEmpty, List.map_map]
  refine (forEach_send ?_ alive _ _).trans ?_
  · exact only
  · rfl

theorem unstage_eq {family : AddressFamily} (isFamily : loop.familyOf pfx = some family)
    (stored : loop.adjRibOut.get family pfx = some path) :
    unstage pfx loop =
      (.ok ⟨⟩, { loop with adjRibOut := (loop.adjRibOut.remove family pfx).2 }) := by
  have removed := loop.adjRibOut.remove_result family pfx
  refine (bind_of_ok rfl).trans ?_
  rw [id]
  unfold familyOf at isFamily
  rw [isFamily]
  simp only [onAdjRibOut]
  generalize loop.adjRibOut.remove family pfx = result at removed
  rcases result with ⟨first, rib⟩
  dsimp only at removed
  rw [removed, stored]

variable {prefixes : List IpNet}

theorem forEach_unstage (distinct : prefixes.Nodup)
    (stored : ∀ pfx ∈ prefixes, ∃ family path, loop.familyOf pfx = some family ∧
      loop.adjRibOut.get family pfx = some path) :
    ∃ rib, forEach unstage prefixes loop = (.ok ⟨⟩, { loop with adjRibOut := rib }) ∧
      ∀ family pfx, rib.get family pfx =
        if pfx ∈ prefixes ∧ loop.familyOf pfx = some family then none
        else loop.adjRibOut.get family pfx := by
  induction prefixes generalizing loop with
  | nil => exact ⟨loop.adjRibOut, rfl, by simp⟩
  | cons pfx rest ih =>
    rcases stored pfx List.mem_cons_self with ⟨family, path, isFamily, here⟩
    rcases List.nodup_cons.mp distinct with ⟨once, distinctRest⟩
    have later : ∀ other ∈ rest, ∃ family' path', loop.familyOf other = some family' ∧
        (loop.adjRibOut.remove family pfx).2.get family' other = some path' := by
      intro other member
      rcases stored other (List.mem_cons_of_mem _ member) with ⟨family', path', isFamily', there⟩
      refine ⟨family', path', isFamily', ?_⟩
      rw [AdjRib.get_remove, if_neg]
      · exact there
      · rintro ⟨-, rfl⟩
        exact once member
    rcases @ih { loop with adjRibOut := (loop.adjRibOut.remove family pfx).2 } distinctRest later
        with
      ⟨rib, ran, gets⟩
    refine ⟨rib, (bind_of_ok (unstage_eq isFamily here)).trans ran, fun family' other => ?_⟩
    have read : rib.get family' other = if other ∈ rest ∧
        loop.familyOf other = some family' then none
        else (loop.adjRibOut.remove family pfx).2.get family' other := gets family' other
    rw [read, AdjRib.get_remove]
    by_cases same : other = pfx
    · subst same
      rw [if_neg fun both => once both.1, isFamily]
      by_cases sameFamily : family' = family
      · simp [sameFamily]
      · simp [sameFamily, Ne.symm sameFamily]
    · simp [same]

theorem toldAll_append (known : IpNet → Option (List Attribute))
    (messages more : List (Stream × Message)) :
    toldAll known (messages ++ more) = toldAll (toldAll known messages) more :=
  List.foldl_append

theorem toldAll_returned (stream : Stream)
    (unknown : ∀ path ∈ paths, loop.Returns path → known path.pfx = none) :
    toldAll known (loop.returned stream paths) = known := by
  induction paths with
  | nil => rfl
  | cons path rest ih =>
    have later := ih fun other member => unknown other (List.mem_cons_of_mem _ member)
    by_cases returns : loop.Returns path
    · have first : told known (.update [⟨path.pfx, none⟩] [] []) = known := by
        funext pfx
        by_cases same : pfx = path.pfx
        · simp [told, same, unknown path List.mem_cons_self returns]
        · simp [told, same]
      have cons : loop.returned stream (path :: rest) =
          (stream, .update [⟨path.pfx, none⟩] [] []) :: loop.returned stream rest := by
        simp [returned, returns]
      rw [cons, toldAll, List.foldl_cons, first]
      exact later
    have same : loop.returned stream (path :: rest) = loop.returned stream rest := by
      simp [returned, returns]
    rw [same, later]

theorem told_announcement (known : IpNet → Option (List Attribute)) (attrs : List Attribute)
    (nlri : List Prefix) (pfx : IpNet) :
    told known (.update [] attrs nlri) pfx =
      if pfx ∈ nlri.map Prefix.inner then some attrs else known pfx := by
  simp only [told, List.map_nil, List.not_mem_nil, ↓reduceIte]

section

variable (distinct : Keyed.Distinct (fun entry => entry.2.pfx) staged)

include distinct

theorem mem_announced :
    pfx ∈ ((staged.filter fun entry => entry.1 = attrs).map fun entry =>
        Prefix.mk entry.2.pfx none).map Prefix.inner ↔
      ∃ entry, Keyed.find (fun entry => entry.2.pfx) staged pfx = some entry ∧ entry.1 = attrs := by
  simp only [List.map_map, List.mem_map, List.mem_filter, decide_eq_true_eq,
    Keyed.find_eq_some distinct]
  constructor
  · rintro ⟨entry, ⟨member, same⟩, here⟩
    exact ⟨entry, ⟨member, here⟩, same⟩
  · rintro ⟨entry, ⟨member, here⟩, same⟩
    exact ⟨entry, ⟨member, same⟩, here⟩

theorem toldAll_announcements
    (known : IpNet → Option (List Attribute)) (stream : Stream) (keys : List (List Attribute))
    (pfx : IpNet) :
    toldAll known (announcements stream staged keys) pfx =
      match Keyed.find (fun entry => entry.2.pfx) staged pfx with
      | some entry => if entry.1 ∈ keys then some entry.1 else known pfx
      | none => known pfx := by
  induction keys generalizing known with
  | nil =>
    cases Keyed.find (fun entry => entry.2.pfx) staged pfx <;> simp [announcements, toldAll]
  | cons attrs rest ih =>
    refine (ih (told known _)).trans ?_
    rw [told_announcement]
    have listed := @mem_announced attrs pfx staged distinct
    cases found : Keyed.find (fun entry => entry.2.pfx) staged pfx with
    | none =>
      simp only [found, reduceCtorEq, false_and, exists_false, iff_false] at listed
      rw [if_neg listed]
    | some entry =>
      simp only [found, Option.some.injEq, exists_eq_left'] at listed
      by_cases same : entry.1 = attrs
      · simp only [if_pos (listed.mpr same), same, ite_self, List.mem_cons, true_or, ↓reduceIte]
      · simp only [if_neg (mt listed.mp same), List.mem_cons, same, false_or]

theorem get_storeAll
    (registered : ∀ entry ∈ staged, rib.Registered entry.2.family) (family : AddressFamily)
    (pfx : IpNet) : (storeAll rib staged).get family pfx =
      match Keyed.find (fun entry => entry.2.pfx) staged pfx with
      | some entry => if family = entry.2.family then some entry.2 else rib.get family pfx
      | none => rib.get family pfx := by
  induction staged generalizing rib with
  | nil => rfl
  | cons entry rest ih =>
    have later : ∀ other ∈ rest,
        (rib.insert entry.2.family entry.2.pfx entry.2).2.Registered other.2.family := by
      intro other member
      rw [AdjRib.registered_insert]
      exact registered other (List.mem_cons_of_mem _ member)
    have here := AdjRib.get_insert (registered entry List.mem_cons_self) entry.2.pfx entry.2 family
        pfx
    refine (ih distinct.tail later).trans ?_
    rw [here, Keyed.find, Keyed.find, List.find?_cons]
    by_cases same : entry.2.pfx = pfx
    · have once : Keyed.find (fun entry => entry.2.pfx) rest pfx = none := by
        refine Keyed.find_eq_none.mpr fun other member => ?_
        rw [← same]
        exact distinct.ne_of_mem member
      rw [Keyed.find] at once
      simp [once, same]
    · simp [same, Ne.symm same]

end

theorem mem_stagedOf {entry : List Attribute × Path} :
    entry ∈ loop.stagedOf paths ↔
      ∃ path ∈ paths, loop.Announces path entry.1 ∧ entry.2 = loop.outgoing path := by
  simp only [stagedOf, List.mem_flatMap]
  refine exists_congr fun path => and_congr_right fun _ => ?_
  unfold Announces
  by_cases returns : loop.Returns path
  · simp [returns]
  rw [if_neg returns]
  cases (loop.outgoing path).attributes loop.as4Enabled with
  | ok attrs => simp [returns, Prod.ext_iff, eq_comm]
  | error cause => simp
  | panic => simp

theorem distinct_stagedOf (distinct : (paths.map Path.pfx).Nodup) :
    Keyed.Distinct (fun entry => entry.2.pfx) (loop.stagedOf paths) := by
  have sublist : ((loop.stagedOf paths).map fun entry => entry.2.pfx).Sublist
      (paths.map Path.pfx) := by
    clear distinct
    induction paths with
    | nil => exact List.Sublist.refl _
    | cons path rest ih =>
      by_cases announced : ∃ attrs, loop.Announces path attrs
      · rcases announced with ⟨attrs, announces⟩
        rw [stagedOf_cons_of_announces announces, List.map_cons, outgoing, Path.toOutgoing_pfx]
        exact ih.cons_cons _
      have skipped : loop.stagedOf [path] = [] := by
        refine List.eq_nil_iff_forall_not_mem.mpr fun entry member => announced ?_
        rcases mem_stagedOf.mp member with ⟨other, only, announces, -⟩
        exact ⟨entry.1, List.mem_singleton.mp only ▸ announces⟩
      rw [stagedOf_cons, skipped, List.nil_append]
      exact ih.cons _
  exact sublist.nodup distinct

def Homed (loop : PeerLoop) : Prop :=
  ∀ pfx family path, loop.adjRibOut.get family pfx = some path → loop.familyOf pfx = some family

structure Follows (known : IpNet → Option (List Attribute)) (loop final : PeerLoop) : Prop where
  told : ∃ messages, final.sent = loop.sent ++ messages ∧ final.InStep (toldAll known messages)
  homed : final.Homed

theorem InStep.unknown (inStep : loop.InStep known)
    (absent : ∀ family, loop.adjRibOut.get family pfx = none) : known pfx = none := by
  cases isKnown : known pfx with
  | none => rfl
  | some attrs =>
    rcases inStep.stored pfx attrs isKnown with ⟨family, path, stored⟩
    rw [absent family] at stored
    cases stored

theorem InStep.announce {known' : IpNet → Option (List Attribute)} {final : PeerLoop}
    (inStep : loop.InStep known) (homed : loop.Homed) (info : final.info = loop.info)
    (as4 : final.as4Enabled = loop.as4Enabled)
    (distinct : Keyed.Distinct (fun entry => entry.2.pfx) staged)
    (rows : ∀ entry ∈ staged, loop.familyOf entry.2.pfx = some entry.2.family ∧
      entry.2.attributes loop.as4Enabled = .ok entry.1)
    (gets : ∀ family pfx, final.adjRibOut.get family pfx =
      match Keyed.find (fun entry => entry.2.pfx) staged pfx with
      | some entry => if family = entry.2.family then
          some entry.2 else loop.adjRibOut.get family pfx
      | none => loop.adjRibOut.get family pfx) (tells : ∀ pfx, known' pfx =
      match Keyed.find (fun entry => entry.2.pfx) staged pfx with
      | some entry => some entry.1
      | none => known pfx) : final.InStep known' ∧ final.Homed := by
  have families : ∀ pfx, final.familyOf pfx = loop.familyOf pfx := by
    intro pfx
    rw [familyOf, familyOf, info]
  -- A network has its new path only, since an old one is stored under the same family.
  have sources : ∀ family pfx path, final.adjRibOut.get family pfx = some path →
      loop.familyOf pfx = some family ∧
        ∃ attrs, known' pfx = some attrs ∧ path.attributes loop.as4Enabled = .ok attrs := by
    intro family pfx path stored
    rw [gets] at stored
    rw [tells]
    cases found : Keyed.find (fun entry => entry.2.pfx) staged pfx with
    | none =>
      rw [found] at stored
      exact ⟨homed pfx family path stored, inStep.announced pfx family path stored⟩
    | some entry =>
      rw [found] at stored
      dsimp only at stored
      rcases (Keyed.find_eq_some distinct).mp found with ⟨member, rfl⟩
      rcases rows entry member with ⟨isFamily, made⟩
      by_cases same : family = entry.2.family
      · rw [if_pos same, Option.some.injEq] at stored
        subst same stored
        exact ⟨isFamily, entry.1, rfl, made⟩
      rw [if_neg same] at stored
      have old := homed _ family path stored
      rw [isFamily, Option.some.injEq] at old
      exact absurd old.symm same
  refine ⟨⟨fun pfx family path stored => ?_, fun pfx attrs isKnown => ?_⟩,
    fun pfx family path stored => ?_⟩
  · rw [as4]
    exact (sources family pfx path stored).2
  · rw [tells] at isKnown
    cases found : Keyed.find (fun entry => entry.2.pfx) staged pfx with
    | none =>
      rw [found] at isKnown
      rcases inStep.stored pfx attrs isKnown with ⟨family, path, stored⟩
      refine ⟨family, path, ?_⟩
      rw [gets, found]
      exact stored
    | some entry =>
      refine ⟨entry.2.family, entry.2, ?_⟩
      rw [gets, found]
      exact if_pos rfl
  · rw [families]
    exact (sources family pfx path stored).1

theorem follows_advertise (env : LoopEnv) (inStep : loop.InStep known) (homed : loop.Homed)
    (safe : loop.Safe (.advertise paths)) :
    Follows known loop (loop.call env (.advertise paths)) := by
  rcases safe with ⟨⟨conn, only, alive⟩, distinct, each⟩
  have announced : ∀ path ∈ paths, ¬loop.Returns path → loop.familyOf path.pfx = some path.family ∧
      loop.adjRibOut.Registered path.family ∧ loop.Announceable path := by
    intro path member gone
    have here := each path member
    rwa [if_neg gone] at here
  rcases advertise_eq only alive env (fun path member gone => (announced path member gone).2) with
    ⟨keys, isKey, ran⟩
  have distinctStaged := @distinct_stagedOf loop paths distinct
  have staged : ∀ entry ∈ loop.stagedOf paths, loop.familyOf entry.2.pfx = some entry.2.family ∧
      loop.adjRibOut.Registered entry.2.family ∧ entry.1 ∈ keys ∧
      entry.2.attributes loop.as4Enabled = .ok entry.1 := by
    intro entry member
    rcases mem_stagedOf.mp member with ⟨path, listed, announces, same⟩
    have here := announced path listed announces.1
    refine ⟨?_, ?_, (isKey entry.1).mpr ⟨entry.2, member⟩, ?_⟩
    · rw [same, outgoing, Path.toOutgoing_pfx, Path.toOutgoing_family]
      exact here.1
    · rw [same, outgoing, Path.toOutgoing_family]
      exact here.2.1
    · rw [same]
      exact announces.2
  have gets := @get_storeAll loop.adjRibOut (loop.stagedOf paths) distinctStaged
    fun entry member => (staged entry member).2.1
  have unknown : ∀ path ∈ paths, loop.Returns path → known path.pfx = none := by
    intro path member returns
    have here := each path member
    rw [if_pos returns] at here
    exact inStep.unknown here
  have kept := @InStep.announce loop known (loop.stagedOf paths) (toldAll known
    (loop.returned conn.toStream paths ++ announcements conn.toStream (loop.stagedOf paths) keys))
    (loop.call env (.advertise paths)) inStep homed
  rw [call, ran] at kept ⊢
  have both := kept rfl rfl distinctStaged
    (fun entry member => ⟨(staged entry member).1, (staged entry member).2.2.2⟩) gets ?_
  · exact ⟨⟨_, List.append_assoc _ _ _, both.1⟩, both.2⟩
  intro pfx
  rw [toldAll_append, toldAll_returned conn.toStream unknown, toldAll_announcements distinctStaged]
  cases found : Keyed.find (fun entry => entry.2.pfx) (loop.stagedOf paths) pfx with
  | none => rfl
  | some entry =>
    have member := ((Keyed.find_eq_some distinctStaged).mp found).1
    exact if_pos (staged entry member).2.2.1

theorem follows_withdraw (env : LoopEnv) (inStep : loop.InStep known) (homed : loop.Homed)
    (safe : loop.Safe (.withdraw prefixes)) :
    Follows known loop (loop.call env (.withdraw prefixes)) := by
  rcases safe with ⟨⟨conn, only, alive⟩, distinct, stored⟩
  rcases forEach_unstage distinct stored with ⟨rib, removed, gets⟩
  have ran : withdraw prefixes loop = (.ok ⟨⟩, { loop with
      adjRibOut := rib
      sent := loop.sent ++ [(conn.toStream, .update (prefixes.map (⟨·, none⟩)) [] [])] }) := by
    refine (bind_of_ok removed).trans ?_
    exact send_eq (by exact only) alive _
  -- What is left in the table is not among the networks, since they are stored under one family.
  have left : ∀ family pfx path, rib.get family pfx = some path ↔
      pfx ∉ prefixes ∧ loop.adjRibOut.get family pfx = some path := by
    intro family pfx path
    rw [gets]
    by_cases member : pfx ∈ prefixes
    · have gone : loop.familyOf pfx ≠ some family → loop.adjRibOut.get family pfx ≠ some path :=
        mt (homed pfx family path)
      by_cases isFamily : loop.familyOf pfx = some family
      · simp [member, isFamily]
      · simp [member, isFamily, gone]
    · simp [member]
  have tells : ∀ pfx, toldAll known [(conn.toStream, .update (prefixes.map (⟨·, none⟩)) [] [])]
      pfx =
      if pfx ∈ prefixes then none else known pfx := by
    simp [toldAll, told]
  rw [call, ran]
  refine ⟨⟨_, rfl, fun pfx family path kept => ?_, fun pfx attrs isKnown => ?_⟩,
    fun pfx family path kept => ?_⟩
  · rcases (left family pfx path).mp kept with ⟨other, old⟩
    rw [tells, if_neg other]
    exact inStep.announced pfx family path old
  · rw [tells] at isKnown
    by_cases member : pfx ∈ prefixes
    · simp [member] at isKnown
    rw [if_neg member] at isKnown
    rcases inStep.stored pfx attrs isKnown with ⟨family, path, old⟩
    exact ⟨family, path, (left family pfx path).mpr ⟨member, old⟩⟩
  · exact homed pfx family path ((left family pfx path).mp kept).2

/-- In every run of calls under the condition, the Adj-RIB-Out is what the messages since its start
have told. -/
theorem inStep_of_safe {start : PeerLoop} (env : LoopEnv)
    (fresh : ∀ family pfx, start.adjRibOut.get family pfx = none) {calls : List OutCall}
    (safe : AllSteps (call env) Safe start calls) :
    ∃ messages, (calls.foldl (call env) start).sent = start.sent ++ messages ∧
      (calls.foldl (call env) start).InStep (netEffect messages) := by
  have kept := foldl_invariant (fun loop : PeerLoop => loop.Homed ∧
    ∃ messages, loop.sent = start.sent ++ messages ∧ loop.InStep (netEffect messages))
    ?step ?initial safe
  case initial =>
    refine ⟨fun pfx family path stored => ?_, [], by simp, fun pfx family path stored => ?_,
      fun pfx attrs isKnown => by cases isKnown⟩
    all_goals
      rw [fresh] at stored
      cases stored
  case step =>
    rintro loop outCall ⟨homed, messages, sent, inStep⟩ meets
    have follows : Follows (netEffect messages) loop (loop.call env outCall) := by
      cases outCall with
      | advertise paths => exact follows_advertise env inStep homed meets
      | withdraw prefixes => exact follows_withdraw env inStep homed meets
    rcases follows with ⟨⟨more, added, told⟩, homed'⟩
    refine ⟨homed', messages ++ more, by rw [added, sent, List.append_assoc], ?_⟩
    rw [netEffect, toldAll_append]
    exact told
  exact kept.2

theorem inStep_sampleCalls :
    ∃ messages,
      ([OutCall.advertise [samplePath 0], .withdraw [(samplePath 0).pfx]].foldl (call sampleLoopEnv)
        sampleSession).sent = sampleSession.sent ++ messages ∧
      ([OutCall.advertise [samplePath 0], .withdraw [(samplePath 0).pfx]].foldl (call sampleLoopEnv)
        sampleSession).InStep (netEffect messages) := by
  refine inStep_of_safe sampleLoopEnv ?_ ⟨?_, ?_, trivial⟩
  · have new : sampleSession.adjRibOut = AdjRib.new [.ipv4Unicast, .ipv6Unicast] := by rfl
    intro family pfx
    exact AdjRib.get_new _ _ _
  · refine ⟨⟨_, rfl, rfl⟩, by decide +kernel, ?_⟩
    intro path member
    rw [List.mem_singleton.mp member, if_neg (by decide +kernel)]
    exact ⟨by decide +kernel, by decide +kernel, .inl (by decide +kernel), .inl (by decide +kernel)⟩
  · refine ⟨⟨_, rfl, rfl⟩, by decide +kernel, ?_⟩
    intro pfx member
    rw [List.mem_singleton.mp member]
    exact ⟨.ipv4Unicast, _, rfl, rfl⟩

/-- The network of a path from another AS is announced; then the neighbour is found to have made a
path to it, and it is withdrawn by a message while it stays in the table. -/
theorem not_inStep_sampleCalls :
    ¬∃ messages,
      ([OutCall.advertise [samplePath 0],
        .advertise [{ samplePath 0 with asSequence := [65001] }]].foldl (call sampleLoopEnv)
          sampleSession).sent = sampleSession.sent ++ messages ∧
      ([OutCall.advertise [samplePath 0],
        .advertise [{ samplePath 0 with asSequence := [65001] }]].foldl (call sampleLoopEnv)
          sampleSession).InStep (netEffect messages) := by
  rintro ⟨messages, sent, inStep⟩
  have two : messages = [(sampleActive, .update []
      (sampleAttributes []) [⟨(samplePath 0).pfx, none⟩]),
      (sampleActive, .update [⟨(samplePath 0).pfx, none⟩] [] [])] :=
    List.append_cancel_left (sent.symm.trans (by decide +kernel))
  subst two
  rcases inStep.announced (samplePath 0).pfx .ipv4Unicast _ rfl with ⟨attrs, isKnown, -⟩
  cases isKnown

end PeerLoop

end Sart
