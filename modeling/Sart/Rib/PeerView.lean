import Sart.Rib.SplitHorizon

/-!
# What the peers were told

For each peer and network the last message should announce the head of the list, or,
when that may not be offered to the peer, be missing or a withdrawal.  The proofs
follow what a peer will have been told once the messages due so far have gone out.

The manager never withdraws a network that still has a path, and nothing is sent
when one of several best paths goes.
-/

namespace Sart

open Sart.Lib Sart.Lib.Effect

/-- What a peer was last told about a network.  An announced path stands without the marks
and the time stamp, which the tables rewrite. -/
inductive Told where
  | nothing
  | announced (path : Path)
  | withdrawn
  deriving DecidableEq

namespace Told

def hear (pfx : IpNet) (told : Told) (path : Path) : Told :=
  if path.pfx = pfx then .announced path.unmarked else told

def receive (pfx : IpNet) (told : Told) : RibEvent → Told
  | .advertise paths => paths.foldl (hear pfx) told
  | .withdraw networks => if pfx ∈ networks then .withdrawn else told
  | _ => told

def observe (peer : NeighborPair) (pfx : IpNet) (told : Told) : Output → Told
  | .send receiver event => if receiver = peer then told.receive pfx event else told
  | _ => told

/-- The last message is an announcement of the eligible path, or there is no such path and
nothing is announced. -/
def Matches (told : Told) : Option Path → Prop
  | some best => told = .announced best.unmarked
  | none => told = .nothing ∨ told = .withdrawn

instance (told : Told) : (eligible : Option Path) → Decidable (told.Matches eligible)
  | some _ => inferInstanceAs (Decidable (_ = _))
  | none => inferInstanceAs (Decidable (_ ∨ _))

end Told

def lastTold (sent : List Output) (peer : NeighborPair) (pfx : IpNet) : Told :=
  sent.foldl (Told.observe peer pfx) .nothing

def eligibleBest (rib : RibManager) (peer : NeighborPair) (pfx : IpNet) : Option Path :=
  (rib.locRib.paths pfx.afi pfx).head?.filter fun best => Offerable rib.asn peer best

variable (state : RibState)

theorem lastTold_send (peer : NeighborPair) (event : RibEvent) (pfx : IpNet) :
    lastTold (state.put (.send peer event)).sent peer pfx =
      (lastTold state.sent peer pfx).receive pfx event := by
  simp [lastTold, RibState.put, Told.observe]

theorem lastTold_send_of_ne {peer other : NeighborPair} (differ : peer ≠ other) (event : RibEvent)
    (pfx : IpNet) :
    lastTold (state.put (.send peer event)).sent other pfx = lastTold state.sent other pfx := by
  simp [lastTold, RibState.put, Told.observe, differ]

theorem lastTold_fib (request : FibRequest) (peer : NeighborPair) (pfx : IpNet) :
    lastTold (state.put (.fib request)).sent peer pfx = lastTold state.sent peer pfx := by
  simp [lastTold, RibState.put, Told.observe]

variable {path other : Path}

theorem Path.kind_of_unmarked (same : path.unmarked = other.unmarked) :
    path.kind = other.kind := (Path.sameSource_of_unmarked same).1

theorem Path.SameSource.offerable_iff (same : path.SameSource other) (asn : UInt32)
    (peer : NeighborPair) :
    Offerable asn peer path ↔ Offerable asn peer other := by
  simp only [Offerable, same.learnedFrom_iff, same.1]

variable {rib : RibManager} {peer : NeighborPair} {pfx : IpNet} {told : Told} {best : Path}

theorem matches_eligibleBest_of_offerable (head : (rib.locRib.paths pfx.afi pfx).head? = some best)
    (offerable : Offerable rib.asn peer best) :
    told.Matches (eligibleBest rib peer pfx) ↔ told = .announced best.unmarked := by
  simp [eligibleBest, head, Option.filter, offerable, Told.Matches]

theorem matches_eligibleBest_of_not_offerable
    (hidden : ∀ best ∈ (rib.locRib.paths pfx.afi pfx).head?, ¬Offerable rib.asn peer best) :
    told.Matches (eligibleBest rib peer pfx) ↔ told = .nothing ∨ told = .withdrawn := by
  cases head : (rib.locRib.paths pfx.afi pfx).head? with
  | none => simp [eligibleBest, head, Told.Matches]
  | some best => simp [eligibleBest, head, Option.filter, hidden best head, Told.Matches]

variable {rib' : RibManager}

theorem matches_eligibleBest_congr (sameAsn : rib'.asn = rib.asn)
    (same : (rib'.locRib.paths pfx.afi pfx).head?.map Path.unmarked =
      (rib.locRib.paths pfx.afi pfx).head?.map Path.unmarked) :
    told.Matches (eligibleBest rib' peer pfx) ↔ told.Matches (eligibleBest rib peer pfx) := by
  cases head : (rib.locRib.paths pfx.afi pfx).head? with
  | none =>
    rw [head, Option.map_none, Option.map_eq_none_iff] at same
    simp [eligibleBest, head, same]
  | some best =>
    rw [head, Option.map_some, Option.map_eq_some_iff] at same
    rcases same with ⟨best', head', same⟩
    have offers := (Path.sameSource_of_unmarked same).offerable_iff rib.asn peer
    by_cases offerable : Offerable rib.asn peer best
    · rw [matches_eligibleBest_of_offerable head offerable,
        matches_eligibleBest_of_offerable head' (by rw [sameAsn]; exact offers.mpr offerable),
        same]
    · rw [matches_eligibleBest_of_not_offerable (by simpa [head', sameAsn, offers]),
        matches_eligibleBest_of_not_offerable (by simpa [head])]

theorem matches_of_announced {head next : Path} {skipped : Bool} (sameAsn : rib'.asn = rib.asn)
    (leads : (rib'.locRib.paths pfx.afi pfx).head? = some head)
    (same : head.unmarked = next.unmarked) (offers : skipped = false ↔ Offerable rib.asn peer next)
    (offered : ∀ best ∈ (rib.locRib.paths pfx.afi pfx).head?, Offerable rib.asn peer best →
      Offerable rib.asn peer next) (informed : told.Matches (eligibleBest rib peer pfx)) :
    (if skipped then told else .announced next.unmarked).Matches (eligibleBest rib' peer pfx) := by
  have headOffers := (Path.sameSource_of_unmarked same).offerable_iff rib.asn peer
  cases skipped with
  | false =>
    have offerable := offers.mp rfl
    rw [matches_eligibleBest_of_offerable leads (by rwa [sameAsn, headOffers]), same]
    rfl
  | true =>
    have hidden : ¬Offerable rib.asn peer next :=
        fun offerable => by simpa using offers.mpr offerable
    rw [matches_eligibleBest_of_not_offerable (by simpa [leads, sameAsn, headOffers]), if_pos rfl]
    rwa [matches_eligibleBest_of_not_offerable] at informed
    exact fun best isBest offerable => hidden (offered best isBest offerable)

variable {multiPath : Bool} {paths stored : List Path} {status : LocRibStatus} {others : List Path}

theorem head_of_map_ageless (same : others.map Path.ageless = paths.map Path.ageless) :
    others.head?.map Path.ageless = paths.head?.map Path.ageless := by
  rw [← List.head?_map, ← List.head?_map, same]

theorem Inserted.head (inserted : Inserted multiPath path paths (.ok status) stored)
    (leads : LeadsOrFollows multiPath path paths) :
    (status = .bestPathChanged path.pfx path.id ∧ position multiPath path paths = 0 ∧
      ∃ head, stored.head? = some head ∧ head.best = true ∧ head.unmarked = path.unmarked) ∨
    (RibManager.changedBy status = [] ∧
      stored.head?.map Path.ageless = paths.head?.map Path.ageless) := by
  cases inserted with
  | @changed others reason same lead bound demoted =>
    refine .inl ⟨rfl, lead leads, path.markBest reason, ?_, rfl, rfl⟩
    rw [lead leads, List.insertIdx_zero, List.head?_cons]
  | @joined front back last multi same best later =>
    refine .inr ⟨rfl, ?_⟩
    rw [← head_of_map_ageless same, List.head?_append, List.head?_append]
    rfl
  | @placed front back same behind later =>
    refine .inr ⟨rfl, ?_⟩
    rcases List.exists_cons_of_ne_nil behind with ⟨head, tail, rfl⟩
    rw [← head_of_map_ageless same]
    rfl

theorem HeadBest.of_ageless (headBest : HeadBest paths)
    (same : others.head?.map Path.ageless = paths.head?.map Path.ageless) : HeadBest others := by
  intro best head
  rw [Option.mem_def.mp head, Option.map_some] at same
  rcases Option.map_eq_some_iff.mp same.symm with ⟨old, oldHead, same⟩
  rw [← Path.best_of_ageless same]
  exact headBest old oldHead

theorem Inserted.headBest (inserted : Inserted multiPath path paths (.ok status) stored)
    (leads : LeadsOrFollows multiPath path paths) (headBest : HeadBest paths) :
    HeadBest stored := by
  rcases inserted.head leads with ⟨_, _, head, shape, best, _⟩ | ⟨_, same⟩
  · intro other otherHead
    rw [shape, Option.mem_some_iff] at otherHead
    exact otherHead ▸ best
  · exact headBest.of_ageless same

variable {before after : List Path} {removed : Path}

theorem Dropped.head (dropped : Dropped multiPath pfx before removed after status stored)
    (headBest : HeadBest (before ++ removed :: after)) :
    (RibManager.noticesOf status = [] ∧ stored.head?.map Path.ageless =
      (before ++ removed :: after).head?.map Path.ageless) ∨
    (status = .withdrawn pfx removed.kind ∧ before ++ after = [] ∧ stored = []) ∨
    (∃ next, Succeeds multiPath before removed after next ∧
      status = .bestPathChanged pfx next.id ∧
      ∃ head, stored.head? = some head ∧ head.best = true ∧ head.unmarked = next.unmarked) ∨
    (RibManager.noticesOf status = [] ∧ before = [] ∧ multiPath = true ∧ 2 ≤ after.length ∧
      stored = after ∧ HeadBest after) := by
  cases dropped with
  | unchanged notBest =>
    refine .inl ⟨rfl, ?_⟩
    cases before with
    | nil => simp [headBest removed (by simp)] at notBest
    | cons first others => rfl
  | emptied best none => exact .inr (.inl ⟨rfl, none, rfl⟩)
  | @succeeded next rest reason succeeds shape =>
    exact .inr (.inr (.inl ⟨next, succeeds, rfl, _, List.head?_cons, rfl, rfl⟩))
  | @recomputed next second rest reason succeeds shape multi tied =>
    rcases head_markEqualCost (next.markBest reason) (second :: rest) with ⟨head, isHead, same⟩
    refine .inr (.inr (.inl ⟨next, succeeds, rfl, head, isHead, ?_, ?_⟩))
    · exact Path.best_of_ageless same
    · exact (Path.unmarked_of_ageless same).trans (Path.unmarked_markBest next reason)
  | @left next rest best shape multi several remains =>
    cases before with
    | nil =>
      rw [List.nil_append] at shape
      refine .inr (.inr (.inr ⟨rfl, rfl, multi, ?_, by simp, ?_⟩))
      · have := List.length_pos_iff.mpr several
        simp only [shape, List.length_cons]
        omega
      intro head isHead
      rw [shape, List.head?_cons, Option.mem_some_iff] at isHead
      exact isHead ▸ remains rfl
    | cons first others => exact .inl ⟨rfl, rfl⟩

theorem Dropped.headBest (dropped : Dropped multiPath pfx before removed after status stored)
    (headBest : HeadBest (before ++ removed :: after)) : HeadBest stored := by
  rcases dropped.head headBest with
    ⟨_, same⟩ | ⟨_, _, rfl⟩ | ⟨next, _, _, head, shape, best, _⟩ | ⟨_, _, _, _, rfl, remains⟩
  · exact headBest.of_ageless same
  · simp [HeadBest]
  · intro other otherHead
    rw [shape, Option.mem_some_iff] at otherHead
    exact otherHead ▸ best
  · exact remains

/-- The tables as the messages presuppose them: the given peers, labelled paths under their
own networks, an identifier that stands for one path, and a head that is marked best. -/
structure Accountable (peers : List NeighborPair) (rib : RibManager) : Prop where
  registered : rib.peers = peers
  sourced : Sourced rib
  filed : rib.locRib.Filed
  identified : ∀ afi pfx, ∀ path ∈ rib.locRib.paths afi pfx,
    ∀ other ∈ rib.locRib.paths afi pfx, path.id = other.id → path.unmarked = other.unmarked
  headBest : ∀ afi pfx, HeadBest (rib.locRib.paths afi pfx)

namespace Accountable

variable {peers : List NeighborPair} {family : AddressFamily}

theorem insert (tables : Accountable peers rib) (localAsn : path.localAsn = rib.asn)
    (unspecified : path.kind = .local → path.peerAddr = .v4 0)
    (sameFamily : path.pfx.afi = family.afi)
    (fresh : ∀ stored ∈ rib.locRib.paths family.afi path.pfx, stored.id = path.id →
      stored.unmarked = path.unmarked)
    (leads : LeadsOrFollows rib.locRib.multiPath path (rib.locRib.paths family.afi path.pfx)) :
    Accountable peers { rib with locRib := (rib.locRib.insert family path).2 } := by
  refine ⟨tables.registered, ?_, tables.filed.insert sameFamily, ?_, ?_⟩
  · refine tables.sourced.insert localAsn unspecified fun stored member sameId => ?_
    exact Path.sameSource_of_unmarked (fresh stored member sameId)
  · exact LocRib.RelatedIds.insert Eq (fun _ _ same => same.symm) tables.identified rfl fresh
  · exact LocRib.insert_forall (fun _ _ => HeadBest) tables.headBest fun inserted =>
      inserted.headBest leads (tables.headBest _ _)

theorem drop (tables : Accountable peers rib) (family : AddressFamily) (net : IpNet) (id : UInt64) :
    Accountable peers { rib with locRib := (rib.locRib.drop family net id).2 } := by
  refine ⟨tables.registered, tables.sourced.drop family net id, tables.filed.drop family net id,
    ?_, ?_⟩
  · exact LocRib.RelatedIds.drop Eq tables.identified
  · exact LocRib.drop_forall (fun _ _ => HeadBest) tables.headBest fun shape _ dropped =>
      dropped.headBest (shape ▸ tables.headBest _ _)

theorem getById (tables : Accountable peers rib) {net : IpNet}
    (member : path ∈ rib.locRib.paths family.afi net) :
    (rib.locRib.getById family net path.id).map Path.unmarked = some path.unmarked := by
  rw [LocRib.getById_eq]
  cases found : (rib.locRib.paths family.afi net).find? fun stored => stored.id == path.id with
  | none =>
    have absent := List.find?_eq_none.mp found path member
    simp at absent
  | some stored =>
    have sameId : stored.id = path.id := by simpa using List.find?_some found
    have storedMem := List.mem_of_find?_eq_some found
    rw [Option.map_some, tables.identified _ _ stored storedMem path member sameId]

end Accountable

namespace RibManager

variable {family : AddressFamily} {skip : PathKind → Bool} {changed : List (IpNet × UInt64)}

/-- What the peer will have been told once a changed entry is announced. -/
def tell (rib : RibManager) (family : AddressFamily) (skip : PathKind → Bool) (pfx : IpNet)
    (told : Told) (entry : IpNet × UInt64) : Told :=
  match rib.locRib.getById family entry.1 entry.2 with
  | some path => if skip path.kind then told else told.hear pfx path
  | none => told

def Found (rib : RibManager) (family : AddressFamily) (changed : List (IpNet × UInt64)) : Prop :=
  ∀ entry ∈ changed, ∃ path, rib.locRib.getById family entry.1 entry.2 = some path

theorem Found.left {more : List (IpNet × UInt64)} (found : rib.Found family (changed ++ more)) :
    rib.Found family changed :=
  fun entry member => found entry (List.mem_append_left _ member)

theorem found_of_advertised_eq_ok (result : rib.advertised family skip changed = .ok paths) :
    rib.Found family changed := by
  induction changed generalizing paths with
  | nil => simp [Found]
  | cons entry rest ih =>
    rcases entry with ⟨net, id⟩
    simp only [advertised] at result
    cases found : rib.locRib.getById family net id with
    | none => simp [found] at result
    | some path =>
      simp only [found] at result
      rcases Outcome.bind_eq_ok.mp result with ⟨others, othersOk, _⟩
      intro entry member
      rcases List.mem_cons.mp member with rfl | member
      · exact ⟨path, found⟩
      · exact ih othersOk entry member

theorem receive_advertised (result : rib.advertised family skip changed = .ok paths) :
    told.receive pfx (.advertise paths) = changed.foldl (rib.tell family skip pfx) told := by
  simp only [Told.receive]
  induction changed generalizing paths told with
  | nil =>
    simp only [advertised, Outcome.ok.injEq] at result
    simp [← result]
  | cons entry rest ih =>
    rcases entry with ⟨net, id⟩
    simp only [advertised] at result
    cases found : rib.locRib.getById family net id with
    | none => simp [found] at result
    | some path =>
      simp only [found] at result
      rcases Outcome.bind_eq_ok.mp result with ⟨others, othersOk, shape⟩
      simp only [Outcome.ok.injEq] at shape
      subst shape
      rw [List.foldl_cons, tell, found]
      dsimp only
      split_ifs
      · exact ih othersOk
      · rw [List.foldl_cons]
        exact ih othersOk

theorem foldl_tell_congr (same : ∀ entry ∈ changed,
      (rib'.locRib.getById family entry.1 entry.2).map Path.unmarked =
        (rib.locRib.getById family entry.1 entry.2).map Path.unmarked) :
    changed.foldl (rib'.tell family skip pfx) told =
      changed.foldl (rib.tell family skip pfx) told := by
  refine List.foldl_ext _ _ _ fun told entry member => ?_
  have same := same entry member
  unfold tell
  cases found : rib.locRib.getById family entry.1 entry.2 with
  | none =>
    rw [found, Option.map_none, Option.map_eq_none_iff] at same
    rw [same]
  | some path =>
    rw [found, Option.map_some, Option.map_eq_some_iff] at same
    rcases same with ⟨path', found', same⟩
    rw [found']
    simp only [Told.hear, Path.kind_of_unmarked same, Path.pfx_of_unmarked same, same]

theorem tell_of_mem {peers : List NeighborPair} {head next : Path} (tables : Accountable peers rib)
    (member : head ∈ rib.locRib.paths family.afi pfx) (same : head.unmarked = next.unmarked) :
    rib.tell family skip pfx told (pfx, next.id) =
      if skip next.kind then told else .announced next.unmarked := by
  have lookup := tables.getById member
  rw [Path.id_of_unmarked same] at lookup
  rcases Option.map_eq_some_iff.mp lookup with ⟨entry, found, entrySame⟩
  have net := tables.filed.nets _ _ head member
  have entrySame := entrySame.trans same
  simp only [tell, found, Told.hear, Path.kind_of_unmarked entrySame, entrySame,
    Path.pfx_of_unmarked entrySame, ← Path.pfx_of_unmarked same, net, if_true]

theorem foldl_tell_of_ne (filed : rib.locRib.Filed) (other : ∀ entry ∈ changed, entry.1 ≠ pfx) :
    changed.foldl (rib.tell family skip pfx) told = told := by
  induction changed with
  | nil => rfl
  | cons entry rest ih =>
    rw [List.foldl_cons]
    have silent : rib.tell family skip pfx told entry = told := by
      unfold tell
      split
      · rename_i path found
        rw [LocRib.getById_eq] at found
        have net := filed.nets _ _ path (List.mem_of_find?_eq_some found)
        simp [Told.hear, net, other entry (by simp)]
      · rfl
    rw [silent]
    exact ih fun entry member => other entry (by simp [member])

def Informed (state : RibState) : Prop :=
  ∀ peer ∈ state.rib.peers, ∀ pfx,
    (lastTold state.sent peer pfx).Matches (eligibleBest state.rib peer pfx)

/-- A peer will know what it should once the changed entries are announced to it. -/
def InformedBy (family : AddressFamily) (skip : RibManager → NeighborPair → PathKind → Bool)
    (changed : List (IpNet × UInt64)) (state : RibState) (peer : NeighborPair) : Prop :=
  ∀ pfx, (changed.foldl (state.rib.tell family (skip state.rib peer) pfx)
    (lastTold state.sent peer pfx)).Matches (eligibleBest state.rib peer pfx)

variable {env : Env} {skip : RibManager → NeighborPair → PathKind → Bool}
  {tables : RibManager → Prop}

theorem advertise_informs :
    Spec (fun state => tables state.rib ∧ (state.rib.Found family changed →
        ∀ peer ∈ state.rib.peers, InformedBy family skip changed state peer))
      (advertise env family skip changed) (fun _ state => tables state.rib ∧ Informed state)
      (fun _ _ => True) := by
  refine (advertise_spec (fun rest state => tables state.rib ∧ rest.Nodup ∧
    (state.rib.Found family changed → ∀ peer ∈ rest, InformedBy family skip changed state peer) ∧
    ∀ peer ∈ state.rib.peers, peer ∉ rest → ∀ pfx,
      (lastTold state.sent peer pfx).Matches (eligibleBest state.rib peer pfx)) ?_ ?_ ?_).conseq
    ?_ ?_
  · rintro state peer rest ⟨holds, distinct, due, done⟩ result
    refine ⟨holds, distinct.of_cons, fun found other member => due found other (by simp [member]),
      ?_⟩
    intro other registered notRest pfx
    by_cases isPeer : other = peer
    · subst isPeer
      have informed := due (found_of_advertised_eq_ok result) other (by simp) pfx
      rwa [← receive_advertised result] at informed
    · exact done other registered (by simp [isPeer, notRest]) pfx
  · rintro state peer rest paths ⟨holds, distinct, due, done⟩ result
    have notRest := (List.nodup_cons.mp distinct).1
    refine ⟨holds, distinct.of_cons, fun found other member pfx => ?_, ?_⟩
    · have differ : peer ≠ other := by
        rintro rfl
        exact notRest member
      rw [lastTold_send_of_ne state differ]
      exact due found other (by simp [member]) pfx
    intro other registered notRest pfx
    by_cases isPeer : peer = other
    · subst isPeer
      have informed := due (found_of_advertised_eq_ok result) peer (by simp) pfx
      rw [← receive_advertised result] at informed
      rw [lastTold_send]
      exact informed
    · rw [lastTold_send_of_ne state isPeer]
      exact done other registered (by simp [Ne.symm isPeer, notRest]) pfx
  · exact fun _ _ _ _ _ => trivial
  · rintro state ⟨holds, due⟩
    exact ⟨holds, state.rib.peersTx.keys_nodup, due, fun peer member absent => absurd member absent⟩
  · rintro _ state ⟨holds, _, _, done⟩
    exact ⟨holds, fun peer registered => done peer registered (by simp)⟩

variable {neighbor : NeighborPair}

theorem skips_eq_false_iff (localAsn : path.localAsn = rib.asn)
    (unspecified : path.kind = .local → path.peerAddr = .v4 0) (specified : peer.addr ≠ .v4 0)
    (external : path.kind = .external → path.LearnedFrom neighbor) :
    rib.skips neighbor peer path.kind = false ↔ Offerable rib.asn peer path := by
  constructor
  · intro notSkipped
    refine offerable_of_labels localAsn unspecified specified ?_ ?_
    · intro kind learned
      rw [kind] at notSkipped
      simp only [skips, beq_eq_false_iff_ne] at notSkipped
      exact notSkipped (learned.unique (external kind))
    intro kind
    rw [kind] at notSkipped
    simpa [skips] using notSkipped
  · rintro ⟨notLearned, notInternal⟩
    cases kind : path.kind with
    | «local» => rfl
    | external =>
      simp only [skips, beq_eq_false_iff_ne]
      rintro rfl
      exact notLearned (external kind)
    | internal =>
      simp only [skips, beq_eq_false_iff_ne]
      exact fun sameAsn => notInternal sameAsn.symm kind

/-- A path that is installed belongs to the family of its batch, is placed before the best
paths or behind them, has the identifier of no other path of its network, and may be offered
to every peer that knows the path whose place it takes. -/
@[mk_iff]
structure Announceable (family : AddressFamily) (asn : UInt32) (peers : List NeighborPair)
    (locRib : LocRib) (path : Path) : Prop where
  sameFamily : path.pfx.afi = family.afi
  leads : LeadsOrFollows locRib.multiPath path (locRib.paths family.afi path.pfx)
  fresh : ∀ stored ∈ locRib.paths family.afi path.pfx, stored.id = path.id →
    stored.unmarked = path.unmarked
  offered : position locRib.multiPath path (locRib.paths family.afi path.pfx) = 0 →
    ∀ best ∈ (locRib.paths family.afi path.pfx).head?, ∀ peer ∈ peers,
      Offerable asn peer best → Offerable asn peer path

instance (family : AddressFamily) (asn : UInt32) (peers : List NeighborPair) (locRib : LocRib)
    (path : Path) : Decidable (Announceable family asn peers locRib path) :=
  decidable_of_iff' _ (announceable_iff ..)

variable {peers : List NeighborPair}

structure Labelled (asn : UInt32) (neighbor : NeighborPair) (path : Path) : Prop where
  localAsn : path.localAsn = asn
  unspecified : path.kind = .local → path.peerAddr = .v4 0
  external : path.kind = .external → path.LearnedFrom neighbor

theorem Announceable.accountable (tables : Accountable peers rib)
    (labels : Labelled rib.asn neighbor path)
    (condition : Announceable family rib.asn rib.peers rib.locRib path) :
    Accountable peers { rib with locRib := (rib.locRib.insert family path).2 } :=
  tables.insert labels.localAsn labels.unspecified condition.sameFamily condition.fresh
    condition.leads

variable {todo : List Path}

theorem getById_insert (tables : Accountable peers rib')
    (inserted : rib'.locRib = (rib.locRib.insert family path).2) {entry : IpNet × UInt64}
    {old : Path} (found : rib.locRib.getById family entry.1 entry.2 = some old) :
    (rib'.locRib.getById family entry.1 entry.2).map Path.unmarked = some old.unmarked := by
  rw [LocRib.getById_eq] at found
  have sameId : old.id = entry.2 := by simpa using List.find?_some found
  rcases LocRib.exists_mem_insert_of_mem (List.mem_of_find?_eq_some found) with
    ⟨stored, storedMem, same⟩
  rw [← inserted] at storedMem
  rw [← sameId, ← Path.id_of_unmarked same, ← same]
  exact tables.getById storedMem

theorem Found.insert (found : rib.Found family changed) (tables : Accountable peers rib')
    (inserted : rib'.locRib = (rib.locRib.insert family path).2)
    (returned : (rib.locRib.insert family path).1 = .ok status) :
    rib'.Found family (changed ++ changedBy status) := by
  intro entry member
  rcases List.mem_append.mp member with member | member
  · rcases found entry member with ⟨old, oldFound⟩
    rcases Option.map_eq_some_iff.mp (getById_insert tables inserted oldFound) with
        ⟨stored, same, _⟩
    exact ⟨stored, same⟩
  rw [changedBy_of_insert returned entry member]
  rcases LocRib.exists_mem_insert_self returned with ⟨stored, storedMem, same⟩
  rw [← inserted] at storedMem
  have lookup := tables.getById storedMem
  rw [Path.id_of_unmarked same] at lookup
  rcases Option.map_eq_some_iff.mp lookup with ⟨other, otherFound, _⟩
  exact ⟨other, otherFound⟩

theorem informed_insert (tables : Accountable peers rib) (labels : Labelled rib.asn neighbor path)
    (condition : Announceable family rib.asn rib.peers rib.locRib path)
    (found : rib.Found family changed) (returned : (rib.locRib.insert family path).1 = .ok status)
    {peer : NeighborPair} (registered : peer ∈ rib.peers) {pfx : IpNet} {told : Told}
    (informed : (changed.foldl (rib.tell family (rib.skips neighbor peer) pfx) told).Matches
      (eligibleBest rib peer pfx))
    (shape : rib' = { rib with locRib := (rib.locRib.insert family path).2 }) :
    ((changed ++ changedBy status).foldl (rib'.tell family (rib.skips neighbor peer) pfx)
      told).Matches (eligibleBest rib' peer pfx) := by
  have tables' : Accountable peers rib' := shape ▸ condition.accountable tables labels
  have locRib : rib'.locRib = (rib.locRib.insert family path).2 := by rw [shape]
  have sameAsn : rib'.asn = rib.asn := by rw [shape]
  have kept : changed.foldl (rib'.tell family (rib.skips neighbor peer) pfx) told =
      changed.foldl (rib.tell family (rib.skips neighbor peer) pfx) told := by
    refine foldl_tell_congr fun entry member => ?_
    rcases found entry member with ⟨old, oldFound⟩
    rw [getById_insert tables' locRib oldFound, oldFound, Option.map_some]
  rw [List.foldl_append, kept]
  rcases LocRib.insert_ok returned with ⟨stored, inserted, updated⟩
  rw [← locRib] at updated
  by_cases here : pfx = path.pfx
  · subst here
    have list : rib'.locRib.paths path.pfx.afi path.pfx = stored := by
      rw [updated, if_pos ⟨condition.sameFamily, rfl⟩]
    rcases inserted.head condition.leads with ⟨rfl, first, head, isHead, _, same⟩ | ⟨none, same⟩
    · have headMem : head ∈ rib'.locRib.paths family.afi path.pfx := by
        rw [← condition.sameFamily, list]
        exact List.mem_of_mem_head? isHead
      rw [changedBy, List.foldl_cons, List.foldl_nil, tell_of_mem tables' headMem same]
      refine matches_of_announced sameAsn (by rw [list, isHead]) same ?_ ?_ informed
      · exact skips_eq_false_iff labels.localAsn labels.unspecified
          (tables.sourced.peers peer registered) labels.external
      · rw [condition.sameFamily]
        exact fun best isBest => condition.offered first best isBest peer registered
    rw [none, List.foldl_nil, matches_eligibleBest_congr sameAsn]
    · exact informed
    rw [list, condition.sameFamily]
    have heads := congrArg (Option.map Path.unmarked) same
    rw [Option.map_map, Option.map_map] at heads
    exact heads
  · rw [foldl_tell_of_ne tables'.filed, matches_eligibleBest_congr sameAsn]
    · exact informed
    · rw [updated, if_neg fun at' => here at'.2]
    · intro entry member
      rw [changedBy_of_insert returned entry member]
      exact Ne.symm here

def ElementsAnnounceable (family : AddressFamily) (rib : RibManager) (paths : List Path) : Prop :=
  AllSteps (fun locRib path => (LocRib.insert locRib family path).2)
    (Announceable family rib.asn rib.peers) rib.locRib paths
  deriving Decidable

structure InstallDue (peers : List NeighborPair) (family : AddressFamily)
    (neighbor : NeighborPair) (todo : List Path) (changed : List (IpNet × UInt64))
    (state : RibState) : Prop where
  tables : Accountable peers state.rib
  labels : ∀ path ∈ todo, Labelled state.rib.asn neighbor path
  announceable : ElementsAnnounceable family state.rib todo
  found : state.rib.Found family changed
  informed : ∀ peer ∈ state.rib.peers,
    InformedBy family (fun rib peer => rib.skips neighbor peer) changed state peer

theorem InstallDue.fibStable :
    FibStable (InstallDue peers family neighbor todo changed) := by
  rintro state request ⟨tables, labels, announceable, found, informed⟩
  refine ⟨tables, labels, announceable, found, fun peer registered pfx => ?_⟩
  rw [lastTold_fib]
  exact informed peer registered pfx

theorem InstallDue.insert {state : RibState}
    (due : InstallDue peers family neighbor (path :: todo) changed state)
    (returned : (state.rib.locRib.insert family path).1 = .ok status) :
    InstallDue peers family neighbor todo (changed ++ changedBy status)
      (state.withLocRib (state.rib.locRib.insert family path).2) := by
  have labels := due.labels path (by simp)
  have tables := due.announceable.1.accountable due.tables labels
  refine ⟨tables, fun other member => due.labels other (by simp [member]), due.announceable.2,
    due.found.insert tables rfl returned, fun peer registered pfx => ?_⟩
  exact informed_insert due.tables labels due.announceable.1 due.found returned registered
    (due.informed peer registered pfx) rfl

theorem installPaths_informs {env : Env} {applyToFib : Bool} {paths : List Path} :
    Spec (fun state => Accountable peers state.rib ∧ Informed state ∧
        (∀ path ∈ paths, Labelled state.rib.asn neighbor path) ∧
        ∀ first ∈ paths.head?, ElementsAnnounceable first.family state.rib paths)
      (installPaths env neighbor paths applyToFib)
      (fun _ state => Accountable peers state.rib ∧ Informed state) (fun _ _ => True) := by
  cases paths with
  | nil => exact Spec.pure fun state holds => ⟨holds.1, holds.2.1⟩
  | cons first rest =>
    have loop : Spec (InstallDue peers first.family neighbor (first :: rest) [])
        (collect (installPath env first.family applyToFib) (first :: rest))
        (fun changed => InstallDue peers first.family neighbor [] ([] ++ changed))
        (fun _ _ => True) := by
      refine Spec.collect (InstallDue peers first.family neighbor) ?_ (first :: rest) []
      intro path todo changed
      refine (installPath_spec (fun status => InstallDue peers first.family neighbor todo
        (changed ++ changedBy status)) (fun _ => InstallDue.fibStable) ?_ ?_ ?_).implies ?_
      · exact fun state status due returned => due.insert returned
      · exact fun _ _ _ _ => trivial
      · exact fun _ _ _ _ _ _ => trivial
      · rintro _ state ⟨status, due, rfl⟩
        exact due
    refine (loop.conseq ?_ fun _ _ holds => holds).bind fun changed => ?_
    · rintro state ⟨tables, informed, labels, announceable⟩
      exact ⟨tables, labels, announceable first (by simp), by simp [Found], informed⟩
    refine advertise_informs.conseq ?_ fun _ _ holds => holds
    rintro state due
    exact ⟨due.tables, fun _ => due.informed⟩

theorem skipsSuccessor_eq_false_iff (localAsn : path.localAsn = rib.asn)
    (unspecified : path.kind = .local → path.peerAddr = .v4 0) (specified : peer.addr ≠ .v4 0)
    (external : path.kind = .external → ¬path.LearnedFrom peer) :
    rib.skipsSuccessor peer path.kind = false ↔ Offerable rib.asn peer path := by
  constructor
  · intro notSkipped
    refine offerable_of_labels localAsn unspecified specified external ?_
    intro kind
    rw [kind] at notSkipped
    simpa [skipsSuccessor] using notSkipped
  · rintro ⟨_, notInternal⟩
    cases kind : path.kind with
    | «local» | external => rfl
    | internal =>
      simp only [skipsSuccessor, beq_eq_false_iff_ne]
      exact fun sameAsn => notInternal sameAsn.symm kind

/-- The last path of a network is withdrawn by its own neighbour.  A path that takes over was not
learned over eBGP from a registered peer, and may be offered to every peer that knows the removed
one.  The first of several best paths goes only when no peer knows it or the next one. -/
@[mk_iff]
structure Yields (neighbor : NeighborPair) (asn : UInt32) (peers : List NeighborPair)
    (multiPath : Bool) (before : List Path) (removed : Path) (after : List Path) : Prop where
  source : before ++ after = [] → removed.kind = .external → removed.LearnedFrom neighbor
  successor : ∀ next ∈ (before ++ after).head?, Succeeds multiPath before removed after next →
    ∀ peer ∈ peers, next.kind = .external → ¬next.LearnedFrom peer
  offered : before = [] → ∀ next ∈ after.head?, Succeeds multiPath before removed after next →
    ∀ peer ∈ peers, Offerable asn peer removed → Offerable asn peer next
  silent : before = [] → multiPath = true → 2 ≤ after.length → ∀ next ∈ after.head?,
    next.best = true → removed.unmarked = next.unmarked ∨
      ∀ peer ∈ peers, ¬Offerable asn peer removed ∧ ¬Offerable asn peer next

set_option synthInstance.maxSize 512 in
instance (neighbor : NeighborPair) (asn : UInt32) (peers : List NeighborPair) (multiPath : Bool)
    (before : List Path) (removed : Path) (after : List Path) :
    Decidable (Yields neighbor asn peers multiPath before removed after) :=
  decidable_of_iff' _ (yields_iff ..)

def ElementYields (family : AddressFamily) (neighbor : NeighborPair) (asn : UInt32)
    (peers : List NeighborPair) (locRib : LocRib) (pathId : IpNet × UInt64) : Prop :=
  ∀ parts ∈ splitById pathId.2 (locRib.paths family.afi pathId.1),
    Yields neighbor asn peers locRib.multiPath parts.1 parts.2.1 parts.2.2
  deriving Decidable

variable {pathId : IpNet × UInt64} {notices : List Notice}

def tellNotices (rib : RibManager) (family : AddressFamily) (neighbor peer : NeighborPair)
    (pfx : IpNet) (told : Told) (notices : List Notice) : Told :=
  (notices.filterMap Notice.advertise?).foldl
    (rib.tell family (rib.skipsSuccessor peer) pfx)
    (told.receive pfx (.withdraw (rib.withdrawnFor neighbor peer
      (notices.filterMap Notice.withdraw?))))

theorem getById_drop (tables : Accountable peers rib)
    (dropped : rib'.locRib = (rib.locRib.drop family pathId.1 pathId.2).2)
    {entry : IpNet × UInt64} {stored : Path}
    (found : rib'.locRib.getById family entry.1 entry.2 = some stored) :
    (rib.locRib.getById family entry.1 entry.2).map Path.unmarked = some stored.unmarked := by
  rw [LocRib.getById_eq, dropped] at found
  have sameId : stored.id = entry.2 := by simpa using List.find?_some found
  rcases LocRib.mem_drop (List.mem_of_find?_eq_some found) with ⟨old, oldMem, same⟩
  rw [← sameId, Path.id_of_unmarked same, same]
  exact tables.getById oldMem

theorem Found.of_drop {changed : List (IpNet × UInt64)} (found : rib'.Found family changed)
    (tables : Accountable peers rib)
    (dropped : rib'.locRib = (rib.locRib.drop family pathId.1 pathId.2).2) :
    rib.Found family changed := by
  intro entry member
  rcases found entry member with ⟨stored, storedFound⟩
  rcases Option.map_eq_some_iff.mp (getById_drop tables dropped storedFound) with ⟨old, oldFound, _⟩
  exact ⟨old, oldFound⟩

theorem noticesOf_drop (returned : (rib.locRib.drop family pathId.1 pathId.2).1 = .ok status) :
    (∀ entry ∈ (noticesOf status).filterMap Notice.advertise?, entry.1 = pathId.1) ∧
      ∀ entry ∈ (noticesOf status).filterMap Notice.withdraw?, entry.1 = pathId.1 := by
  rcases LocRib.drop_ok returned with ⟨_, _, _, _, _, _, dropped, _⟩
  cases dropped <;> simp [noticesOf, Notice.advertise?, Notice.withdraw?]

theorem tellNotices_append_of_ne {more : List Notice} (filed : rib.locRib.Filed)
    (adverts : ∀ entry ∈ more.filterMap Notice.advertise?, entry.1 ≠ pfx)
    (withdrawals : ∀ entry ∈ more.filterMap Notice.withdraw?, entry.1 ≠ pfx) :
    rib.tellNotices family neighbor peer pfx told (notices ++ more) =
      rib.tellNotices family neighbor peer pfx told notices := by
  have silent : pfx ∉ rib.withdrawnFor neighbor peer (more.filterMap Notice.withdraw?) := by
    intro member
    rcases List.mem_map.mp member with ⟨entry, entryMem, rfl⟩
    exact withdrawals entry (List.mem_of_mem_filter entryMem) rfl
  have append : rib.withdrawnFor neighbor peer ((notices ++ more).filterMap Notice.withdraw?) =
      rib.withdrawnFor neighbor peer (notices.filterMap Notice.withdraw?) ++
        rib.withdrawnFor neighbor peer (more.filterMap Notice.withdraw?) := by
    simp [withdrawnFor]
  simp only [tellNotices, List.filterMap_append, List.foldl_append, foldl_tell_of_ne filed adverts]
  rw [← List.filterMap_append, append]
  simp [Told.receive, silent]

theorem tellNotices_drop (tables : Accountable peers rib)
    (dropped : rib'.locRib = (rib.locRib.drop family pathId.1 pathId.2).2)
    (sameAsn : rib'.asn = rib.asn)
    (found : rib'.Found family (notices.filterMap Notice.advertise?)) :
    rib'.tellNotices family neighbor peer pfx told notices =
      rib.tellNotices family neighbor peer pfx told notices := by
  have skips : rib'.skips neighbor peer = rib.skips neighbor peer := by
    funext kind
    cases kind <;> simp [RibManager.skips, sameAsn]
  have successors : rib'.skipsSuccessor peer = rib.skipsSuccessor peer := by
    funext kind
    cases kind <;> simp [skipsSuccessor, sameAsn]
  simp only [tellNotices, withdrawnFor, skips, successors]
  refine foldl_tell_congr fun entry member => ?_
  rcases found entry member with ⟨stored, storedFound⟩
  rw [getById_drop tables dropped storedFound, storedFound, Option.map_some]

variable {net : IpNet} {todo : List (IpNet × UInt64)}

theorem informed_emptied {removed : Path} (sameFamily : net.afi = family.afi)
    (only : (rib.locRib.paths net.afi net).head? = some removed)
    (emptied : rib'.locRib.paths net.afi net = []) (filed : rib'.locRib.Filed)
    (offers : rib.skips neighbor peer removed.kind = false ↔ Offerable rib.asn peer removed)
    (sameAsn : rib'.asn = rib.asn) (found : rib'.Found family (notices.filterMap Notice.advertise?))
    (informed : (rib'.tellNotices family neighbor peer net told notices).Matches
      (eligibleBest rib peer net)) : (rib'.tellNotices family neighbor peer net told
      (notices ++ [.withdraw net removed.kind])).Matches (eligibleBest rib' peer net) := by
  have others : ∀ entry ∈ notices.filterMap Notice.advertise?, entry.1 ≠ net := by
    rintro entry member rfl
    rcases found entry member with ⟨stored, storedFound⟩
    rw [LocRib.getById_eq, ← sameFamily, emptied] at storedFound
    cases storedFound
  have skips : rib'.skips neighbor peer removed.kind = rib.skips neighbor peer removed.kind := by
    cases removed.kind <;> simp [RibManager.skips, sameAsn]
  rw [matches_eligibleBest_of_not_offerable (by simp [emptied])]
  simp only [tellNotices, List.filterMap_append, List.filterMap_cons, List.filterMap_nil,
    Notice.advertise?, Notice.withdraw?, List.append_nil, foldl_tell_of_ne filed others]
    at informed ⊢
  cases skipped : rib.skips neighbor peer removed.kind with
  | false => simp [withdrawnFor, skips, skipped, Told.receive]
  | true =>
    rw [matches_eligibleBest_of_not_offerable (by simp [only, ← offers, skipped])] at informed
    simpa [withdrawnFor, skips, skipped] using informed

theorem informed_succeeded {next head : Path} (sameFamily : net.afi = family.afi)
    (tables : Accountable peers rib') (sameAsn : rib'.asn = rib.asn)
    (leads : (rib'.locRib.paths net.afi net).head? = some head)
    (same : head.unmarked = next.unmarked)
    (offers : rib.skipsSuccessor peer next.kind = false ↔ Offerable rib.asn peer next)
    (offered : ∀ best ∈ (rib.locRib.paths net.afi net).head?, Offerable rib.asn peer best →
      Offerable rib.asn peer next)
    (informed : (rib'.tellNotices family neighbor peer net told notices).Matches
      (eligibleBest rib peer net)) : (rib'.tellNotices family neighbor peer net told
      (notices ++ [.advertise net next.id])).Matches (eligibleBest rib' peer net) := by
  have headMem : head ∈ rib'.locRib.paths family.afi net := by
    rw [← sameFamily]
    exact List.mem_of_mem_head? leads
  have skips : rib'.skipsSuccessor peer next.kind = rib.skipsSuccessor peer next.kind := by
    cases next.kind <;> simp [skipsSuccessor, sameAsn]
  have told' : rib'.tellNotices family neighbor peer net told
      (notices ++ [.advertise net next.id]) =
      rib'.tell family (rib'.skipsSuccessor peer) net
        (rib'.tellNotices family neighbor peer net told notices) (net, next.id) := by
    simp [tellNotices, List.filterMap_cons, Notice.advertise?, Notice.withdraw?]
  rw [told', tell_of_mem tables headMem same, skips]
  exact matches_of_announced sameAsn leads same offers offered informed

theorem informed_drop (tables : Accountable peers rib)
    (condition : ElementYields family neighbor rib.asn rib.peers rib.locRib pathId)
    (returned : (rib.locRib.drop family pathId.1 pathId.2).1 = .ok status)
    (registered : peer ∈ rib.peers)
    (informed : (rib.tellNotices family neighbor peer pfx told notices).Matches
      (eligibleBest rib peer pfx))
    (shape : rib' = { rib with locRib := (rib.locRib.drop family pathId.1 pathId.2).2 })
    (found : rib'.Found family ((notices ++ noticesOf status).filterMap Notice.advertise?)) :
    (rib'.tellNotices family neighbor peer pfx told (notices ++ noticesOf status)).Matches
      (eligibleBest rib' peer pfx) := by
  have tables' : Accountable peers rib' := shape ▸ tables.drop family pathId.1 pathId.2
  have locRib : rib'.locRib = (rib.locRib.drop family pathId.1 pathId.2).2 := by rw [shape]
  have sameAsn : rib'.asn = rib.asn := by rw [shape]
  have old : rib'.Found family (notices.filterMap Notice.advertise?) := by
    rw [List.filterMap_append] at found
    exact found.left
  have kept : rib'.tellNotices family neighbor peer pfx told notices =
      rib.tellNotices family neighbor peer pfx told notices :=
    tellNotices_drop tables locRib sameAsn old
  rcases noticesOf_drop returned with ⟨adverts, withdrawals⟩
  rcases LocRib.drop_ok returned with
    ⟨before, removed, after, stored, split, list, dropped, updated⟩
  rw [← locRib] at updated
  by_cases here : pfx = pathId.1
  · subst here
    have sameFamily : pathId.1.afi = family.afi :=
      (tables.filed.family _ _ (by rw [list]; simp)).symm
    have list' : rib'.locRib.paths pathId.1.afi pathId.1 = stored := by
      rw [updated, if_pos ⟨sameFamily, rfl⟩]
    rw [← sameFamily] at list
    have yields := condition _ split
    have headBest := tables.headBest pathId.1.afi pathId.1
    rw [list] at headBest
    rw [← kept] at informed
    have specified := tables.sourced.peers peer registered
    rcases dropped.head headBest with
      ⟨quiet, same⟩ | ⟨rfl, none, rfl⟩ | ⟨next, succeeds, rfl, head, leads, _, same⟩ |
        ⟨quiet, rfl, multi, several, rfl, remains⟩
    · rw [quiet, List.append_nil, matches_eligibleBest_congr sameAsn]
      · exact informed
      rw [list', list]
      have heads := congrArg (Option.map Path.unmarked) same
      rw [Option.map_map, Option.map_map] at heads
      exact heads
    · have only : before = [] ∧ after = [] := List.append_eq_nil_iff.mp none
      refine informed_emptied sameFamily ?_ list' tables'.filed ?_ sameAsn old informed
      · rw [list, only.1]
        rfl
      have member : removed ∈ rib.locRib.paths pathId.1.afi pathId.1 := by simp [list]
      exact skips_eq_false_iff (tables.sourced.localAsn _ _ removed member)
        (tables.sourced.unspecified _ _ removed member) specified (yields.source none)
    · have isNext := succeeds.2.1
      have member := LocRib.mem_of_mem_others list (List.mem_of_mem_head? isNext)
      refine informed_succeeded sameFamily tables' sameAsn
        (by rw [list', leads]) same ?_ ?_ informed
      · exact skipsSuccessor_eq_false_iff (tables.sourced.localAsn _ _ next member)
          (tables.sourced.unspecified _ _ next member) specified
          (yields.successor next isNext succeeds peer registered)
      intro best isBest offerable
      rw [list] at isBest
      cases before with
      | nil =>
        rw [List.nil_append, List.head?_cons, Option.mem_some_iff] at isBest
        exact yields.offered rfl next isNext succeeds peer registered (isBest ▸ offerable)
      | cons first others =>
        -- the head stays: it is announced once more
        rw [List.cons_append, List.head?_cons, Option.mem_some_iff] at isBest
        rw [List.cons_append, List.head?_cons, Option.some.injEq] at isNext
        exact isNext ▸ isBest ▸ offerable
    · rw [quiet, List.append_nil]
      cases stored with
      | nil => simp at several
      | cons next rest =>
        have leads : (rib'.locRib.paths pathId.1.afi pathId.1).head? = some next := by simp [list']
        have leads' : (rib.locRib.paths pathId.1.afi pathId.1).head? = some removed := by
          simp [list]
        rcases yields.silent rfl multi several next rfl (remains next rfl) with same | hidden
        · rw [matches_eligibleBest_congr sameAsn]
          · exact informed
          · rw [leads, leads', Option.map_some, Option.map_some, same]
        rw [matches_eligibleBest_of_not_offerable] at informed ⊢
        · exact informed
        · simpa [leads, sameAsn] using (hidden peer registered).2
        · simpa [leads'] using (hidden peer registered).1
  · rw [tellNotices_append_of_ne tables'.filed, kept, matches_eligibleBest_congr sameAsn]
    · exact informed
    · rw [updated, if_neg fun at' => here at'.2]
    · exact fun entry member same => here (same.symm.trans (adverts entry member))
    · exact fun entry member same => here (same.symm.trans (withdrawals entry member))

def ElementsYield (family : AddressFamily) (neighbor : NeighborPair) (rib : RibManager)
    (pathIds : List (IpNet × UInt64)) : Prop :=
  AllSteps (fun locRib pathId => (LocRib.drop locRib family pathId.1 pathId.2).2)
    (ElementYields family neighbor rib.asn rib.peers) rib.locRib pathIds
  deriving Decidable

structure DropDue (peers : List NeighborPair) (family : AddressFamily) (neighbor : NeighborPair)
    (todo : List (IpNet × UInt64)) (notices : List Notice) (state : RibState) : Prop where
  tables : Accountable peers state.rib
  yields : ElementsYield family neighbor state.rib todo
  informed : state.rib.Found family (notices.filterMap Notice.advertise?) →
    ∀ peer ∈ state.rib.peers, ∀ pfx, (state.rib.tellNotices family neighbor peer pfx
      (lastTold state.sent peer pfx) notices).Matches (eligibleBest state.rib peer pfx)

theorem DropDue.fibStable :
    FibStable (DropDue peers family neighbor todo notices) := by
  rintro state request ⟨tables, yields, informed⟩
  refine ⟨tables, yields, fun found peer registered pfx => ?_⟩
  rw [lastTold_fib]
  exact informed found peer registered pfx

theorem DropDue.drop {state : RibState}
    (due : DropDue peers family neighbor (pathId :: todo) notices state)
    (returned : (state.rib.locRib.drop family pathId.1 pathId.2).1 = .ok status) :
    DropDue peers family neighbor todo (notices ++ noticesOf status)
      (state.withLocRib (state.rib.locRib.drop family pathId.1 pathId.2).2) := by
  refine ⟨due.tables.drop family pathId.1 pathId.2, due.yields.2, ?_⟩
  intro found peer registered pfx
  have old : (state.withLocRib (state.rib.locRib.drop family pathId.1 pathId.2).2).rib.Found family
      (notices.filterMap Notice.advertise?) := by
    rw [List.filterMap_append] at found
    exact found.left
  exact informed_drop due.tables due.yields.1 returned registered
    (due.informed (old.of_drop due.tables rfl) peer registered pfx) rfl found

theorem withdraw_informs :
    Spec (DropDue peers family neighbor [] notices)
      (withdraw env neighbor (notices.filterMap Notice.withdraw?))
      (fun _ state => Accountable peers state.rib ∧
        (state.rib.Found family (notices.filterMap Notice.advertise?) →
          ∀ peer ∈ state.rib.peers, InformedBy family skipsSuccessor
            (notices.filterMap Notice.advertise?) state peer))
      (fun _ _ => True) := by
  refine (withdraw_spec (fun rest state => Accountable peers state.rib ∧ rest.Nodup ∧
    (state.rib.Found family (notices.filterMap Notice.advertise?) →
      (∀ peer ∈ rest, ∀ pfx, (state.rib.tellNotices family neighbor peer pfx
        (lastTold state.sent peer pfx) notices).Matches (eligibleBest state.rib peer pfx)) ∧
      ∀ peer ∈ state.rib.peers, peer ∉ rest → InformedBy family skipsSuccessor
        (notices.filterMap Notice.advertise?) state peer)) ?_ ?_ ?_).conseq ?_ ?_
  · rintro state peer rest ⟨tables, distinct, informed⟩ none
    refine ⟨tables, distinct.of_cons, fun found => ?_⟩
    rcases informed found with ⟨due, done⟩
    refine ⟨fun other member => due other (by simp [member]), fun other registered notRest => ?_⟩
    by_cases isPeer : other = peer
    · subst isPeer
      intro pfx
      have told := due other (by simp) pfx
      simpa [tellNotices, none, Told.receive] using told
    · exact done other registered (by simp [isPeer, notRest])
  · rintro state peer rest ⟨tables, distinct, informed⟩ _
    have notRest := (List.nodup_cons.mp distinct).1
    refine ⟨tables, distinct.of_cons, fun found => ?_⟩
    rcases informed found with ⟨due, done⟩
    refine ⟨fun other member pfx => ?_, fun other registered notRest pfx => ?_⟩
    · have differ : peer ≠ other := by
        rintro rfl
        exact notRest member
      rw [lastTold_send_of_ne state differ]
      exact due other (by simp [member]) pfx
    by_cases isPeer : peer = other
    · subst isPeer
      rw [lastTold_send]
      exact due peer (by simp) pfx
    · rw [lastTold_send_of_ne state isPeer]
      exact done other registered (by simp [Ne.symm isPeer, notRest]) pfx
  · exact fun _ _ _ _ _ => trivial
  · rintro state ⟨tables, _, informed⟩
    exact ⟨tables, state.rib.peersTx.keys_nodup, fun found =>
      ⟨informed found, fun peer member absent => absurd member absent⟩⟩
  · rintro _ state ⟨tables, _, informed⟩
    exact ⟨tables, fun found peer registered => (informed found).2 peer registered (by simp)⟩

theorem dropPaths_informs {applyToFib : Bool} {pathIds : List (IpNet × UInt64)} :
    Spec (fun state => Accountable peers state.rib ∧ Informed state ∧
        ElementsYield family neighbor state.rib pathIds)
      (dropPaths env neighbor family pathIds applyToFib)
      (fun _ state => Accountable peers state.rib ∧ Informed state) (fun _ _ => True) := by
  have loop : Spec (DropDue peers family neighbor pathIds [])
      (collect (dropPath env family applyToFib) pathIds)
      (fun notices => DropDue peers family neighbor [] ([] ++ notices)) (fun _ _ => True) := by
    refine Spec.collect (DropDue peers family neighbor) ?_ pathIds []
    intro pathId todo notices
    refine (dropPath_spec (fun status => DropDue peers family neighbor todo
      (notices ++ noticesOf status)) (fun _ => DropDue.fibStable) ?_ ?_ ?_).implies ?_
    · exact fun state status due returned => due.drop returned
    · exact fun _ _ _ _ => trivial
    · exact fun _ _ _ _ _ _ => trivial
    · rintro _ state ⟨status, due, rfl⟩
      exact due
  refine (loop.conseq ?_ fun _ _ holds => holds).bind fun notices => ?_
  · rintro state ⟨tables, informed, yields⟩
    refine ⟨tables, yields, fun _ peer registered pfx => ?_⟩
    simpa [tellNotices, withdrawnFor, Told.receive] using informed peer registered pfx
  · exact withdraw_informs.bind fun _ => advertise_informs

theorem foldl_hear_matches {paths : List Path} {pfx : IpNet} {told : Told}
    {eligible : Option Path} (before : told.Matches eligible)
    (heard : ∀ path ∈ paths, path.pfx = pfx → (Told.announced path.unmarked).Matches eligible) :
    (paths.foldl (Told.hear pfx) told).Matches eligible := by
  induction paths generalizing told with
  | nil => exact before
  | cons path rest ih =>
    refine ih ?_ fun other member => heard other (by simp [member])
    unfold Told.hear
    split_ifs with same
    · exact heard path (by simp) same
    · exact before

theorem init_informs {env : Env} {peers : List NeighborPair} {family : AddressFamily} :
    Spec (fun state => Accountable peers state.rib ∧ Informed state ∧
        InitAllowed family neighbor state.rib)
      (init env family neighbor)
      (fun _ state => Accountable peers state.rib ∧ Informed state) (fun _ _ => True) := by
  refine Spec.read.bind fun rib => ?_
  split
  · rename_i paths found
    split_ifs with registered
    · refine RibM.output_spec ?_ fun _ _ _ _ => trivial
      rintro state ⟨rfl, tables, informed, internal⟩
      refine ⟨tables, fun peer isPeer pfx => ?_⟩
      by_cases isNeighbor : neighbor = peer
      · subst isNeighbor
        rw [lastTold_send]
        refine foldl_hear_matches (informed neighbor isPeer pfx) fun path pathMem samePfx => ?_
        rcases List.mem_filter.mp pathMem with ⟨pathMem, passes⟩
        rcases head_of_mem_getAllBest found pathMem with ⟨net, head⟩
        have stored := List.mem_of_mem_head? head
        have offerable := offerable_of_initFilter tables.sourced stored registered passes
          fun sameAsn => internal sameAsn paths found path pathMem
        have sameNet : net = pfx := (tables.filed.nets _ _ path stored).symm.trans samePfx
        have sameFamily := tables.filed.family _ _ (List.ne_nil_of_mem stored)
        rw [sameFamily, sameNet] at head
        exact (matches_eligibleBest_of_offerable head offerable).mpr rfl
      · rw [lastTold_send_of_ne state isNeighbor]
        exact informed peer isPeer pfx
    · exact Spec.fail fun _ _ => trivial
  · exact Spec.pure fun state holds => ⟨holds.2.1, holds.2.2.1⟩

end RibManager

/-- Only events about paths occur.  An iBGP peer comes up when no internal path of another neighbour
is best, installed paths are labelled with their neighbour, and every element of a batch is
announceable, or yields its place, in the table it finds. -/
def KeepsInformed (env : Env) (state : RibState) : RibEvent → Prop
  | .init family neighbor => RibManager.InitAllowed family neighbor state.rib
  | .addPath networks attrs =>
    (RibManager.addPathBuild env state networks attrs).Forall fun paths =>
      ∀ first ∈ paths.head?, RibManager.ElementsAnnounceable first.family state.rib paths
  | .deletePath family networks =>
    RibManager.ElementsYield family ⟨.v4 state.rib.routerId, state.rib.asn⟩ state.rib
      (state.rib.deletePathIds family networks)
  | .installPaths neighbor paths =>
    (∀ path ∈ paths, path.LearnedFrom neighbor ∧ path.localAsn = state.rib.asn ∧
      path.kind ≠ .local) ∧
    ∀ first ∈ paths.head?, RibManager.ElementsAnnounceable first.family state.rib paths
  | .dropPaths neighbor family pathIds =>
    RibManager.ElementsYield family neighbor state.rib pathIds
  | _ => False

instance (env : Env) (state : RibState) :
    (event : RibEvent) → Decidable (KeepsInformed env state event)
  | .init _ _ => inferInstanceAs (Decidable (RibManager.InitAllowed _ _ _))
  | .addPath _ _ => inferInstanceAs (Decidable (Outcome.Forall _ _))
  | .deletePath _ _ => inferInstanceAs (Decidable (RibManager.ElementsYield _ _ _ _))
  | .installPaths _ _ => inferInstanceAs (Decidable (_ ∧ ∀ _ ∈ _, _))
  | .dropPaths _ _ _ => inferInstanceAs (Decidable (RibManager.ElementsYield _ _ _ _))
  | .setAsn _ | .setRouterId _ | .setMultiPath _ | .addPeer _ | .deletePeer _ | .flush _ _
  | .advertise _ | .withdraw _ | .getPath _ | .getPathByPrefix _ _ => isFalse id

namespace RibState

open RibManager

variable {env : Env} {rib : RibManager} {protocols : List Afi} {multiPath : Bool}
  {events : List RibEvent}

def Returns (env : Env) (state : RibState) (event : RibEvent) : Prop :=
  (handle env event state).1 = .ok ⟨⟩
  deriving Decidable

theorem apply_informed {peers : List NeighborPair} {state : RibState} {event : RibEvent}
    (tables : Accountable peers state.rib) (informed : Informed state)
    (returned : Returns env state event) (condition : KeepsInformed env state event) :
    Accountable peers (state.apply env event).rib ∧ Informed (state.apply env event) := by
  have result : handle env event state = (.ok ⟨⟩, state.apply env event) :=
    Prod.ext returned rfl
  cases event with
  | init family neighbor => exact init_informs.returns ⟨tables, informed, condition⟩ result
  | addPath networks attrs =>
    change ((lift (addPathBuild env state networks attrs) : RibM (List Path)) >>=
      fun paths => installPaths env ⟨.v4 state.rib.routerId, state.rib.asn⟩ paths false) state =
        _ at result
    simp only [KeepsInformed] at condition
    cases built : addPathBuild env state networks attrs with
    | ok paths =>
      rw [built] at condition result
      have source := addPathBuild_source built ⟨.v4 state.rib.routerId, state.rib.asn⟩
      exact installPaths_informs.returns ⟨tables, informed, fun path member =>
        ⟨source.localAsn path member, source.unspecified path member,
          source.external path member⟩, condition⟩ result
    | error cause | panic => simp [built, bind_apply, lift] at result
  | deletePath family networks | dropPaths neighbor family pathIds =>
    exact dropPaths_informs.returns ⟨tables, informed, condition⟩ result
  | installPaths neighbor paths =>
    refine installPaths_informs.returns ⟨tables, informed, fun path member => ?_, condition.2⟩
      result
    rcases condition.1 path member with ⟨learned, localAsn, notLocal⟩
    exact ⟨localAsn, fun isLocal => absurd isLocal notLocal, fun _ => learned⟩
  | setAsn _ | setRouterId _ | setMultiPath _ | addPeer _ | deletePeer _ | flush _ _
  | advertise _ | withdraw _ | getPath _ | getPathByPrefix _ _ => exact condition.elim

theorem start_accountable (fresh : rib.locRib = .new protocols multiPath)
    (specified : ∀ peer ∈ rib.peers, peer.addr ≠ .v4 0) : Accountable rib.peers rib := by
  have empty : ∀ afi pfx, rib.locRib.paths afi pfx = [] := by
    intro afi pfx
    rw [fresh, LocRib.new_paths]
  refine ⟨rfl, ⟨?_, ?_, ?_, specified⟩, fresh ▸ LocRib.Filed.new .., ?_, ?_⟩
  all_goals
    simp [empty, HeadBest]

/-- In every run of events that succeed and keep the peers informed, the last message to each
peer about each network announces the path at the head of the Loc-RIB, or, when that path may
not be offered to the peer or there is none, the peer was told nothing or a withdrawal. -/
theorem run_peers_informed (fresh : rib.locRib = .new protocols multiPath)
    (specified : ∀ peer ∈ rib.peers, peer.addr ≠ .v4 0)
    (returned : AllSteps (apply env) (Returns env) (start rib) events)
    (steps : AllSteps (apply env) (KeepsInformed env) (start rib) events)
    {peer : NeighborPair} (registered : peer ∈ rib.peers) (pfx : IpNet) :
    let state := (start rib).run env events
    (lastTold state.sent peer pfx).Matches (eligibleBest state.rib peer pfx) := by
  have untold : Informed (start rib) := by
    intro peer _ pfx
    have empty : (start rib).rib.locRib.paths pfx.afi pfx = [] := by
      change rib.locRib.paths pfx.afi pfx = []
      rw [fresh, LocRib.new_paths]
    rw [matches_eligibleBest_of_not_offerable (by simp [empty])]
    exact .inl rfl
  have initial : Accountable rib.peers (start rib).rib ∧ Informed (start rib) :=
    ⟨start_accountable fresh specified, untold⟩
  have invariant := foldl_invariant
    (fun state : RibState => Accountable rib.peers state.rib ∧ Informed state)
    (fun state event holds conditions =>
      apply_informed holds.1 holds.2 conditions.1 conditions.2) initial (returned.and steps)
  exact invariant.2 peer (by rwa [invariant.1.registered]) pfx

def samplePeering : RibManager :=
  { sampleRib false with
    peersTx := (AList.singleton (sampleNeighbor 0x0a000001 65001) ()).insert
      (sampleNeighbor 0x0a000002 65002) () }

def samplePeeringEvents : List RibEvent :=
  [.init .ipv4Unicast (sampleNeighbor 0x0a000001 65001),
    .init .ipv4Unicast (sampleNeighbor 0x0a000002 65002),
    .installPaths (sampleNeighbor 0x0a000001 65001) [samplePath 1 0x0a000001 65001 100 [65001]]]

theorem run_peers_informed_of_replaced :
    let state := (start samplePeering).run sampleEnv (samplePeeringEvents ++
      [.dropPaths (sampleNeighbor 0x0a000001 65001) .ipv4Unicast [(sampleNet, 1)],
        .installPaths (sampleNeighbor 0x0a000001 65001)
          [samplePath 2 0x0a000001 65001 200 [65001]]])
    (eligibleBest state.rib (sampleNeighbor 0x0a000002 65002) sampleNet).isSome ∧
      (lastTold state.sent (sampleNeighbor 0x0a000002 65002) sampleNet).Matches
        (eligibleBest state.rib (sampleNeighbor 0x0a000002 65002) sampleNet) :=
  ⟨by decide, run_peers_informed rfl (by decide) (by decide) (by decide) (by decide) sampleNet⟩

def isTableEvent : RibEvent → Bool
  | .init _ _ | .installPaths _ _ | .dropPaths _ _ _ | .addPath _ _ | .deletePath _ _ => true
  | _ => false

/-- When the second peer announces a better path, it is not told that the one it knew is no
longer the best. -/
theorem run_not_peers_informed :
    ¬∀ events : List RibEvent, (∀ event ∈ events, isTableEvent event) →
      AllSteps (apply sampleEnv) (Returns sampleEnv) (start samplePeering)
        (samplePeeringEvents ++ events) →
      ∀ peer ∈ samplePeering.peers, ∀ pfx,
        let state := (start samplePeering).run sampleEnv (samplePeeringEvents ++ events)
        (lastTold state.sent peer pfx).Matches (eligibleBest state.rib peer pfx) := by
  intro claim
  have stale := claim
    [.installPaths (sampleNeighbor 0x0a000002 65002) [samplePath 2 0x0a000002 65002 200 [65002]]]
    (by decide) (by decide) (sampleNeighbor 0x0a000002 65002) (by decide) sampleNet
  revert stale
  decide

end RibState

end Sart
