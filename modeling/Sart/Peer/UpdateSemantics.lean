import Sart.Packet.Decoded
import Sart.Peer.UpdateMeaning

/-!
# When the handler does what an UPDATE message means

A message with withdrawn routes is not read any further, `MP_UNREACH_NLRI` is
ignored, all announced networks share one family and one list of next hops, and a
path through the own AS leaves the previous one in the table.
-/

namespace Sart

open Sart.Lib

namespace Update

/-- A message with withdrawn routes carries nothing else that would change the table. -/
structure OnlyWithdraws (peer : Peer) (update : Update) : Prop where
  unreachable : ∀ dest ∈ update.unreachable, dest ∉ update.withdrawn →
    update.hopsAt dest = none → peer.adjRibIn.stored dest = none
  announced : update.announced ≠ [] → ∃ builder lists,
    update.read peer.info = .ok (builder, lists) ∧
    ∀ dest hops, update.hopsAt dest = some hops →
      if peer.info.sees lists then
        dest ∈ update.withdrawn ∨ peer.adjRibIn.stored dest = none
      else dest ∉ update.withdrawn ∧
        (peer.adjRibIn.stored dest).map Path.content = some (builder.route lists dest hops)

/-- The shared family and the shared next hops are right where it matters. -/
structure StoredRight (rib : AdjRib) (update : Update) (route : Destination → List IpAddr → Path) :
    Prop where
  registered : update.networks ≠ [] → rib.Registered update.family
  here : ∀ dest ∈ update.targets, update.hopsAt dest = some update.nextHops ∨
    update.hopsAt dest = none ∧ dest ∉ update.unreachable ∧
      (rib.stored dest).map Path.content = some (route dest update.nextHops)
  elsewhere : ∀ dest hops, dest ∉ update.targets → update.hopsAt dest = some hops →
    (rib.stored dest).map Path.content = some (route dest hops)
  unreachable : ∀ dest ∈ update.unreachable, dest ∉ update.targets →
    update.hopsAt dest = none → rib.stored dest = none

/-- A message without withdrawn routes.  If it leads through the own AS, nothing it names is in the
table. -/
def OnlyAnnounces (peer : Peer) (update : Update) : Prop :=
  ∃ builder lists, update.read peer.info = .ok (builder, lists) ∧
    if peer.info.sees lists then
      ∀ dest, update.hopsAt dest ≠ none ∨ dest ∈ update.unreachable →
        peer.adjRibIn.stored dest = none
    else update.StoredRight peer.adjRibIn (builder.route lists)

def Compatible (peer : Peer) (update : Update) : Prop :=
  if update.withdrawnRoutes = [] then update.OnlyAnnounces peer else update.OnlyWithdraws peer

variable {hash : PathBuilder → UInt64} {clock : ℕ → ℕ} {peer : Peer} {update : Update}
  {writes : List (Destination × Option Path)} {info : PeerInfo} {lists : List UInt32 × List UInt32}
  {builder : PathBuilder}

theorem due_eq_ok (due : update.due info = .ok writes) (announced : update.announced ≠ []) :
    ∃ builder lists, update.read info = .ok (builder, lists) := by
  rw [Update.due, if_neg announced] at due
  rcases Outcome.bind_eq_ok.mp due with ⟨⟨builder, lists⟩, reads, _⟩
  exact ⟨builder, lists, reads⟩

theorem exists_due
    (reads : update.announced ≠ [] → ∃ builder lists, update.read info = .ok (builder, lists)) :
    ∃ writes, update.due info = .ok writes := by
  unfold Update.due
  split_ifs with silent
  · exact ⟨[], rfl⟩
  rcases reads silent with ⟨builder, lists, reads⟩
  rw [reads, Outcome.ok_bind]
  exact ⟨_, rfl⟩

theorem exists_reading (due : update.due info = .ok writes) :
    ∃ builder lists, update.announced ≠ [] → update.read info = .ok (builder, lists) := by
  by_cases silent : update.announced = []
  · exact ⟨PathBuilder.builder 0 0 0 (.v4 0) 0, ([], []), fun announced => absurd silent announced⟩
  · rcases due_eq_ok due silent with ⟨builder, lists, reads⟩
    exact ⟨builder, lists, fun _ => reads⟩

theorem announced_of_hopsAt {dest : Destination} {hops : List IpAddr}
    (found : update.hopsAt dest = some hops) : update.announced ≠ [] := by
  intro silent
  rw [hopsAt_of_not_announced silent] at found
  cases found

theorem obeyed_iff_of_handle {event : RibEvent} {peer' : Peer}
    (ran : update.handle hash clock peer = (.ok event, peer'))
    (describes : event.Describes peer.info.neighbor.pair peer.adjRibIn.stored
      peer'.adjRibIn.stored) :
    update.Obeyed hash clock peer ↔ ∃ writes, update.due peer.info = .ok writes ∧
      ∀ builder lists, (update.announced ≠ [] → update.read peer.info = .ok (builder, lists)) →
        ∀ dest, (peer'.adjRibIn.stored dest).map Path.content =
          update.meant peer builder lists dest := by
  constructor
  · rintro ⟨writes, event', peer'', due, ran', agrees, _⟩
    have same := ran.symm.trans ran'
    rcases same with ⟨_, rfl⟩
    refine ⟨writes, due, fun builder lists reads dest => ?_⟩
    rw [agrees, meant_eq due reads]
  · rintro ⟨writes, due, agrees⟩
    rcases exists_reading due with ⟨builder, lists, reads⟩
    refine ⟨writes, event, peer', due, ran, fun dest => ?_, describes⟩
    rw [agrees builder lists reads, meant_eq due reads]

theorem obeyed_iff_of_withdrawn (some : update.withdrawnRoutes ≠ [])
    (ipv4 : ∀ net ∈ update.withdrawnRoutes, net.inner.afi = .ipv4)
    (filed : peer.adjRibIn.WellFiled) :
    update.Obeyed hash clock peer ↔ update.OnlyWithdraws peer := by
  rcases handle_withdrawn hash clock some ipv4 filed with ⟨event, rib, ran, stored, describes⟩
  have after : ∀ dest, (rib.stored dest).map Path.content =
      if dest ∈ update.withdrawn then none
      else (peer.adjRibIn.stored dest).map Path.content := by
    intro dest
    rw [stored, overwrite_apply, lastWrite_const]
    split_ifs <;> rfl
  rw [obeyed_iff_of_handle ran describes]
  constructor
  · rintro ⟨writes, due, agrees⟩
    refine ⟨?_, ?_⟩
    · intro dest member kept silent
      rcases exists_reading due with ⟨builder, lists, reads⟩
      have agree := agrees builder lists reads dest
      rw [Peer.adjRibIn_withAdjRib, after, if_neg kept, meant, silent] at agree
      simpa [member] using agree
    intro announced
    rcases due_eq_ok due announced with ⟨builder, lists, reads⟩
    refine ⟨builder, lists, reads, fun dest hops found => ?_⟩
    have agree := agrees builder lists (fun _ => reads) dest
    rw [Peer.adjRibIn_withAdjRib, after, meant, found] at agree
    by_cases returns : peer.info.sees lists = true
    · simp only [returns, if_true] at agree ⊢
      by_cases gone : dest ∈ update.withdrawn
      · exact .inl gone
      · exact .inr (by simpa [gone] using agree)
    simp only [returns] at agree ⊢
    by_cases gone : dest ∈ update.withdrawn
    · simp [gone] at agree
    · exact ⟨gone, by simpa [gone] using agree⟩
  · rintro ⟨unreachable, announced⟩
    rcases exists_due fun some => (announced some).imp fun _ rest => rest.imp fun _ reads => reads.1
      with ⟨writes, due⟩
    refine ⟨writes, due, fun builder lists reads dest => ?_⟩
    rw [Peer.adjRibIn_withAdjRib, after, meant]
    cases found : update.hopsAt dest with
    | none =>
      by_cases gone : dest ∈ update.withdrawn
      · simp [gone]
      by_cases member : dest ∈ update.unreachable
      · simp [gone, member, unreachable dest member gone found]
      · simp [gone, member]
    | some hops =>
      have some := announced_of_hopsAt found
      rcases announced some with ⟨builder', lists', reads', here⟩
      rw [reads some] at reads'
      cases reads'
      have due := here dest hops found
      by_cases returns : peer.info.sees lists = true
      · simp only [returns, if_true] at due ⊢
        rcases due with gone | absent
        · rw [if_pos gone]
        · simp [absent]
      · simp only [returns] at due ⊢
        simpa [due.1] using due.2

section

variable (only : update.withdrawnRoutes = [])

include only

section

variable (reads : update.read peer.info = .ok (builder, lists))

include reads

theorem obeyed_iff_of_seen (returns : peer.info.sees lists = true) :
    update.Obeyed hash clock peer ↔ ∀ dest, update.hopsAt dest ≠ none ∨ dest ∈ update.unreachable →
      peer.adjRibIn.stored dest = none := by
  have ran : update.handle hash clock peer =
      (.ok (.installPaths peer.info.neighbor.pair []), peer) := by
    rw [handle_of_read hash clock only reads, Effect.bind_apply,
      Peer.collect_acceptPath_none fun path member => by
        rw [(mem_built hash clock reads member).2.1, returns]]
    rfl
  rw [obeyed_iff_of_handle ran ⟨.inl ⟨_, rfl⟩, rfl, by rintro _ _ ⟨⟩⟩]
  rcases exists_due fun _ => ⟨builder, lists, reads⟩ with ⟨writes, due⟩
  have gone : update.withdrawn = [] := by rw [withdrawn, only, List.map_nil]
  constructor
  · rintro ⟨_, _, agrees⟩ dest named
    have agree := agrees builder lists (fun _ => reads) dest
    rw [meant, returns, gone] at agree
    rcases named with announced | unreachable
    · rcases Option.ne_none_iff_exists'.mp announced with ⟨hops, found⟩
      simpa [found] using agree
    · cases found : update.hopsAt dest <;> simpa [found, unreachable] using agree
  · intro absent
    refine ⟨writes, due, fun builder' lists' reads' dest => ?_⟩
    rw [meant, gone]
    cases found : update.hopsAt dest with
    | none =>
      by_cases member : dest ∈ update.unreachable
      · simp [member, absent dest (.inr member)]
      · simp [member]
    | some hops =>
      have same := reads' (announced_of_hopsAt found)
      rw [reads] at same
      cases same
      simp [returns, absent dest (.inl (by simp [found]))]

theorem obeyed_iff_of_stored (foreign : peer.info.sees lists = false)
    (registered : update.networks ≠ [] → peer.adjRibIn.Registered update.family) :
    update.Obeyed hash clock peer ↔ update.StoredRight peer.adjRibIn (builder.route lists) := by
  have known : ∀ path ∈ update.networks.mapIdx fun i net =>
      builder.path (hash (builder.addNlri update.nlri)) lists.1 lists.2 (clock i) net,
      peer.adjRibIn.Registered path.family := by
    intro path member
    rw [(mem_built hash clock reads member).1]
    refine registered fun none => ?_
    rw [none] at member
    cases member
  rcases Peer.collect_acceptPath_all (fun path member => by
    rw [(mem_built hash clock reads member).2.1, foreign]) known with ⟨rib, accepted, stored, _⟩
  have ran : update.handle hash clock peer = (.ok (.installPaths peer.info.neighbor.pair
      (update.networks.mapIdx fun i net =>
        builder.path (hash (builder.addNlri update.nlri)) lists.1 lists.2 (clock i) net)),
      peer.withAdjRib rib) := by
    rw [handle_of_read hash clock only reads, Effect.bind_apply, accepted]
    rfl
  have after : ∀ dest, (rib.stored dest).map Path.content =
      if dest ∈ update.targets then some (builder.route lists dest update.nextHops)
      else (peer.adjRibIn.stored dest).map Path.content := by
    intro dest
    rw [stored, stored_built hash clock reads]
  rw [obeyed_iff_of_handle ran ⟨.inl ⟨_, rfl⟩, stored.symm, by rintro _ _ ⟨⟩⟩]
  rcases exists_due fun _ => ⟨builder, lists, reads⟩ with ⟨writes, due⟩
  have gone : update.withdrawn = [] := by rw [withdrawn, only, List.map_nil]
  have sameHops : ∀ dest hops, builder.route lists dest update.nextHops =
      builder.route lists dest hops → update.nextHops = hops := fun dest hops same =>
    congrArg Path.nextHops same
  constructor
  · rintro ⟨_, _, agrees⟩
    have agree : ∀ dest, _ := agrees builder lists fun _ => reads
    simp only [Peer.adjRibIn_withAdjRib, after, meant, foreign, gone, List.nil_append] at agree
    refine ⟨registered, ?_, ?_, ?_⟩
    · intro dest member
      have here := agree dest
      rw [if_pos member] at here
      cases found : update.hopsAt dest with
      | none =>
        rw [found] at here
        by_cases unreachable : dest ∈ update.unreachable
        · simp [unreachable] at here
        · exact .inr ⟨rfl, unreachable, by simpa [unreachable] using here.symm⟩
      | some hops =>
        rw [found] at here
        simp at here
        exact .inl (by rw [sameHops dest hops here])
    · intro dest hops other found
      have here := agree dest
      rw [if_neg other, found] at here
      simpa using here
    · intro dest member other silent
      have here := agree dest
      rw [if_neg other, silent] at here
      simpa [member] using here
  · intro right
    refine ⟨writes, due, fun builder' lists' reads' dest => ?_⟩
    rw [Peer.adjRibIn_withAdjRib, after, meant, gone, List.nil_append]
    cases found : update.hopsAt dest with
    | none =>
      by_cases target : dest ∈ update.targets
      · rcases right.here dest target with due | ⟨_, reachable, held⟩
        · rw [found] at due
          cases due
        · simp [target, reachable, held]
      by_cases member : dest ∈ update.unreachable
      · simp [target, member, right.unreachable dest member target found]
      · simp [target, member]
    | some hops =>
      have same := reads' (announced_of_hopsAt found)
      rw [reads] at same
      cases same
      simp only [foreign]
      by_cases target : dest ∈ update.targets
      · rcases right.here dest target with due | ⟨silent, _, _⟩
        · rw [found, Option.some.injEq] at due
          simp [target, due]
        · rw [found] at silent
          cases silent
      · simpa [target] using right.elsewhere dest hops target found

theorem not_obeyed_of_unregistered (foreign : peer.info.sees lists = false)
    (announced : update.networks ≠ []) (missing : ¬peer.adjRibIn.Registered update.family) :
    ¬update.Obeyed hash clock peer := by
  rintro ⟨_, event, peer', _, ran, _⟩
  rw [handle_of_read hash clock only reads, Effect.bind_apply] at ran
  have facts : ∀ path ∈ update.networks.mapIdx fun i net =>
      builder.path (hash (builder.addNlri update.nlri)) lists.1 lists.2 (clock i) net,
      path.family = update.family ∧ path.hasOwnAs = peer.info.sees lists ∧ _ := fun path member =>
    mem_built hash clock reads member
  have some : (update.networks.mapIdx fun i net =>
      builder.path (hash (builder.addNlri update.nlri)) lists.1 lists.2 (clock i) net) ≠ [] := by
    simpa using announced
  rcases List.exists_cons_of_ne_nil some with ⟨path, rest, built⟩
  rw [built] at ran facts
  have first := facts path (by simp)
  rw [Peer.collect_acceptPath_refused (first.2.1.trans foreign) (first.1 ▸ missing)] at ran
  cases congrArg Prod.fst ran

end

theorem not_obeyed_of_unread
    (unread : ¬∃ builder lists, update.read peer.info = .ok (builder, lists)) :
    ¬update.Obeyed hash clock peer := by
  rintro ⟨_, event, peer', _, ran, _⟩
  have failed : ∀ paths,
      Peer.announcedPaths peer.info hash clock update.attributes update.nlri ≠ .ok paths :=
    fun paths built => unread (announcedPaths_of_unread built)
  rw [Update.handle, only] at ran
  exact (Peer.handleUpdateMsg_failed failed).2 event (congrArg Prod.fst ran)

end

def message (update : Update) : Message :=
  .update update.withdrawnRoutes update.attributes update.nlri

/-- The handler does what a message means exactly if the message is compatible with the table. -/
theorem obeyed_iff_compatible (hash : PathBuilder → UInt64) (clock : ℕ → ℕ) {peer : Peer}
    {update : Update} (filed : peer.adjRibIn.WellFiled) (ipv4 : update.message.WithdrawsIpv4) :
    update.Obeyed hash clock peer ↔ update.Compatible peer := by
  unfold Compatible
  split_ifs with only
  · by_cases readable : ∃ builder lists, update.read peer.info = .ok (builder, lists)
    · rcases readable with ⟨builder, lists, reads⟩
      have unique : update.OnlyAnnounces peer ↔
          if peer.info.sees lists then
            ∀ dest, update.hopsAt dest ≠ none ∨ dest ∈ update.unreachable →
              peer.adjRibIn.stored dest = none
          else update.StoredRight peer.adjRibIn (builder.route lists) := by
        constructor
        · rintro ⟨builder', lists', reads', holds⟩
          rw [reads] at reads'
          cases reads'
          exact holds
        · exact fun holds => ⟨builder, lists, reads, holds⟩
      rw [unique]
      split_ifs with returns
      · exact obeyed_iff_of_seen only reads returns
      have foreign : peer.info.sees lists = false := by simpa using returns
      by_cases registered : update.networks ≠ [] → peer.adjRibIn.Registered update.family
      · exact obeyed_iff_of_stored only reads foreign registered
      have refused : update.networks ≠ [] ∧ ¬peer.adjRibIn.Registered update.family := by
        simpa using registered
      refine iff_of_false ?_ fun right => registered right.registered
      exact not_obeyed_of_unregistered only reads foreign refused.1 refused.2
    · refine iff_of_false (not_obeyed_of_unread only readable) ?_
      rintro ⟨builder, lists, reads, _⟩
      exact readable ⟨builder, lists, reads⟩
  · exact obeyed_iff_of_withdrawn only ipv4 filed

end Update

def samplePeer : Peer :=
  .new ⟨⟨65001, 0x02020202, .v4 0x02020202⟩, 65000, sampleRouter, [.ipv4Unicast]⟩

theorem samplePeer_wellFiled : samplePeer.adjRibIn.WellFiled := by
  intro family pfx path found
  rw [show samplePeer.adjRibIn = .new [.ipv4Unicast] from rfl, AdjRib.get_new] at found
  cases found

def sampleUpdate (withdrawnRoutes : List Prefix) : Update :=
  ⟨withdrawnRoutes, [.origin ⟨0x40, Attribute.ORIGIN⟩ 0,
    .asPath ⟨0x40, Attribute.AS_PATH⟩ [⟨2, [65001]⟩],
    .nextHop ⟨0x40, Attribute.NEXT_HOP⟩ 0x02020202], [⟨sampleNet, none⟩]⟩

namespace Update

theorem hopsAt_sampleUpdate (withdrawnRoutes : List Prefix) (dest : Destination) :
    (sampleUpdate withdrawnRoutes).hopsAt dest =
      if dest = (.ipv4Unicast, sampleNet) then some [.v4 0x02020202] else none := by
  have announced : (sampleUpdate withdrawnRoutes).announced =
      [((.ipv4Unicast, sampleNet), [.v4 0x02020202])] := rfl
  rw [hopsAt, announced, lastWrite, lastWrite, Option.none_or]
  simp only [eq_comm]

theorem read_sampleUpdate (withdrawnRoutes : List Prefix) :
    ∃ builder, (sampleUpdate withdrawnRoutes).read samplePeer.info = .ok (builder, [65001], []) :=
  ⟨_, rfl⟩

theorem sampleUpdate_compatible : (sampleUpdate []).Compatible samplePeer := by
  rcases read_sampleUpdate [] with ⟨builder, reads⟩
  have targets : (sampleUpdate []).targets = [(.ipv4Unicast, sampleNet)] := rfl
  refine (if_pos rfl).mpr ⟨builder, _, reads, (if_neg (by decide)).mpr ⟨?_, ?_, ?_, ?_⟩⟩
  · exact fun _ => by decide
  · intro dest member
    rw [targets, List.mem_singleton] at member
    rw [hopsAt_sampleUpdate, if_pos member]
    exact .inl rfl
  · intro dest hops other found
    rw [targets, List.mem_singleton] at other
    rw [hopsAt_sampleUpdate, if_neg other] at found
    cases found
  · intro dest member
    cases member

theorem obeyed_sampleUpdate : (sampleUpdate []).Compatible samplePeer ∧
    (sampleUpdate []).Obeyed sampleEnv.hash (sampleEnv.clock []) samplePeer :=
  ⟨sampleUpdate_compatible,
    (obeyed_iff_compatible _ _ samplePeer_wellFiled (by rintro network ⟨⟩)).mpr
      sampleUpdate_compatible⟩

/-- A message with a withdrawn route loses its announcement. -/
theorem not_obeyed_of_decoded : ¬∀ (hash : PathBuilder → UInt64) (clock : ℕ → ℕ) (peer : Peer)
    (update : Update), peer.adjRibIn.WellFiled → update.message.Decoded →
    update.Obeyed hash clock peer := by
  intro holds
  have decoded : (sampleUpdate [⟨.v4 ⟨0x0a010000, 24, by decide⟩, none⟩]).message.Decoded :=
    Message.WellFormed.decoded (by decide : Message.WellFormed true _) (by decide)
  have obeyed := holds sampleEnv.hash (sampleEnv.clock []) samplePeer _ samplePeer_wellFiled decoded
  have only := (obeyed_iff_of_withdrawn (by decide) decoded.withdrawsIpv4
    samplePeer_wellFiled).mp obeyed
  rcases only.announced (by decide) with ⟨builder, lists, reads, announced⟩
  rcases read_sampleUpdate [⟨.v4 ⟨0x0a010000, 24, by decide⟩, none⟩] with ⟨builder', reads'⟩
  cases reads
  have due := announced (.ipv4Unicast, sampleNet) _ (hopsAt_sampleUpdate _ _)
  cases due.2

end Update

end Sart
