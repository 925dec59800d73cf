import Sart.Advertisement.Slices

/-!
# Several EndpointSlices of one Service

Each slice is reconciled alone, but it withdraws the peers of nodes on which it has no serving
endpoint, also when another slice of the Service has one there.  So the last slice decides.
`Covered` states when this does no harm.
-/

namespace Sart

open Sart.Lib Sart.Lib.Effect

namespace Slices

def advsOf (svcName : String) (net : IpNet) (advertisements : List ServiceAdvertisement) :
    List ServiceAdvertisement :=
  advertisements.filter fun adv => adv.service = some svcName ∧ adv.cidr = net

def withPeers (peers : Option AdvertiseTable) (adv : ServiceAdvertisement) : ServiceAdvertisement :=
  { adv with peers := peers }

def Targeted (peers : Option AdvertiseTable) (name : String) : Prop :=
  ∃ status, statusOf peers name = some status ∧ status ≠ .withdraw

variable {svcName : String} {net : IpNet} {advertisements : List ServiceAdvertisement}
  {adv : ServiceAdvertisement} {change : ServiceAdvertisement → ServiceAdvertisement}
  {name : String}

theorem mem_advsOf : adv ∈ advsOf svcName net advertisements ↔
    adv ∈ advertisements ∧ adv.service = some svcName ∧ adv.cidr = net := by
  simp [advsOf, List.mem_filter]

theorem map_name_onNamed (keeps : ∀ adv, (change adv).name = adv.name) :
    (onNamed name change advertisements).map (fun adv => adv.name) =
      advertisements.map fun adv => adv.name := by
  rw [onNamed, List.map_map]
  apply List.map_congr_left
  intro adv _
  dsimp only [Function.comp]
  split_ifs
  · exact keeps adv
  · rfl

theorem advsOf_onNamed
    (keeps : ∀ adv, (change adv).service = adv.service ∧ (change adv).cidr = adv.cidr) :
    advsOf svcName net (onNamed name change advertisements) =
      onNamed name change (advsOf svcName net advertisements) := by
  unfold advsOf onNamed
  rw [List.filter_map]
  congr 1
  apply List.filter_congr
  intro adv _
  dsimp only [Function.comp]
  split_ifs
  · rw [(keeps adv).1, (keeps adv).2]
  · rfl

theorem onNamed_of_absent (absent : ∀ adv ∈ advertisements, adv.name ≠ name) :
    onNamed name change advertisements = advertisements := by
  refine (List.map_congr_left fun adv member => ?_).trans (List.map_id _)
  exact if_neg (absent adv member)

theorem eq_of_name (distinct : (advertisements.map fun adv => adv.name).Nodup)
    {other : ServiceAdvertisement} (member : adv ∈ advertisements)
    (otherMem : other ∈ advertisements) (same : adv.name = other.name) : adv = other :=
  List.inj_on_of_nodup_map distinct member otherMem same

theorem lookup_existingAdvMap : (existingAdvMap svcName advertisements).lookup net =
      (advsOf svcName net advertisements).getLast? := by
  unfold existingAdvMap advsOf
  induction advertisements using List.reverseRecOn with
  | nil => rfl
  | append_singleton before adv ih =>
    rw [List.filter_append, List.filter_append, List.foldl_append]
    by_cases ofService : adv.service = some svcName
    · rw [List.filter_cons_of_pos (by simpa), List.filter_nil, List.foldl_cons, List.foldl_nil,
        Table.lookup_insert]
      by_cases here : net = adv.cidr
      · rw [if_pos here, List.filter_cons_of_pos (by simp [ofService, here])]
        simp
      · rw [if_neg here, ih, List.filter_cons_of_neg (by simp [Ne.symm here])]
        simp
    · rw [List.filter_cons_of_neg (by simpa), List.filter_cons_of_neg (by simp [ofService])]
      simpa using ih

theorem lbNet_injective : Function.Injective lbNet := by
  intro left right same
  cases left <;> cases right <;> simp_all [lbNet, Ipv4Net.ofLength, Ipv6Net.ofLength]

/-- No two advertisements have one name, and the map lists advertisements that are there. -/
structure Mapped (svcName : String) (run : SliceRun) : Prop where
  distinct : (run.advertisements.map fun adv => adv.name).Nodup
  stored : ∀ net adv, run.existing.lookup net = some adv →
    adv ∈ advsOf svcName net run.advertisements

/-- What happens to the advertisements for the network of an address: the one that was found is
synchronised, or one is created. -/
inductive Placed (targets : List String) :
    Option ServiceAdvertisement → List ServiceAdvertisement → List ServiceAdvertisement → Prop
  | updated {adv : ServiceAdvertisement} {before : List ServiceAdvertisement}
      {peers : Option AdvertiseTable} (synced : ∀ name, Targeted peers name ↔ name ∈ targets) :
      Placed targets (some adv) before (onNamed adv.name (withPeers peers) before)
  | created {adv : ServiceAdvertisement} {before : List ServiceAdvertisement}
      (kept : adv.deleting = false) (fresh : adv.peers = none) :
      Placed targets none before (before ++ [adv])

theorem targeted_sync (peers : AdvertiseTable) (targets : List String) (name : String) :
    Targeted (some (syncTargetPeers peers targets).1) name ↔ name ∈ targets := by
  unfold Targeted
  rw [statusOf_some, lookup_syncTargetPeers]
  by_cases target : name ∈ targets
  · rw [if_pos target]
    refine iff_of_true ⟨_, rfl, ?_⟩ target
    rcases peers.lookup name with _ | _ | _ | _ <;> simp [targetStatus]
  rw [if_neg target]
  refine iff_of_false ?_ target
  rintro ⟨status, found, other⟩
  rcases Option.map_eq_some_iff.mp found with ⟨_, _, rfl⟩
  exact other rfl

theorem targeted_newStatus (targets : List String) (name : String) :
    Targeted (some (newStatus targets)) name ↔ name ∈ targets := by
  unfold Targeted newStatus
  by_cases target : name ∈ targets <;> simp [target]

theorem callApi_ok {world : SliceWorld} {run next : SliceRun}
    {change : List ServiceAdvertisement → Option (List ServiceAdvertisement)}
    (ran : callApi world change run = (.ok ⟨⟩, next)) :
    ∃ changed, change run.advertisements = some changed ∧
      next = { run with advertisements := changed, calls := run.calls + 1 } := by
  unfold callApi at ran
  cases result : change run.advertisements with
  | none => simp [result] at ran
  | some changed =>
    rw [result] at ran
    split_ifs at ran
    · cases ran
      exact ⟨changed, rfl, rfl⟩
    · cases ran

variable {world : SliceWorld} {eps : EndpointSlice} {targets : List String} {addr : IpAddr}
  {run next : SliceRun} {cidr : IpNet}

theorem update_ok (ran : update world targets cidr adv run = (.ok ⟨⟩, next))
    (distinct : (run.advertisements.map fun adv => adv.name).Nodup)
    (stored : adv ∈ advsOf svcName cidr run.advertisements) :
    next.existing = run.existing ∧ ∃ peers, (∀ name, Targeted peers name ↔ name ∈ targets) ∧
      next.advertisements = onNamed adv.name (withPeers peers) run.advertisements := by
  rcases mem_advsOf.mp stored with ⟨member, -, rfl⟩
  have same : ¬adv.cidr ≠ adv.cidr := fun other => other rfl
  unfold update at ran
  simp only [if_neg same] at ran
  have writes : ∀ table, replaceStatus world adv.name table run = (.ok ⟨⟩, next) →
      (∀ name, Targeted (some table) name ↔ name ∈ targets) →
      next.existing = run.existing ∧ ∃ peers, (∀ name, Targeted peers name ↔ name ∈ targets) ∧
        next.advertisements = onNamed adv.name (withPeers peers) run.advertisements := by
    intro table written synced
    rcases callApi_ok written with ⟨_, ⟨⟩, rfl⟩
    exact ⟨rfl, some table, synced, rfl⟩
  cases held : adv.peers with
  | none =>
    rw [held] at ran
    exact writes _ ran (targeted_newStatus targets)
  | some table =>
    rw [held] at ran
    split_ifs at ran with updated
    · exact writes _ ran (targeted_sync table targets)
    cases ran
    refine ⟨rfl, some table, ?_, ?_⟩
    · have kept := syncTargetPeers_of_not_updated (Bool.eq_false_iff.mpr updated)
      intro name
      rw [← targeted_sync table targets name, kept]
    -- only the advertisement itself has its name
    refine ((List.map_congr_left fun other otherMem => ?_).trans (List.map_id _)).symm
    split_ifs with named
    · have itself := eq_of_name distinct otherMem member named
      subst itself
      rw [← held]
      rfl
    · rfl

/-- What is known after an address: its own advertisements are placed, it is not in the map any
more, and the other networks are left alone. -/
structure Visited (svcName : String) (targets : List String) (addr : IpAddr) (run next : SliceRun) :
    Prop where
  mapped : Mapped svcName next
  placed : Placed targets (run.existing.lookup (lbNet addr))
    (advsOf svcName (lbNet addr) run.advertisements)
    (advsOf svcName (lbNet addr) next.advertisements)
  unmapped : next.existing.lookup (lbNet addr) = none
  elsewhere : ∀ net, net ≠ lbNet addr →
    advsOf svcName net next.advertisements = advsOf svcName net run.advertisements ∧
      next.existing.lookup net = run.existing.lookup net

theorem reconcileAddr_ok (mapped : Mapped svcName run)
    (ran : reconcileAddr world eps svcName targets addr run = (.ok ⟨⟩, next)) :
    Visited svcName targets addr run next := by
  unfold reconcileAddr at ran
  rw [bind_apply] at ran
  dsimp only [Effect.read, id] at ran
  cases found : run.existing.lookup (lbNet addr) with
  | some adv =>
    rw [found] at ran
    have stored := mapped.stored _ adv found
    have updates : update world targets (lbNet addr) adv
        { run with existing := run.existing.erase (lbNet addr) } = (.ok ⟨⟩, next) := ran
    rcases update_ok updates mapped.distinct stored with ⟨sameMap, peers, synced, written⟩
    have named : ∀ adv, (withPeers peers adv).name = adv.name := fun _ => rfl
    have keeps : ∀ adv, (withPeers peers adv).service = adv.service ∧
      (withPeers peers adv).cidr = adv.cidr := fun _ => ⟨rfl, rfl⟩
    -- an advertisement for another network has another name
    have others : ∀ net, net ≠ lbNet addr →
        advsOf svcName net next.advertisements = advsOf svcName net run.advertisements := by
      intro net different
      rw [written, advsOf_onNamed keeps]
      apply onNamed_of_absent
      intro other otherMem named
      rcases mem_advsOf.mp otherMem with ⟨member, -, rfl⟩
      have itself := eq_of_name mapped.distinct member (mem_advsOf.mp stored).1 named
      exact different (itself ▸ (mem_advsOf.mp stored).2.2)
    refine ⟨⟨?_, ?_⟩, ?_, ?_, ?_⟩
    · rw [written, map_name_onNamed named]
      exact mapped.distinct
    · intro net other listed
      rw [sameMap] at listed
      rcases Table.lookup_erase_eq_some.mp listed with ⟨different, listed⟩
      rw [others net different]
      exact mapped.stored net other listed
    · rw [found, written, advsOf_onNamed keeps]
      exact .updated synced
    · rw [sameMap, Table.lookup_erase, if_pos rfl]
    · intro net different
      refine ⟨others net different, ?_⟩
      rw [sameMap, Table.lookup_erase, if_neg different]
  | none =>
    rw [found] at ran
    rcases bind_eq_ok.mp ran with ⟨_, middle, made, last⟩
    cases last
    rcases callApi_ok made with ⟨changed, allowed, rfl⟩
    split_ifs at allowed with taken
    cases allowed
    refine ⟨⟨?_, ?_⟩, ?_, ?_, ?_⟩
    · rw [List.map_append, List.map_singleton, List.nodup_append]
      refine ⟨mapped.distinct, List.nodup_singleton _, ?_⟩
      intro name member other singleton
      rw [List.mem_singleton.mp singleton]
      rintro rfl
      exact taken member
    · intro net other listed
      rcases mem_advsOf.mp (mapped.stored net other listed) with ⟨member, rest⟩
      exact mem_advsOf.mpr ⟨List.mem_append_left _ member, rest⟩
    · rw [found]
      unfold advsOf
      rw [List.filter_append, List.filter_cons_of_pos (by simp)]
      exact .created rfl rfl
    · exact found
    · intro net different
      refine ⟨?_, rfl⟩
      unfold advsOf
      rw [List.filter_append, List.filter_cons_of_neg (by simp [Ne.symm different])]
      exact List.append_nil _

variable {addrs : List IpAddr} {found : Option ServiceAdvertisement}
  {before after : List ServiceAdvertisement}
  {entries : List (Sigma fun _ : IpNet => ServiceAdvertisement)}

theorem Placed.length (placed : Placed targets found before after) :
    after.length = before.length + if found.isSome then 0 else 1 := by
  cases placed with
  | updated => simp [onNamed]
  | created => simp

theorem Placed.deleting (placed : Placed targets found before after)
    (kept : ∀ adv ∈ before, adv.deleting = false) : ∀ adv ∈ after, adv.deleting = false := by
  intro adv member
  cases placed with
  | updated =>
    rcases List.mem_map.mp member with ⟨old, oldMem, rfl⟩
    split_ifs
    all_goals exact kept old oldMem
  | created fresh =>
    rcases List.mem_append.mp member with old | new
    · exact kept adv old
    · rw [List.mem_singleton.mp new]
      exact fresh

theorem forEach_reconcileAddr_mapped (mapped : Mapped svcName run)
    (ran : forEach (reconcileAddr world eps svcName targets) addrs run = (.ok ⟨⟩, next)) :
    Mapped svcName next ∧ ∀ net, net ∉ addrs.map lbNet →
      advsOf svcName net next.advertisements = advsOf svcName net run.advertisements ∧
        next.existing.lookup net = run.existing.lookup net := by
  induction addrs generalizing run with
  | nil =>
    cases ran
    exact ⟨mapped, fun _ _ => ⟨rfl, rfl⟩⟩
  | cons first rest ih =>
    rcases bind_eq_ok.mp ran with ⟨_, middle, here, later⟩
    have visited := reconcileAddr_ok mapped here
    rcases ih visited.mapped later with ⟨last, kept⟩
    refine ⟨last, fun net absent => ?_⟩
    rw [List.map_cons, List.mem_cons, not_or] at absent
    rcases kept net absent.2 with ⟨sameAdvs, sameMap⟩
    rcases visited.elsewhere net absent.1 with ⟨firstAdvs, firstMap⟩
    exact ⟨sameAdvs.trans firstAdvs, sameMap.trans firstMap⟩

theorem forEach_reconcileAddr_placed (mapped : Mapped svcName run)
    (ran : forEach (reconcileAddr world eps svcName targets) addrs run = (.ok ⟨⟩, next))
    (member : addr ∈ addrs) :
    next.existing.lookup (lbNet addr) = none ∧
    ((∀ adv ∈ advsOf svcName (lbNet addr) run.advertisements, adv.deleting = false) →
      ∀ adv ∈ advsOf svcName (lbNet addr) next.advertisements, adv.deleting = false) ∧
    (advsOf svcName (lbNet addr) next.advertisements).length + 1 =
      (advsOf svcName (lbNet addr) run.advertisements).length + addrs.count addr +
        (if (run.existing.lookup (lbNet addr)).isSome then 0 else 1) ∧
    (addrs.Nodup → Placed targets (run.existing.lookup (lbNet addr))
      (advsOf svcName (lbNet addr) run.advertisements)
      (advsOf svcName (lbNet addr) next.advertisements)) := by
  induction addrs generalizing run with
  | nil => cases member
  | cons first rest ih =>
    rcases bind_eq_ok.mp ran with ⟨_, middle, here, later⟩
    have visited := reconcileAddr_ok mapped here
    by_cases again : addr ∈ rest
    · rcases ih visited.mapped later again with ⟨unmapped, deleting, length, placed⟩
      by_cases same : addr = first
      · subst same
        have one := visited.placed.length
        refine ⟨unmapped, fun kept => deleting (visited.placed.deleting kept), ?_, ?_⟩
        · rw [length, one, visited.unmapped, List.count_cons_self]
          simp only [Option.isSome_none, Bool.false_eq_true, if_false]
          omega
        · intro distinct
          exact absurd again (List.nodup_cons.mp distinct).1
      have different : lbNet addr ≠ lbNet first := fun nets => same (lbNet_injective nets)
      rcases visited.elsewhere (lbNet addr) different with ⟨sameAdvs, sameMap⟩
      rw [sameAdvs, sameMap] at length placed
      rw [sameAdvs] at deleting
      refine ⟨unmapped, deleting, ?_, fun distinct => placed (List.nodup_cons.mp distinct).2⟩
      rw [length, List.count_cons_of_ne (Ne.symm same)]
    · have same : addr = first := (List.mem_cons.mp member).resolve_right again
      subst same
      have outside : lbNet addr ∉ rest.map lbNet := by
        rw [List.mem_map_of_injective lbNet_injective]
        exact again
      rcases (forEach_reconcileAddr_mapped visited.mapped later).2 _ outside with
          ⟨sameAdvs, sameMap⟩
      rw [sameAdvs, sameMap]
      refine ⟨visited.unmapped, visited.placed.deleting, ?_, fun _ => visited.placed⟩
      rw [visited.placed.length, List.count_cons_self, List.count_eq_zero.mpr again]
      omega

theorem forEach_delete {net : IpNet}
    (ran : forEach (fun entry => delete world entry.2.name) entries run = (.ok ⟨⟩, next))
    (others : ∀ entry ∈ entries, ∀ adv ∈ advsOf svcName net run.advertisements,
      adv.name ≠ entry.2.name) :
    advsOf svcName net next.advertisements = advsOf svcName net run.advertisements := by
  induction entries generalizing run with
  | nil =>
    cases ran
    rfl
  | cons entry rest ih =>
    rcases bind_eq_ok.mp ran with ⟨_, middle, here, later⟩
    have same : advsOf svcName net middle.advertisements =
        advsOf svcName net run.advertisements := by
      rcases callApi_ok here with ⟨_, ⟨⟩, rfl⟩
      refine (advsOf_onNamed ?_).trans (onNamed_of_absent (others entry (by simp)))
      exact fun _ => ⟨rfl, rfl⟩
    rw [ih later, same]
    rw [same]
    exact fun other member => others other (by simp [member])

theorem forEach_delete_names
    (ran : forEach (fun entry => delete world entry.2.name) entries run = (.ok ⟨⟩, next)) :
    (next.advertisements.map fun adv => adv.name) =
      run.advertisements.map fun adv => adv.name := by
  induction entries generalizing run with
  | nil =>
    cases ran
    rfl
  | cons entry rest ih =>
    rcases bind_eq_ok.mp ran with ⟨_, middle, here, later⟩
    rw [ih later]
    rcases callApi_ok here with ⟨_, ⟨⟩, rfl⟩
    exact map_name_onNamed fun _ => rfl

structure Handled (svcName : String) (targets : List String) (addrs : List IpAddr) (addr : IpAddr)
    (before after : List ServiceAdvertisement) : Prop where
  kept : (∀ adv ∈ advsOf svcName (lbNet addr) before, adv.deleting = false) →
    ∀ adv ∈ advsOf svcName (lbNet addr) after, adv.deleting = false
  length : (advsOf svcName (lbNet addr) after).length + 1 =
    (advsOf svcName (lbNet addr) before).length + addrs.count addr +
      (if advsOf svcName (lbNet addr) before = [] then 1 else 0)
  placed : addrs.Nodup → Placed targets (advsOf svcName (lbNet addr) before).getLast?
    (advsOf svcName (lbNet addr) before) (advsOf svcName (lbNet addr) after)

variable {svc : BalancedService} {action : Action}

theorem reconcileAddrs_ok (distinct : (run.advertisements.map fun adv => adv.name).Nodup)
    (ran : reconcileAddrs world eps svc svcName addrs run = (.ok action, next)) :
    (next.advertisements.map fun adv => adv.name).Nodup ∧
      ∃ targets, getTargetPeers world.nodeBgps svc eps = .ok targets ∧
        ∀ addr ∈ addrs, Handled svcName targets addrs addr run.advertisements
          next.advertisements := by
  rcases bind_eq_ok.mp ran with ⟨targets, _, got, ran⟩
  have reached : getTargetPeers world.nodeBgps svc eps = .ok targets := congrArg Prod.fst got
  cases congrArg Prod.snd got
  rcases bind_eq_ok.mp ran with ⟨_, started, begins, ran⟩
  cases begins
  rcases bind_eq_ok.mp ran with ⟨_, middle, loop, ran⟩
  rcases bind_eq_ok.mp ran with ⟨_, _, reads, ran⟩
  cases reads
  rcases bind_eq_ok.mp ran with ⟨_, final, deletes, ran⟩
  cases ran
  dsimp only [id] at deletes
  have start : Mapped svcName { run with
      existing := existingAdvMap svcName run.advertisements
      needRequeue := targets.isEmpty } := by
    refine ⟨distinct, fun net adv listed => ?_⟩
    rw [lookup_existingAdvMap] at listed
    exact List.mem_of_getLast? listed
  have mapped := (forEach_reconcileAddr_mapped start loop).1
  refine ⟨?_, targets, reached, ?_⟩
  · rw [forEach_delete_names deletes]
    exact mapped.distinct
  intro addr member
  rcases forEach_reconcileAddr_placed start loop member with ⟨unmapped, kept, length, placed⟩
  rw [lookup_existingAdvMap] at length placed
  -- what is left in the map is for other networks
  have same : advsOf svcName (lbNet addr) next.advertisements =
      advsOf svcName (lbNet addr) middle.advertisements := by
    refine forEach_delete deletes ?_
    intro entry listed adv advMem named
    have found := mapped.stored entry.1 entry.2 (AList.mem_lookup_iff.mpr listed)
    rcases mem_advsOf.mp found with ⟨foundMem, -, net⟩
    rcases mem_advsOf.mp advMem with ⟨member, -, own⟩
    have itself := eq_of_name mapped.distinct member foundMem named
    have here : entry.1 = lbNet addr := by rw [← net, ← itself, own]
    have listed := AList.mem_lookup_iff.mpr listed
    rw [here, unmapped] at listed
    cases listed
  refine ⟨?_, ?_, ?_⟩
  · rw [same]
    exact kept
  · rw [same, length]
    cases advsOf svcName (lbNet addr) run.advertisements <;> simp
  · rw [same]
    exact placed

theorem reconcile_ok (found : world.services.lookup svcName = some svc)
    (balances : svc.isLoadbalancer = true) (ofService : eps.serviceName = some svcName)
    (distinct : (run.advertisements.map fun adv => adv.name).Nodup)
    (ran : reconcile world eps run = (.ok action, next)) :
    (next.advertisements.map fun adv => adv.name).Nodup ∧
      ∀ addr ∈ svc.addrs, ∃ targets, getTargetPeers world.nodeBgps svc eps = .ok targets ∧
        Handled svcName targets svc.addrs addr run.advertisements next.advertisements := by
  unfold reconcile at ran
  rw [ofService] at ran
  dsimp only at ran
  rw [found] at ran
  simp only [balances, Bool.not_true, Bool.false_eq_true, if_false] at ran
  unfold Service.addrs
  cases allocated : svc.getAllocatedLbAddrs with
  | none =>
    rw [allocated] at ran
    cases ran
    exact ⟨distinct, nofun⟩
  | some lbAddrs =>
    rw [allocated] at ran
    rcases reconcileAddrs_ok distinct ran with ⟨names, targets, reached, handled⟩
    exact ⟨names, fun addr member => ⟨targets, reached, handled addr member⟩⟩

def reconcileAll (world : SliceWorld) (order : List EndpointSlice) : SliceM PUnit :=
  forEach (fun eps => do
    let _ ← reconcile world eps
    pure ⟨⟩) order

end Slices

def EndpointSlice.Serves (eps : EndpointSlice) (node : String) : Prop :=
  ∃ ep ∈ eps.endpoints, ep.isServing = true ∧ ep.nodeName = some node

def BalancedService.Offers (svc : BalancedService) (nodeBgps : AList fun _ : String => NodeBGP)
    (node name : String) : Prop :=
  ∃ nb, nodeBgps.lookup node = some nb ∧ name ∈ nb.targets svc.getSvcPeerGroups

namespace Slices

section Runs

variable {world : SliceWorld} {svc : BalancedService} {svcName : String}
  {order : List EndpointSlice} {run next : SliceRun}

theorem mem_targets_of_local {eps : EndpointSlice} {targets : List String}
    (policy : svc.externalTrafficPolicy = some "Local")
    (reached : getTargetPeers world.nodeBgps svc eps = .ok targets) (name : String) :
    name ∈ targets ↔ ∃ node, eps.Serves node ∧ svc.Offers world.nodeBgps node name := by
  unfold getTargetPeers at reached
  rw [policy] at reached
  simp only [if_neg (by decide : ¬"Local" = "Cluster"), if_true, Outcome.ok.injEq] at reached
  rw [← reached, sortNames, List.mem_dedup, List.mem_insertionSort, List.mem_flatMap]
  constructor
  · rintro ⟨ep, member, listed⟩
    unfold Endpoint.targets at listed
    split_ifs at listed with serving
    · cases nodeName : ep.nodeName with
      | none => simp [nodeName] at listed
      | some node =>
        rw [nodeName, Option.bind_some] at listed
        cases found : world.nodeBgps.lookup node with
        | none => simp [found] at listed
        | some nb =>
          rw [found] at listed
          exact ⟨node, ⟨ep, member, serving, nodeName⟩, nb, found, listed⟩
    · cases listed
  · rintro ⟨node, ⟨ep, member, serving, nodeName⟩, nb, found, listed⟩
    refine ⟨ep, member, ?_⟩
    rw [Endpoint.targets, if_pos serving, nodeName, Option.bind_some, found]
    exact listed

theorem reconcileAll_append {before : List EndpointSlice} {last : EndpointSlice}
    (ran : reconcileAll world (before ++ [last]) run = (.ok ⟨⟩, next)) :
    ∃ middle action, reconcileAll world before run = (.ok ⟨⟩, middle) ∧
      reconcile world last middle = (.ok action, next) := by
  induction before generalizing run with
  | nil =>
    rcases bind_eq_ok.mp ran with ⟨_, middle, here, later⟩
    cases later
    rcases bind_eq_ok.mp here with ⟨action, _, reconciles, returns⟩
    cases returns
    exact ⟨run, action, rfl, reconciles⟩
  | cons first rest ih =>
    rcases bind_eq_ok.mp ran with ⟨_, following, here, later⟩
    rcases ih later with ⟨middle, action, before, reconciles⟩
    exact ⟨middle, action, bind_eq_ok.mpr ⟨_, following, here, before⟩, reconciles⟩

/-- No two advertisements have one name, and for every address there is at most one, which is not
being deleted. -/
structure Tidy (svcName : String) (addrs : List IpAddr)
    (advertisements : List ServiceAdvertisement) :
    Prop where
  names : (advertisements.map fun adv => adv.name).Nodup
  single : ∀ addr ∈ addrs, (advsOf svcName (lbNet addr) advertisements).length ≤ 1
  kept : ∀ addr ∈ addrs, ∀ adv ∈ advsOf svcName (lbNet addr) advertisements, adv.deleting = false

/-- There is one advertisement for every address, and with local traffic only the peers of a node
are targets exactly if some slice has a serving endpoint there. -/
structure Balanced (world : SliceWorld) (svc : BalancedService) (svcName : String)
    (order : List EndpointSlice) (advertisements : List ServiceAdvertisement) : Prop where
  one : ∀ addr ∈ svc.addrs, ((advsOf svcName (lbNet addr) advertisements).filter
    fun adv => !adv.deleting).length = 1
  targets : svc.externalTrafficPolicy = some "Local" → ∀ addr ∈ svc.addrs,
    ∀ adv ∈ advsOf svcName (lbNet addr) advertisements, ∀ node name,
      svc.Offers world.nodeBgps node name →
        (Targeted adv.peers name ↔ ∃ eps ∈ order, eps.Serves node)

/-- The condition.  No address is listed twice.  With local traffic only, a node with a serving
endpoint shares its peer with one that has an endpoint of the last slice, which finds an
advertisement to write to.  Without any slice the advertisements are there, with no targets. -/
structure Covered (world : SliceWorld) (svc : BalancedService) (svcName : String)
    (order : List EndpointSlice) (start : List ServiceAdvertisement) : Prop where
  distinct : order ≠ [] → svc.addrs.Nodup
  covered : svc.externalTrafficPolicy = some "Local" → ∀ last, order.getLast? = some last →
    ∀ addr ∈ svc.addrs, ∀ node name, svc.Offers world.nodeBgps node name →
      ((∃ eps ∈ order, eps.Serves node) ↔
        (2 ≤ order.length ∨ advsOf svcName (lbNet addr) start ≠ []) ∧
          ∃ other, last.Serves other ∧ svc.Offers world.nodeBgps other name)
  present : order = [] → ∀ addr ∈ svc.addrs, advsOf svcName (lbNet addr) start ≠ []
  untargeted : order = [] → svc.externalTrafficPolicy = some "Local" → ∀ addr ∈ svc.addrs,
    ∀ adv ∈ advsOf svcName (lbNet addr) start, ∀ node name,
      svc.Offers world.nodeBgps node name → ¬Targeted adv.peers name

variable (found : world.services.lookup svcName = some svc) (balances : svc.isLoadbalancer = true)

include found balances

theorem reconcileAll_ok (ofService : ∀ eps ∈ order, eps.serviceName = some svcName)
    (tidy : Tidy svcName svc.addrs run.advertisements)
    (ran : reconcileAll world order run = (.ok ⟨⟩, next)) :
    (next.advertisements.map fun adv => adv.name).Nodup ∧ ∀ addr ∈ svc.addrs,
      (∀ adv ∈ advsOf svcName (lbNet addr) next.advertisements, adv.deleting = false) ∧
      (order ≠ [] → svc.addrs.count addr ≤
        (advsOf svcName (lbNet addr) next.advertisements).length) ∧
      (svc.addrs.Nodup → (advsOf svcName (lbNet addr) next.advertisements).length ≤ 1) := by
  induction order using List.reverseRecOn generalizing next with
  | nil =>
    cases ran
    refine ⟨tidy.names, fun addr member => ⟨tidy.kept addr member, absurd rfl, ?_⟩⟩
    exact fun _ => tidy.single addr member
  | append_singleton before last ih =>
    rcases reconcileAll_append ran with ⟨middle, action, earlier, reconciles⟩
    rcases ih (fun eps member => ofService eps (by simp [member])) earlier with ⟨names, each⟩
    rcases reconcile_ok found balances (ofService last (by simp)) names reconciles with
      ⟨nextNames, handled⟩
    refine ⟨nextNames, fun addr member => ?_⟩
    rcases handled addr member with ⟨targets, -, handled⟩
    rcases each addr member with ⟨kept, -, single⟩
    have length := handled.length
    refine ⟨handled.kept kept, fun _ => ?_, fun distinct => ?_⟩
    · cases shape : advsOf svcName (lbNet addr) middle.advertisements with
      | nil =>
        rw [shape] at length
        simp only [List.length_nil, if_true] at length
        omega
      | cons adv rest =>
        rw [shape] at length
        simp only [List.length_cons, reduceCtorEq, if_false] at length
        omega
    have few := single distinct
    rw [List.count_eq_one_of_mem distinct member] at length
    split_ifs at length with empty
    · rw [empty, List.length_nil] at length
      omega
    · omega

theorem targeted_last {before : List EndpointSlice} {last : EndpointSlice}
    (ofService : ∀ eps ∈ before ++ [last], eps.serviceName = some svcName)
    (tidy : Tidy svcName svc.addrs run.advertisements)
    (ran : reconcileAll world (before ++ [last]) run = (.ok ⟨⟩, next))
    (distinct : svc.addrs.Nodup) (policy : svc.externalTrafficPolicy = some "Local")
    {addr : IpAddr} (member : addr ∈ svc.addrs) {adv : ServiceAdvertisement}
    (stored : adv ∈ advsOf svcName (lbNet addr) next.advertisements) (name : String) :
    Targeted adv.peers name ↔
      (2 ≤ (before ++ [last]).length ∨ advsOf svcName (lbNet addr) run.advertisements ≠ []) ∧
        ∃ other, last.Serves other ∧ svc.Offers world.nodeBgps other name := by
  rcases reconcileAll_append ran with ⟨middle, action, earlier, reconciles⟩
  rcases reconcileAll_ok found balances (fun eps listed => ofService eps (by simp [listed])) tidy
    earlier with ⟨names, each⟩
  rcases reconcile_ok found balances (ofService last (by simp)) names reconciles with ⟨-, handled⟩
  rcases handled addr member with ⟨targets, reached, handled⟩
  rcases each addr member with ⟨-, several, single⟩
  rw [← mem_targets_of_local policy reached]
  have found : advsOf svcName (lbNet addr) middle.advertisements ≠ [] ↔
      2 ≤ (before ++ [last]).length ∨ advsOf svcName (lbNet addr) run.advertisements ≠ [] := by
    cases before with
    | nil =>
      cases earlier
      simp
    | cons first rest =>
      have some := several (by simp)
      rw [List.count_eq_one_of_mem distinct member] at some
      refine iff_of_true (List.ne_nil_of_length_pos some) (.inl ?_)
      simp
  rw [← found]
  have placed := handled.placed distinct
  have few := single distinct
  generalize advsOf svcName (lbNet addr) next.advertisements = after at placed stored
  match shape : advsOf svcName (lbNet addr) middle.advertisements with
  | [] =>
    rw [shape] at placed
    cases placed with
    | created kept fresh =>
      rw [List.nil_append, List.mem_singleton] at stored
      rw [stored, fresh]
      simp [Targeted]
  | [old] =>
    rw [shape] at placed
    cases placed with
    | updated synced =>
      simp only [onNamed, List.map_cons, List.map_nil, List.mem_singleton] at stored
      rw [stored]
      simpa [withPeers] using synced name
  | _ :: _ :: _ =>
    rw [shape] at few
    simp at few

/-- When all slices of a Service are reconciled successfully, in any order and each as often as one
likes, the advertisements are as they should be exactly under the condition. -/
theorem balanced_iff_covered (ofService : ∀ eps ∈ order, eps.serviceName = some svcName)
    (tidy : Tidy svcName svc.addrs run.advertisements)
    (ran : reconcileAll world order run = (.ok ⟨⟩, next)) :
    Balanced world svc svcName order next.advertisements ↔
      Covered world svc svcName order run.advertisements := by
  have each := (reconcileAll_ok found balances ofService tidy ran).2
  have counted : ∀ addr ∈ svc.addrs, ((advsOf svcName (lbNet addr) next.advertisements).filter
      fun adv => !adv.deleting) = advsOf svcName (lbNet addr) next.advertisements := by
    intro addr member
    refine List.filter_eq_self.mpr fun adv stored => ?_
    rw [(each addr member).1 adv stored]
    rfl
  rcases List.eq_nil_or_concat order with rfl | ⟨before, last, rfl⟩
  · cases ran
    constructor
    · rintro ⟨one, targets⟩
      refine ⟨absurd rfl, nofun, fun _ addr member empty => ?_, ?_⟩
      · have single := one addr member
        rw [empty] at single
        cases single
      intro _ policy addr member adv stored node name offers targeted
      rcases (targets policy addr member adv stored node name offers).mp targeted with ⟨_, none, _⟩
      cases none
    · rintro ⟨-, -, present, untargeted⟩
      refine ⟨fun addr member => ?_, fun policy addr member adv stored node name offers => ?_⟩
      · rw [counted addr member]
        have most := tidy.single addr member
        have least := List.length_pos_iff.mpr (present rfl addr member)
        omega
      refine iff_of_false (untargeted rfl policy addr member adv stored node name offers) ?_
      rintro ⟨_, none, _⟩
      cases none
  · rw [List.concat_eq_append] at *
    constructor
    · rintro ⟨one, targets⟩
      have distinct : svc.addrs.Nodup := by
        refine List.nodup_iff_count_le_one.mpr fun addr => ?_
        by_cases member : addr ∈ svc.addrs
        · have single := one addr member
          have least := (each addr member).2.1 (by simp)
          rw [counted addr member] at single
          omega
        · rw [List.count_eq_zero.mpr member]
          omega
      refine ⟨fun _ => distinct, ?_, by simp, by simp⟩
      intro policy final isLast addr member node name offers
      rw [List.getLast?_append_of_ne_nil _ (by simp), List.getLast?_singleton,
        Option.some.injEq] at isLast
      subst isLast
      have single := one addr member
      rw [counted addr member, List.length_eq_one_iff] at single
      rcases single with ⟨adv, single⟩
      have stored : adv ∈ advsOf svcName (lbNet addr) next.advertisements := by simp [single]
      rw [← targets policy addr member adv stored node name offers]
      exact targeted_last found balances ofService tidy ran distinct policy member stored name
    · rintro ⟨distinct, covered, -, -⟩
      have distinct := distinct (by simp)
      refine ⟨fun addr member => ?_, fun policy addr member adv stored node name offers => ?_⟩
      · rw [counted addr member]
        have least := (each addr member).2.1 (by simp)
        have most := (each addr member).2.2 distinct
        rw [List.count_eq_one_of_mem distinct member] at least
        omega
      · rw [targeted_last found balances ofService tidy ran distinct policy member stored name]
        exact (covered policy last (by simp) addr member node name offers).symm

end Runs

def sampleSlice (name node : String) : EndpointSlice where
  name := name
  serviceName := some "web"
  endpoints := [⟨some (some true), some node⟩]

def sampleService : BalancedService where
  name := "web"
  isLoadbalancer := true
  externalTrafficPolicy := some "Local"
  poolAnnotation := none
  addressAnnotation := none
  releaseAnnotation := none
  ingress := some [some (.v4 0xC0000201)]
  peerGroups := none

def sampleWorld (nodes : List String) : SliceWorld where
  services := AList.singleton "web" sampleService
  nodeBgps := Table.ofKeys nodes fun node => ⟨node, some [⟨node ++ "-peer", none⟩]⟩
  answers _ := true
  text _ := "192.0.2.1"

def sampleStart : SliceRun where
  advertisements := []
  existing := ∅
  needRequeue := false
  calls := 0

theorem tidy_sampleStart : Tidy "web" sampleService.addrs sampleStart.advertisements :=
  ⟨List.nodup_nil, fun _ _ => Nat.zero_le 1, fun _ _ _ => nofun⟩

theorem covered_sampleOrder : Covered (sampleWorld ["left"]) sampleService "web"
    [sampleSlice "web-1" "left", sampleSlice "web-2" "left"] sampleStart.advertisements := by
  refine ⟨fun _ => by decide +kernel, ?_, nofun, nofun⟩
  rintro - last ⟨⟩ addr - node name ⟨nb, found, listed⟩
  have here : node = "left" := by
    by_contra other
    have absent : (sampleWorld ["left"]).nodeBgps.lookup node = none := by
      rw [sampleWorld, Table.lookup_ofKeys, if_neg (by simpa using other)]
    rw [absent] at found
    cases found
  subst here
  have serves : ∀ slice, (sampleSlice slice "left").Serves "left" :=
    fun slice => ⟨_, List.mem_singleton_self _, rfl, rfl⟩
  exact iff_of_true ⟨_, List.mem_cons_self, serves "web-1"⟩
    ⟨.inl (Nat.le_refl 2), "left", serves "web-2", nb, found, listed⟩

theorem balanced_sampleOrder : Balanced (sampleWorld ["left"]) sampleService "web"
    [sampleSlice "web-1" "left", sampleSlice "web-2" "left"]
    (reconcileAll (sampleWorld ["left"]) [sampleSlice "web-1" "left", sampleSlice "web-2" "left"]
      sampleStart).2.advertisements := by
  have ran : reconcileAll (sampleWorld ["left"])
      [sampleSlice "web-1" "left", sampleSlice "web-2" "left"] sampleStart =
        (.ok ⟨⟩, (reconcileAll (sampleWorld ["left"])
          [sampleSlice "web-1" "left", sampleSlice "web-2" "left"] sampleStart).2) :=
    Prod.ext (by decide +kernel) rfl
  exact (balanced_iff_covered rfl rfl (by decide +kernel) tidy_sampleStart ran).mpr
    covered_sampleOrder

def sampleTurns : List EndpointSlice :=
  [sampleSlice "web-1" "left", sampleSlice "web-2" "right", sampleSlice "web-1" "left",
    sampleSlice "web-2" "right"]

/-- The peer of the first node is withdrawn although the first slice has a serving endpoint
there. -/
theorem not_balanced_sampleTurns :
    (reconcileAll (sampleWorld ["left", "right"]) sampleTurns sampleStart).1 = .ok ⟨⟩ ∧
    ¬Balanced (sampleWorld ["left", "right"]) sampleService "web" sampleTurns
      (reconcileAll (sampleWorld ["left", "right"]) sampleTurns sampleStart).2.advertisements := by
  refine ⟨by decide +kernel, fun balanced => ?_⟩
  have targeted := (balanced.targets rfl (.v4 0xC0000201) (by decide) _ List.mem_cons_self "left"
    "left-peer" ⟨_, rfl, List.mem_cons_self⟩).mpr ⟨sampleSlice "web-1" "left", by decide +kernel,
      _, List.mem_cons_self, rfl, rfl⟩
  rcases targeted with ⟨status, found, other⟩
  cases found
  exact other rfl

end Slices

end Sart
