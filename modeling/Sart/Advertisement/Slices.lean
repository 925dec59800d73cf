import Sart.Advertisement.Objects
import Sart.Controller.Service

/-!
# Advertisements of Services

For every address of a load balancer the controller keeps an advertisement.  It works on one
EndpointSlice of the Service at a time: the peers of the nodes with serving endpoints of it, or of
all nodes, are to hear of the addresses.

The API server ignores the status of a new object, so the targets are written on the next run.
-/

namespace Sart

open Sart.Lib

/-- The conditions of an endpoint are reduced to whether it is serving.  They and their field may be
missing. -/
structure Endpoint where
  conditions : Option (Option Bool)
  nodeName : Option String
  deriving DecidableEq

def Endpoint.isServing (ep : Endpoint) : Bool := (ep.conditions.getD none).getD false

structure EndpointSlice where
  name : String
  serviceName : Option String
  endpoints : List Endpoint
  deriving DecidableEq

/-- The annotation with the peer groups is kept as the fields between its commas. -/
structure BalancedService extends Service where
  peerGroups : Option (List String)
  deriving DecidableEq

def BalancedService.getSvcPeerGroups (svc : BalancedService) : List String := svc.peerGroups.getD []

def BGPPeerSlim.matchGroups (peer : BGPPeerSlim) (targets : List String) : Bool :=
  match peer.groups with
  | some groups => targets.isEmpty || groups.any fun group => targets.contains group
  | none => true

def NodeBGP.targets (nb : NodeBGP) (groups : List String) : List String :=
  (nb.peerList.filter fun peer => peer.matchGroups groups).map BGPPeerSlim.name

def Endpoint.targets (nodeBgps : AList fun _ : String => NodeBGP) (groups : List String)
    (ep : Endpoint) : List String :=
  if ep.isServing then
    match ep.nodeName.bind fun node => nodeBgps.lookup node with
    | some nb => nb.targets groups
    | none => []
  else []

def sortNames (names : List String) : List String :=
  (names.insertionSort fun left right => left ≤ right).dedup

def getTargetPeers (nodeBgps : AList fun _ : String => NodeBGP) (svc : BalancedService)
    (eps : EndpointSlice) : Outcome ControllerError (List String) :=
  match svc.externalTrafficPolicy with
  | none => .ok []
  | some policy =>
    if policy = "Cluster" then
      .ok (sortNames (nodeBgps.entries.flatMap fun entry =>
        entry.2.targets svc.getSvcPeerGroups))
    else if policy = "Local" then
      .ok (sortNames (eps.endpoints.flatMap (Endpoint.targets nodeBgps svc.getSvcPeerGroups)))
    else .error .invalidExternalTrafficPolicy

def addTarget (state : AdvertiseTable × Bool) (target : String) : AdvertiseTable × Bool :=
  match state.1.lookup target with
  | some .withdraw | none => (state.1.insert target .notAdvertised, true)
  | some .notAdvertised | some .advertised => state

def withdrawOther (targets : List String) (state : AdvertiseTable × Bool) (peer : String) :
    AdvertiseTable × Bool :=
  if peer ∉ targets ∧ state.1.lookup peer ≠ some .withdraw then
    (state.1.insert peer .withdraw, true)
  else state

def syncTargetPeers (peers : AdvertiseTable) (targets : List String) : AdvertiseTable × Bool :=
  let added := targets.foldl addTarget (peers, false)
  added.1.keys.foldl (withdrawOther targets) added

def targetStatus : Option AdvertiseStatus → AdvertiseStatus
  | some .advertised => .advertised
  | some .notAdvertised | some .withdraw | none => .notAdvertised

structure Settles (settled : String → Option AdvertiseStatus → Option AdvertiseStatus)
    (step : AdvertiseTable × Bool → String → AdvertiseTable × Bool) : Prop where
  again : ∀ name status, settled name (settled name status) = settled name status
  lookup : ∀ state name other, (step state name).1.lookup other =
    if other = name then settled name (state.1.lookup other) else state.1.lookup other
  flag : ∀ state name,
    step state name = state ∧ settled name (state.1.lookup name) = state.1.lookup name ∨
      (step state name).2 = true ∧ settled name (state.1.lookup name) ≠ state.1.lookup name

namespace Settles

variable {settled : String → Option AdvertiseStatus → Option AdvertiseStatus}
  {step : AdvertiseTable × Bool → String → AdvertiseTable × Bool} (settles : Settles settled step)
  {names : List String} {state : AdvertiseTable × Bool}

include settles

theorem foldl_eq (low : (names.foldl step state).2 = false) : names.foldl step state = state := by
  induction names using List.reverseRecOn with
  | nil => rfl
  | append_singleton before name ih =>
    rw [List.foldl_append, List.foldl_cons, List.foldl_nil] at low ⊢
    rcases settles.flag (before.foldl step state) name with ⟨same, -⟩ | ⟨high, -⟩
    · rw [same] at low ⊢
      exact ih low
    · rw [high] at low
      cases low

theorem lookup_foldl (name : String) : (names.foldl step state).1.lookup name =
    if name ∈ names then settled name (state.1.lookup name) else state.1.lookup name := by
  induction names generalizing state with
  | nil => simp
  | cons first rest ih =>
    rw [List.foldl_cons, ih, settles.lookup]
    by_cases same : name = first
    · subst same
      simp [settles.again]
    · simp [same]

theorem changed_of_flag (low : state.2 = false) (high : (names.foldl step state).2 = true) :
    ∃ name ∈ names, settled name (state.1.lookup name) ≠ state.1.lookup name := by
  induction names generalizing state with
  | nil => simp [low] at high
  | cons first rest ih =>
    rcases settles.flag state first with ⟨same, -⟩ | ⟨-, changed⟩
    · rw [List.foldl_cons, same] at high
      rcases ih low high with ⟨name, member, changed⟩
      exact ⟨name, List.mem_cons_of_mem _ member, changed⟩
    · exact ⟨first, List.mem_cons_self, changed⟩

end Settles

theorem settles_addTarget : Settles (fun _ status => some (targetStatus status)) addTarget where
  again _ status := by rcases status with _ | _ | _ | _ <;> rfl
  lookup state name other := by
    unfold addTarget
    by_cases same : other = name
    · subst same
      rcases status : state.1.lookup other with _ | _ | _ | _ <;> simp [status, targetStatus]
    · rcases state.1.lookup name with _ | _ | _ | _ <;> simp [same]
  flag state name := by
    unfold addTarget
    rcases state.1.lookup name with _ | _ | _ | _ <;> simp [targetStatus]

theorem settles_withdrawOther (targets : List String) :
    Settles (fun name status => if name ∈ targets then status else some .withdraw)
      (withdrawOther targets) where
  again name status := by split_ifs <;> rfl
  lookup state name other := by
    unfold withdrawOther
    by_cases same : other = name
    · subst same
      by_cases target : other ∈ targets <;>
        by_cases gone : state.1.lookup other = some .withdraw <;> simp [target, gone]
    · split_ifs <;> simp [same]
  flag state name := by
    unfold withdrawOther
    by_cases target : name ∈ targets
    · simp [target]
    by_cases gone : state.1.lookup name = some .withdraw
    · simp [target, gone]
    · simp [target, gone, Ne.symm gone]

variable (peers : AdvertiseTable) (targets : List String) (name : String)

theorem syncTargetPeers_of_not_updated {peers : AdvertiseTable} {targets : List String}
    (unchanged : (syncTargetPeers peers targets).2 = false) :
    (syncTargetPeers peers targets).1 = peers := by
  unfold syncTargetPeers at unchanged ⊢
  have second := (settles_withdrawOther targets).foldl_eq unchanged
  rw [second] at unchanged ⊢
  rw [settles_addTarget.foldl_eq unchanged]

theorem lookup_syncTargetPeers : (syncTargetPeers peers targets).1.lookup name =
      if name ∈ targets then some (targetStatus (peers.lookup name))
      else (peers.lookup name).map fun _ => .withdraw := by
  unfold syncTargetPeers
  rw [(settles_withdrawOther targets).lookup_foldl, settles_addTarget.lookup_foldl]
  by_cases target : name ∈ targets
  · simp [target]
  have present : name ∈ (targets.foldl addTarget (peers, false)).1.keys ↔
      peers.lookup name ≠ none := by
    rw [← AList.mem_keys, ← not_iff_not, not_not, ← AList.lookup_eq_none,
      settles_addTarget.lookup_foldl, if_neg target]
  simp only [present, target, if_false]
  cases peers.lookup name <;> simp

theorem syncTargetPeers_updated_iff : (syncTargetPeers peers targets).2 = true ↔
    ∃ name, (syncTargetPeers peers targets).1.lookup name ≠ peers.lookup name := by
  constructor
  · intro high
    cases first : (targets.foldl addTarget (peers, false)).2 with
    | true =>
      rcases settles_addTarget.changed_of_flag rfl first with ⟨name, target, changed⟩
      refine ⟨name, ?_⟩
      rw [lookup_syncTargetPeers, if_pos target]
      exact changed
    | false =>
      have same := settles_addTarget.foldl_eq first
      rcases (settles_withdrawOther targets).changed_of_flag first high with
          ⟨name, present, changed⟩
      rw [same] at present changed
      refine ⟨name, ?_⟩
      split_ifs at changed with target
      · exact absurd rfl changed
      rw [lookup_syncTargetPeers, if_neg target]
      cases found : peers.lookup name with
      | none => exact absurd present (AList.lookup_eq_none.mp found)
      | some status => rwa [found] at changed
  · rintro ⟨name, changed⟩
    by_contra low
    rw [syncTargetPeers_of_not_updated (Bool.eq_false_iff.mpr low)] at changed
    exact changed rfl

structure Synchronised (peers : AdvertiseTable) (targets : List String)
    (synced : AdvertiseTable × Bool) : Prop where
  keys : ∀ name, name ∈ synced.1 ↔ name ∈ peers ∨ name ∈ targets
  target : ∀ name ∈ targets, synced.1.lookup name ≠ some .withdraw
  other : ∀ name ∈ synced.1, name ∉ targets → synced.1.lookup name = some .withdraw
  kept : ∀ name ∈ targets, ∀ status, status ≠ .withdraw → peers.lookup name = some status →
    synced.1.lookup name = some status
  updated : synced.2 = true ↔ ∃ name, synced.1.lookup name ≠ peers.lookup name
  again : syncTargetPeers synced.1 targets = (synced.1, false)
  unordered : ∀ others, (∀ name, name ∈ others ↔ name ∈ targets) →
    (∀ name, (syncTargetPeers peers others).1.lookup name = synced.1.lookup name) ∧
      (syncTargetPeers peers others).2 = synced.2

theorem syncTargetPeers_synchronised :
    Synchronised peers targets (syncTargetPeers peers targets) := by
  have lookup := lookup_syncTargetPeers peers targets
  have present : ∀ (table : AdvertiseTable) name, name ∈ table ↔ table.lookup name ≠ none :=
    fun table name => by rw [ne_eq, AList.lookup_eq_none, not_not]
  refine ⟨fun name => ?_, fun name target => ?_, fun name listed other => ?_,
    fun name target status here found => ?_, syncTargetPeers_updated_iff peers targets, ?_,
    fun others same => ?_⟩
  · rw [present, present, lookup]
    split_ifs with target
    · simp [target]
    · simp [target]
  · rw [lookup, if_pos target]
    rcases peers.lookup name with _ | _ | _ | _ <;> simp [targetStatus]
  · rw [present, lookup, if_neg other] at listed
    rw [lookup, if_neg other]
    cases found : peers.lookup name with
    | none => simp [found] at listed
    | some status => rfl
  · rw [lookup, if_pos target, found]
    cases status with
    | withdraw => exact absurd rfl here
    | notAdvertised | advertised => rfl
  · have low : (syncTargetPeers (syncTargetPeers peers targets).1 targets).2 = false := by
      rw [Bool.eq_false_iff, ne_eq, syncTargetPeers_updated_iff]
      rintro ⟨name, changed⟩
      rw [lookup_syncTargetPeers, lookup] at changed
      split_ifs at changed
      · exact changed (settles_addTarget.again name _)
      · exact changed (Option.map_map ..)
    exact Prod.ext (syncTargetPeers_of_not_updated low) low
  · have lookups : ∀ name, (syncTargetPeers peers others).1.lookup name =
        (syncTargetPeers peers targets).1.lookup name := by
      intro name
      simp only [lookup_syncTargetPeers, same]
    refine ⟨lookups, Bool.eq_iff_iff.mpr ?_⟩
    simp only [syncTargetPeers_updated_iff, lookups]

/-- An advertisement with the Service of its label.  One that is being deleted stays until its
finalizer is removed. -/
structure ServiceAdvertisement extends BGPAdvertisement where
  service : Option String
  deleting : Bool
  deriving DecidableEq

def lbNet : IpAddr → IpNet
  | .v4 addr => .v4 (.ofLength addr 32)
  | .v6 addr => .v6 (.ofLength addr 32)

/-- What a reconciliation reads and does not change, the answers of the API server to its calls, and
the text of an address. -/
structure SliceWorld where
  services : AList fun _ : String => BalancedService
  nodeBgps : AList fun _ : String => NodeBGP
  answers : ℕ → Bool
  text : IpAddr → String

structure SliceRun where
  advertisements : List ServiceAdvertisement
  existing : AList fun _ : IpNet => ServiceAdvertisement
  needRequeue : Bool
  calls : ℕ

abbrev SliceM := Effect SliceRun ControllerError

namespace Slices

def callApi (world : SliceWorld)
    (change : List ServiceAdvertisement → Option (List ServiceAdvertisement)) : SliceM PUnit :=
  fun run =>
    match change run.advertisements with
    | some changed =>
      if world.answers run.calls then
        (.ok ⟨⟩, { run with advertisements := changed, calls := run.calls + 1 })
      else (.error .kube, { run with calls := run.calls + 1 })
    | none => (.error .kube, { run with calls := run.calls + 1 })

def onNamed (name : String) (change : ServiceAdvertisement → ServiceAdvertisement)
    (advertisements : List ServiceAdvertisement) : List ServiceAdvertisement :=
  advertisements.map fun adv => if adv.name = name then change adv else adv

def replaceStatus (world : SliceWorld) (name : String) (peers : AdvertiseTable) : SliceM PUnit :=
  callApi world fun advertisements =>
    some (onNamed name (fun adv => { adv with peers := some peers }) advertisements)

/-- No two objects have one name, and the status of a new object is ignored. -/
def create (world : SliceWorld) (adv : ServiceAdvertisement) : SliceM PUnit :=
  callApi world fun advertisements =>
    if adv.name ∈ advertisements.map fun other => other.name then none
    else some (advertisements ++ [{ adv with peers := none }])

def delete (world : SliceWorld) (name : String) : SliceM PUnit :=
  callApi world fun advertisements =>
    some (onNamed name (fun adv => { adv with deleting := true }) advertisements)

def advNameFromEpsAndAddr (world : SliceWorld) (eps : EndpointSlice) (addr : IpAddr) : String :=
  eps.name ++ "-" ++ world.text addr

def newStatus (targets : List String) : AdvertiseTable :=
  Table.ofKeys targets fun _ => .notAdvertised

def update (world : SliceWorld) (targets : List String) (cidr : IpNet)
    (adv : ServiceAdvertisement) :
    SliceM PUnit := do
  let reset := Table.mapValues (fun _ => AdvertiseStatus.notAdvertised) (adv.peers.getD ∅)
  if adv.cidr ≠ cidr then replaceStatus world adv.name reset else pure ⟨⟩
  let synced := match if adv.cidr ≠ cidr then some reset else adv.peers with
    | some peers => syncTargetPeers peers targets
    | none => (newStatus targets, true)
  if synced.2 then replaceStatus world adv.name synced.1 else pure ⟨⟩

def reconcileAddr (world : SliceWorld) (eps : EndpointSlice) (svcName : String)
    (targets : List String) (addr : IpAddr) : SliceM PUnit := do
  let run ← Effect.read id
  match run.existing.lookup (lbNet addr) with
  | some adv =>
    Effect.modify fun run => { run with existing := run.existing.erase (lbNet addr) }
    update world targets (lbNet addr) adv
  | none =>
    create world
      { name := advNameFromEpsAndAddr world eps addr
        cidr := lbNet addr
        protocol := Protocol.from (lbNet addr)
        peers := some (newStatus targets)
        service := some svcName
        deleting := false }
    Effect.modify fun run => { run with needRequeue := true }

def existingAdvMap (svcName : String) (advertisements : List ServiceAdvertisement) :
    AList fun _ : IpNet => ServiceAdvertisement :=
  (advertisements.filter fun adv => adv.service = some svcName).foldl
    (fun table adv => table.insert adv.cidr adv) ∅

def reconcileAddrs (world : SliceWorld) (eps : EndpointSlice) (svc : BalancedService)
    (svcName : String) (lbAddrs : List IpAddr) : SliceM Action := do
  let targets ← Effect.lift (getTargetPeers world.nodeBgps svc eps)
  Effect.modify fun run => { run with
    existing := existingAdvMap svcName run.advertisements
    needRequeue := targets.isEmpty }
  Effect.forEach (reconcileAddr world eps svcName targets) lbAddrs
  let run ← Effect.read id
  Effect.forEach (fun entry : Sigma fun _ : IpNet => ServiceAdvertisement =>
    delete world entry.2.name) run.existing.entries
  pure (if run.needRequeue then .requeue 10 else .awaitChange)

def reconcile (world : SliceWorld) (eps : EndpointSlice) : SliceM Action :=
  match eps.serviceName with
  | none => pure .awaitChange
  | some svcName =>
    match world.services.lookup svcName with
    | none => pure .awaitChange
    | some svc =>
      if !svc.isLoadbalancer then pure .awaitChange
      else
        match svc.getAllocatedLbAddrs with
        | none => pure (.requeue 10)
        | some lbAddrs => reconcileAddrs world eps svc svcName lbAddrs

end Slices

end Sart
