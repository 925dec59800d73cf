import Sart.Controller.Objects
import Sart.Ipam.Manager
import Sart.Lib.Effect

/-!
# Addresses of load balancers

The annotations of a Service name the pools, each of one block of that name, and the
addresses that are wanted.  From the status and what is wanted each block gets a list of
marks: addresses to keep, to allocate and to release.

A Service that is no load balancer any more has lost its status; a webhook keeps the
addresses in an annotation.
-/

namespace Sart

open Sart.Lib Sart.Lib.Effect

/-- An annotation that lists addresses is kept as the fields between its commas, those of the
status as its entries; a field or an entry may not be an address. -/
structure Service where
  name : String
  isLoadbalancer : Bool
  externalTrafficPolicy : Option String
  poolAnnotation : Option (List String)
  addressAnnotation : Option (List (Option IpAddr))
  releaseAnnotation : Option (List (Option IpAddr))
  ingress : Option (List (Option IpAddr))
  deriving DecidableEq

namespace Service

def getAllocatedLbAddrs (svc : Service) : Option (List IpAddr) :=
  svc.ingress.map fun ingress => ingress.filterMap id

def annotated (listed : Option (List (Option IpAddr))) : Option (List IpAddr) :=
  (listed.map fun fields => fields.filterMap id).filter fun addrs => !addrs.isEmpty

def getReleasableAddrs (svc : Service) : Option (List IpAddr) := annotated svc.releaseAnnotation

def getRequiredLbAddrs (svc : Service) : Option (List IpAddr) := annotated svc.addressAnnotation

def getDesiredPools (svc : Service) : Option (List String) := svc.poolAnnotation

def addrs (svc : Service) : List IpAddr := svc.getAllocatedLbAddrs.getD []

def updateSvcLbAddrs (svc : Service) (addrs : List IpAddr) : Service :=
  { svc with ingress := some (addrs.map some) }

def clearSvcLbAddrs (svc : Service) (released : List IpAddr) : Service :=
  { svc with ingress := svc.ingress.map fun ingress =>
      ingress.filter fun entry => !entry.any fun addr => addr ∈ released }

def handleMutation (old : Option Service) (svc : Service) : Service :=
  if svc.isLoadbalancer ∧ svc.releaseAnnotation.isSome then { svc with releaseAnnotation := none }
  else
    match old with
    | some old =>
      if old.isLoadbalancer ∧ ¬svc.isLoadbalancer then
        match old.getAllocatedLbAddrs with
        | some allocated => { svc with releaseAnnotation := some (allocated.map some) }
        | none => svc
      else svc
    | none => svc

end Service

inductive MarkedAllocation where
  | notMarked (addr : Option IpAddr)
  | allocated (addr : IpAddr)
  | allocate (addr : Option IpAddr)
  | release (addr : IpAddr)
  deriving DecidableEq

abbrev MarkTable := AList fun _ : String => List MarkedAllocation

def diff {α : Type} [DecidableEq α] (prev now : List α) : List α × List α × List α :=
  let removed := prev.filter fun item => item ∉ now
  let added := now.filter fun item => item ∉ prev ∧ item ∉ removed
  let shared := prev.filter fun item => item ∈ now
  (added, shared, removed)

def actualAllocation (svc : Service) (set : AllocatorSet) : MarkTable :=
  Table.mapValues (fun addrs => addrs.map .allocated) (set.getBlocksFromAddrs svc.addrs)

def desiredPools (svc : Service) (set : AllocatorSet) : Option (List String) :=
  match svc.getDesiredPools with
  | some pools => some pools
  | none => set.autoAssign.map fun pool => [pool]

def buildDesiredAllocation (svc : Service) (set : AllocatorSet) :
    Outcome ControllerError MarkTable :=
  match desiredPools svc set with
  | none => .error .noAllocatableAddress
  | some pools =>
    match svc.getRequiredLbAddrs with
    | some addrs =>
      .ok (Table.ofKeys pools fun name =>
        match (set.getBlocksFromAddrs addrs).lookup name with
        | some addrs => addrs.map fun addr => .notMarked (some addr)
        | none => [.notMarked none])
    | none => .ok (Table.ofKeys pools fun _ => [.notMarked none])

namespace MarkedAllocation

def toAllocate : MarkedAllocation → MarkedAllocation
  | .notMarked addr => .allocate addr
  | mark => mark

def toRelease : MarkedAllocation → Option MarkedAllocation
  | .allocated addr => some (.release addr)
  | _ => none

def keepOrAllocate (actual : List MarkedAllocation) : MarkedAllocation → Option MarkedAllocation
  | .notMarked (some addr) =>
    if .allocated addr ∈ actual then some (.allocated addr) else some (.allocate (some addr))
  | _ => none

def releaseUnwanted (desired : List MarkedAllocation) : MarkedAllocation → Option MarkedAllocation
  | .allocated addr => if .notMarked (some addr) ∈ desired then none else some (.release addr)
  | _ => none

def mergeShared (actual desired : List MarkedAllocation) : List MarkedAllocation :=
  if desired = [.notMarked none] then actual
  else desired.filterMap (keepOrAllocate actual) ++ actual.filterMap (releaseUnwanted desired)

end MarkedAllocation

def MarkTable.appendChanged (source : MarkTable)
    (change : List MarkedAllocation → List MarkedAllocation) (merged : MarkTable) (name : String) :
    MarkTable :=
  match source.lookup name with
  | some marks => Table.append merged name (change marks)
  | none => merged

def MarkTable.insertShared (actual desired merged : MarkTable) (name : String) : MarkTable :=
  match desired.lookup name, actual.lookup name with
  | some wanted, some marks => merged.insert name (MarkedAllocation.mergeShared marks wanted)
  | _, _ => merged

def mergeMarkedAllocation (actual desired : MarkTable) : MarkTable :=
  let (added, shared, removed) := diff actual.keys desired.keys
  let merged : MarkTable := added.foldl
    (desired.appendChanged fun marks => marks.map MarkedAllocation.toAllocate) ∅
  let merged := removed.foldl
    (actual.appendChanged fun marks => marks.filterMap MarkedAllocation.toRelease) merged
  shared.foldl (actual.insertShared desired) merged

def Allocator.perform {α : Type} (operation : Allocator → Outcome IpamError (α × Allocator)) :
    Effect Allocator ControllerError α := fun alloc =>
  match operation alloc with
  | .ok (value, next) => (.ok value, next)
  | .error error => (.error (.ipam error), alloc)
  | .panic => (.panic, alloc)

def applyMark : MarkedAllocation → Effect Allocator ControllerError (List IpAddr)
  | .allocate (some addr) => Allocator.perform fun alloc => do
      let next ← alloc.allocate addr false
      .ok ([addr], next)
  | .allocate none => Allocator.perform fun alloc => do
      let (addr, next) ← alloc.allocateNext
      .ok ([addr], next)
  | .release addr => Allocator.perform fun alloc => do
      let next ← alloc.release addr
      .ok ([], next)
  | .allocated addr => Allocator.perform fun alloc => do
      if ← alloc.isAllocated addr then .ok ([addr], alloc)
      else
        let next ← alloc.allocate addr true
        .ok ([addr], next)
  | .notMarked _ => fail .unavailableAllocation

def sortAddrs (addrs : List IpAddr) : List IpAddr :=
  addrs.insertionSort fun left right => (compare left right).isLE

def updateAllocations (marks : List MarkedAllocation) :
    Effect Allocator ControllerError (List IpAddr) := do
  let remained ← collect applyMark marks
  pure (sortAddrs remained)

def AllocatorSet.onBlock {α : Type} (name : String)
    (effect : Effect Allocator ControllerError (List α)) :
    Effect AllocatorSet ControllerError (List α) := fun set =>
  match set.get name with
  | some block =>
    match effect block.allocator with
    | (result, allocator) => (result, set.setAllocator name block allocator)
  | none => (.ok [], set)

structure HashOrder where
  visit : List String → List String
  perm : ∀ keys, (visit keys).Perm keys

def allocateLbAddrs (order : HashOrder) (svc : Service) :
    Effect AllocatorSet ControllerError (List IpAddr) := do
  let set ← Effect.read id
  let desired ← lift (buildDesiredAllocation svc set)
  let merged := mergeMarkedAllocation (actualAllocation svc set) desired
  collect
    (fun name => AllocatorSet.onBlock name (updateAllocations ((merged.lookup name).getD [])))
    (order.visit merged.keys)

def releaseAllocated (addr : IpAddr) : Effect Allocator ControllerError (List IpAddr) :=
  Allocator.perform fun alloc => do
    if !alloc.cidr.contains addr || !(← alloc.isAllocated addr) then .ok ([], alloc)
    else
      match alloc.release addr with
      | .ok next => .ok ([addr], next)
      | .error _ => .ok ([], alloc)
      | .panic => .panic

def releaseLbAddrs (svc : Service) (allocated : List IpAddr) :
    Effect AllocatorSet ControllerError (List IpAddr) := do
  let set ← Effect.read id
  let pools := svc.getDesiredPools.getD set.autoAssign.toList
  if pools.isEmpty then fail .noAllocatableBlock
  else
    collect
      (fun pool => AllocatorSet.onBlock pool (collect releaseAllocated allocated)) pools

structure Cluster where
  allocators : AllocatorSet
  services : AList fun _ : String => Service
  statusWrites : ℕ

structure ApiAnswers where
  syncEndpointSlices : Bool
  replaceStatus : Bool
  annotateEndpointSlices : Bool

def ApiAnswers.all : ApiAnswers := ⟨true, true, true⟩

namespace Cluster

def onAllocators {α : Type} (effect : Effect AllocatorSet ControllerError α) :
    Effect Cluster ControllerError α := fun cluster =>
  match effect cluster.allocators with
  | (result, allocators) => (result, { cluster with allocators := allocators })

def call (answered : Bool) : Effect Cluster ControllerError PUnit :=
  if answered then pure ⟨⟩ else fail .kube

def replaceStatus (answered : Bool) (svc : Service) : Effect Cluster ControllerError PUnit := do
  call answered
  Effect.modify fun cluster => { cluster with
    services := cluster.services.insert svc.name svc
    statusWrites := cluster.statusWrites + 1 }

def updateLbAddrs (order : HashOrder) (answers : ApiAnswers) (svc : Service) :
    Effect Cluster ControllerError PUnit := do
  let remained ← onAllocators (allocateLbAddrs order svc)
  if svc.addrs = remained then pure ⟨⟩
  else do
    replaceStatus answers.replaceStatus (svc.updateSvcLbAddrs remained)
    call answers.annotateEndpointSlices

def reconcile (order : HashOrder) (answers : ApiAnswers) (svc : Service) :
    Effect Cluster ControllerError PUnit := do
  if !svc.isLoadbalancer then
    match svc.getReleasableAddrs with
    | some addrs => do
        let _ ← onAllocators (releaseLbAddrs svc addrs)
        pure ⟨⟩
    | none => pure ⟨⟩
  else
    let cluster ← Effect.read id
    if cluster.allocators.blocks.entries.isEmpty then fail .noAllocatableBlock
    else if svc.externalTrafficPolicy.isNone then fail .invalidExternalTrafficPolicy
    else do
      call answers.syncEndpointSlices
      updateLbAddrs order answers svc

def cleanup (answers : ApiAnswers) (svc : Service) : Effect Cluster ControllerError PUnit :=
  match svc.getAllocatedLbAddrs with
  | none => pure ⟨⟩
  | some addrs => do
      let released ← onAllocators (releaseLbAddrs svc addrs)
      replaceStatus answers.replaceStatus (svc.clearSvcLbAddrs released)

end Cluster

end Sart
