import Sart.Controller.Fixpoint
import Sart.Controller.ServiceBlocks
import Sart.Lib.Run

/-!
# One address, one load balancer

The controller may be started again at any time, with empty allocators, which learn about
the addresses in use as the Services are reconciled.  No two Services have the same address
as long as a block that gives away a new address has learnt of all that others have of it.
-/

namespace Sart

open Sart.Lib

structure ServiceSpec where
  name : String
  isLoadbalancer : Bool
  externalTrafficPolicy : Option String
  poolAnnotation : Option (List String)
  addressAnnotation : Option (List (Option IpAddr))

inductive ServiceEvent where
  | write (spec : ServiceSpec)
  | reconcile (name : String) (order : HashOrder) (answers : ApiAnswers)
  | cleanup (name : String) (answers : ApiAnswers)
  | reconcileBlock (ab : AddressBlock)
  | cleanupBlock (wraps : Bool) (ab : AddressBlock)
  | restart

namespace Cluster

/-- The object a user submits: what the controller has written about the Service stays. -/
def submitted (old : Option Service) (spec : ServiceSpec) : Service where
  name := spec.name
  isLoadbalancer := spec.isLoadbalancer
  externalTrafficPolicy := spec.externalTrafficPolicy
  poolAnnotation := spec.poolAnnotation
  addressAnnotation := spec.addressAnnotation
  releaseAnnotation := old.bind Service.releaseAnnotation
  ingress := old.bind Service.ingress

def write (spec : ServiceSpec) (cluster : Cluster) : Cluster :=
  let old := cluster.services.lookup spec.name
  let svc := Service.handleMutation old (submitted old spec)
  let stored :=
    if old.any Service.isLoadbalancer && !svc.isLoadbalancer then { svc with ingress := none }
    else svc
  { cluster with services := cluster.services.insert spec.name stored }

def delete (name : String) (answers : ApiAnswers) (cluster : Cluster) : Cluster :=
  match cluster.services.lookup name with
  | none => cluster
  | some svc =>
    match cleanup answers svc cluster with
    | (.ok _, next) => { next with services := next.services.erase name }
    | (_, next) => next

def apply (cluster : Cluster) : ServiceEvent → Cluster
  | .write spec => cluster.write spec
  | .reconcile name order answers =>
    match cluster.services.lookup name with
    | none => cluster
    | some svc => (reconcile order answers svc cluster).2
  | .cleanup name answers => cluster.delete name answers
  | .reconcileBlock ab => (onAllocators (reconcileService ab) cluster).2
  | .cleanupBlock wraps ab => (onAllocators (cleanupService wraps ab) cluster).2
  | .restart => { cluster with allocators := .empty }

def initial : Cluster := ⟨.empty, ∅, 0⟩

end Cluster

def Cluster.Unique (cluster : Cluster) : Prop :=
  ∀ first second left right, cluster.services.lookup first = some left →
    cluster.services.lookup second = some right → first ≠ second →
    ∀ addr ∈ left.addrs, addr ∉ right.addrs

def Service.TakesNew (svc : Service) (set : AllocatorSet) (name : String) (block : Block) : Prop :=
  svc.names set name = true ∧
    (svc.wanted block = [] ∧ svc.current block = [] ∨
      ∃ addr ∈ svc.wanted block, addr ∉ svc.current block)
  deriving Decidable

/-- A block that gives away a new address has learnt of the addresses other Services have of it. -/
def Cluster.Knows (cluster : Cluster) (svc : Service) : Prop :=
  ∀ entry ∈ cluster.allocators.blocks.entries, svc.TakesNew cluster.allocators entry.1 entry.2 →
    ∀ other ∈ cluster.services.entries, other.1 ≠ svc.name → ∀ addr ∈ other.2.addrs,
      entry.2.allocator.cidr.contains addr = true → entry.2.allocator.holds addr = true
  deriving Decidable

/-- The condition on a step: a load balancer is reconciled when the blocks know enough. -/
def ServiceEvent.Informed (cluster : Cluster) : ServiceEvent → Prop
  | .reconcile name _ _ =>
    match cluster.services.lookup name with
    | some svc => svc.isLoadbalancer = true → cluster.Knows svc
    | none => True
  | _ => True

variable {svc : Service} {cluster : Cluster} {order : HashOrder} {answers : ApiAnswers}

def Cluster.Keyed (cluster : Cluster) : Prop :=
  ∀ name svc, cluster.services.lookup name = some svc → svc.name = name

def Cluster.Shrinks (cluster next : Cluster) : Prop :=
  ∀ name svc, next.services.lookup name = some svc → svc.name = name ∧
    ∀ addr ∈ svc.addrs, ∃ old, cluster.services.lookup name = some old ∧ addr ∈ old.addrs

variable {next : Cluster} {current wanted : List IpAddr} {addr : IpAddr} {named : Bool}
  {name : String}

theorem Cluster.Shrinks.unique (shrinks : cluster.Shrinks next) (unique : cluster.Unique) :
    next.Unique := by
  intro first second left right foundLeft foundRight different addr inLeft inRight
  rcases (shrinks first left foundLeft).2 addr inLeft with ⟨oldLeft, storedLeft, wasLeft⟩
  rcases (shrinks second right foundRight).2 addr inRight with ⟨oldRight, storedRight, wasRight⟩
  exact unique first second oldLeft oldRight storedLeft storedRight different addr wasLeft wasRight

theorem Cluster.Shrinks.of_services (keyed : cluster.Keyed)
    (same : next.services = cluster.services) : cluster.Shrinks next := by
  intro name svc found
  rw [same] at found
  exact ⟨keyed name svc found, fun addr member => ⟨svc, found, member⟩⟩

theorem Cluster.Shrinks.insert (keyed : cluster.Keyed)
    (written : next.services = cluster.services.insert svc.name svc)
    (fewer : ∀ addr ∈ svc.addrs, ∃ old, cluster.services.lookup svc.name = some old ∧
      addr ∈ old.addrs) : cluster.Shrinks next := by
  intro name other found
  rw [written, Table.lookup_insert] at found
  split_ifs at found with same
  · rw [Option.some.injEq] at found
    subst found
    exact ⟨same.symm, fun addr member => same ▸ fewer addr member⟩
  · exact ⟨keyed name other found, fun addr member => ⟨other, found, member⟩⟩

theorem Cluster.Shrinks.erase (shrinks : cluster.Shrinks next) (name : String) :
    cluster.Shrinks { next with services := next.services.erase name } := by
  intro other svc found
  exact shrinks other svc (Table.lookup_erase_eq_some.mp found).2

theorem services_onAllocators {α : Type} (effect : Effect AllocatorSet ControllerError α)
    (cluster : Cluster) : (Cluster.onAllocators effect cluster).2.services = cluster.services := rfl

theorem services_reconcile_other (other : svc.isLoadbalancer = false) :
    (Cluster.reconcile order answers svc cluster).2.services = cluster.services := by
  rw [Cluster.reconcile, other]
  cases svc.getReleasableAddrs with
  | none => rfl
  | some addrs =>
    have kept := services_onAllocators (releaseLbAddrs svc addrs) cluster
    have run : (Cluster.onAllocators (releaseLbAddrs svc addrs) >>= fun _ =>
        (pure ⟨⟩ : Effect Cluster ControllerError PUnit)) cluster = _ := Effect.bind_apply _ _ _
    rcases ran : Cluster.onAllocators (releaseLbAddrs svc addrs) cluster with
      ⟨released | cause | _, next⟩ <;> rw [ran] at kept run
    all_goals exact (congrArg (fun result => result.2.services) run).trans kept

theorem services_reconcile (order : HashOrder) (answers : ApiAnswers) (cluster : Cluster)
    (balancer : svc.isLoadbalancer = true) :
    (Cluster.reconcile order answers svc cluster).2.services = cluster.services ∨
      ∃ remained set, allocateLbAddrs order svc cluster.allocators = (.ok remained, set) ∧
        (Cluster.reconcile order answers svc cluster).2.services =
          cluster.services.insert svc.name (svc.updateSvcLbAddrs remained) := by
  cases handled : cluster.handles answers svc with
  | false =>
    rcases reconcile_unhandled order balancer handled with ⟨cause, run⟩
    exact .inl (by rw [run])
  | true =>
    rw [reconcile_handled balancer handled]
    rcases allocated : allocateLbAddrs order svc cluster.allocators with ⟨remained | cause | _, set⟩
    · rw [updateLbAddrs_ok allocated]
      split_ifs
      · exact .inl rfl
      · exact .inr ⟨remained, set, rfl, rfl⟩
      · exact .inr ⟨remained, set, rfl, rfl⟩
      · exact .inl rfl
    all_goals exact .inl (by rw [(updateLbAddrs_failed answers allocated (by simp)).1])

theorem mem_of_allocated_mem (member : .allocated addr ∈ plannedMarks named current wanted) :
    addr ∈ current := by
  unfold plannedMarks at member
  split_ifs at member with named empty none
  · simp at member
  · simpa using member
  · rcases List.mem_append.mp member with member | member
    · rcases List.mem_map.mp member with ⟨other, -, same⟩
      split_ifs at same with inCurrent
      rw [MarkedAllocation.allocated.injEq] at same
      exact same ▸ inCurrent
    · simp at member
  · simp at member

theorem takes_of_allocate_mem {addr : Option IpAddr}
    (member : .allocate addr ∈ plannedMarks named current wanted) :
    named = true ∧ (wanted = [] ∧ current = [] ∨ ∃ addr ∈ wanted, addr ∉ current) := by
  unfold plannedMarks at member
  split_ifs at member with isNamed empty none
  · exact ⟨isNamed, .inl ⟨empty, none⟩⟩
  · simp at member
  · rcases List.mem_append.mp member with member | member
    · rcases List.mem_map.mp member with ⟨other, inWanted, same⟩
      split_ifs at same with inCurrent
      exact ⟨isNamed, .inr ⟨other, inWanted, inCurrent⟩⟩
    · simp at member
  · simp at member

theorem given_of_allocate {remained : List IpAddr} {set after : AllocatorSet}
    (run : allocateLbAddrs order svc set = (.ok remained, after)) :
    ∀ addr ∈ remained, addr ∈ svc.addrs ∨ ∃ name block, set.get name = some block ∧
      svc.TakesNew set name block ∧ block.allocator.cidr.contains addr = true ∧
      block.allocator.holds addr = false := by
  intro addr member
  rw [allocateLbAddrs_eq] at run
  split_ifs at run with none
  · exact absurd run (by simp)
  rcases collect_updateBlock_ok (nodup_markedBlocks order svc set) run with ⟨rfl, blocks⟩
  rcases List.mem_flatMap.mp member with ⟨name, visited, inShare⟩
  cases found : set.get name with
  | none =>
    rw [shareOf, found] at inShare
    exact absurd inShare List.not_mem_nil
  | some block =>
    rcases blocks name visited block found with ⟨values, alloc, ran, share, -⟩
    rw [share, mem_sortAddrs] at inShare
    have planned : svc.plan set name =
        plannedMarks (svc.names set name) (svc.current block) (svc.wanted block) := by
      rw [Service.plan, found]
    rcases given_of_collect (svc.plan_lasts set name) ran addr inShare with
      owned | ⟨free, inside, asked⟩
    · rw [planned] at owned
      exact .inl (List.mem_filter.mp (mem_of_allocated_mem owned)).1
    rw [planned] at asked
    refine .inr ⟨name, block, found, ?_, inside, free⟩
    rcases asked with asked | asked
    all_goals exact takes_of_allocate_mem asked

theorem mem_addrs_iff :
    addr ∈ svc.addrs ↔ ∃ ingress, svc.ingress = some ingress ∧ some addr ∈ ingress := by
  rw [Service.addrs, Service.getAllocatedLbAddrs]
  cases svc.ingress with
  | none => simp
  | some ingress => simp

theorem mem_addrs_of_clear {released : List IpAddr}
    (member : addr ∈ (svc.clearSvcLbAddrs released).addrs) : addr ∈ svc.addrs := by
  rcases mem_addrs_iff.mp member with ⟨left, cleared, listed⟩
  rcases Option.map_eq_some_iff.mp cleared with ⟨ingress, stored, rfl⟩
  exact mem_addrs_iff.mpr ⟨ingress, stored, (List.mem_filter.mp listed).1⟩

theorem services_replaceStatus (answered : Bool) (svc : Service) (cluster : Cluster) :
    (Cluster.replaceStatus answered svc cluster).2.services = cluster.services ∨
      (Cluster.replaceStatus answered svc cluster).2.services =
        cluster.services.insert svc.name svc := by
  cases answered with
  | false => exact .inl rfl
  | true => exact .inr rfl

theorem shrinks_cleanup (answers : ApiAnswers) (keyed : cluster.Keyed)
    (found : cluster.services.lookup name = some svc) :
    cluster.Shrinks (Cluster.cleanup answers svc cluster).2 := by
  rw [Cluster.cleanup]
  cases listed : svc.getAllocatedLbAddrs with
  | none => exact .of_services keyed rfl
  | some addrs =>
    dsimp only
    rw [Effect.bind_apply]
    have kept := services_onAllocators (releaseLbAddrs svc addrs) cluster
    rcases ran : Cluster.onAllocators (releaseLbAddrs svc addrs) cluster with
      ⟨released | cause | _, next⟩ <;> rw [ran] at kept
    · dsimp only at kept ⊢
      rcases services_replaceStatus answers.replaceStatus (svc.clearSvcLbAddrs released) next with
        same | written
      · exact .of_services keyed (same.trans kept)
      rw [kept] at written
      refine .insert keyed written fun addr member => ⟨svc, ?_, mem_addrs_of_clear member⟩
      have named : (svc.clearSvcLbAddrs released).name = name := keyed name svc found
      rw [named, found]
    all_goals exact .of_services keyed kept

theorem handleMutation_ingress (old : Option Service) (svc : Service) :
    (Service.handleMutation old svc).ingress = svc.ingress ∧
      (Service.handleMutation old svc).name = svc.name := by
  unfold Service.handleMutation
  split_ifs
  · exact ⟨rfl, rfl⟩
  cases old with
  | none => exact ⟨rfl, rfl⟩
  | some old =>
    dsimp only
    split_ifs
    · cases old.getAllocatedLbAddrs with
      | none | some allocated => exact ⟨rfl, rfl⟩
    · exact ⟨rfl, rfl⟩

theorem shrinks_write (keyed : cluster.Keyed) (spec : ServiceSpec) :
    cluster.Shrinks (cluster.write spec) := by
  rcases handleMutation_ingress (cluster.services.lookup spec.name)
    (Cluster.submitted (cluster.services.lookup spec.name) spec) with ⟨ingress, named⟩
  intro name svc found
  rw [Cluster.write, Table.lookup_insert] at found
  split_ifs at found with same cleared
  · rw [Option.some.injEq] at found
    subst found same
    refine ⟨named, fun addr member => ?_⟩
    rcases mem_addrs_iff.mp member with ⟨entries, impossible, -⟩
    exact absurd impossible (by simp)
  · rw [Option.some.injEq] at found
    subst found same
    refine ⟨named, fun addr member => ?_⟩
    rcases mem_addrs_iff.mp member with ⟨entries, stored, listed⟩
    rw [ingress] at stored
    rcases Option.bind_eq_some_iff.mp stored with ⟨old, was, entriesOf⟩
    exact ⟨old, was, mem_addrs_iff.mpr ⟨entries, entriesOf, listed⟩⟩
  · exact ⟨keyed name svc found, fun addr member => ⟨svc, found, member⟩⟩

theorem unique_reconcile (keyed : cluster.Keyed) (unique : cluster.Unique)
    (found : cluster.services.lookup name = some svc) (balancer : svc.isLoadbalancer = true)
    (knows : cluster.Knows svc) : (Cluster.reconcile order answers svc cluster).2.Keyed ∧
      (Cluster.reconcile order answers svc cluster).2.Unique := by
  rcases services_reconcile order answers cluster balancer with same | ⟨remained, set, run, written⟩
  · have shrinks := Cluster.Shrinks.of_services keyed same
    exact ⟨fun name svc stored => (shrinks name svc stored).1, shrinks.unique unique⟩
  have named := keyed name svc found
  -- an address of another Service is marked in every block that gives away a new one
  have apart : ∀ other right, cluster.services.lookup other = some right → other ≠ svc.name →
      ∀ addr ∈ remained, addr ∉ right.addrs := by
    intro other right foundRight different addr member inRight
    rcases given_of_allocate run addr member with
        owned | ⟨block, stored, inSet, takes, inside, free⟩
    · exact unique name other svc right found foundRight (named ▸ Ne.symm different) addr owned
        inRight
    have held := knows ⟨block, stored⟩ (AList.mem_lookup_iff.mp inSet) takes ⟨other, right⟩
      (AList.mem_lookup_iff.mp foundRight) different addr inRight inside
    rw [free] at held
    exact Bool.noConfusion held
  constructor
  · intro other right stored
    rw [written, Table.lookup_insert] at stored
    split_ifs at stored with same
    · rw [← Option.some.inj stored, same]
      rfl
    · exact keyed other right stored
  · intro first second left right foundLeft foundRight different addr inLeft inRight
    rw [written, Table.lookup_insert] at foundLeft foundRight
    split_ifs at foundLeft foundRight with sameFirst sameSecond sameSecond
    · exact different (sameFirst.trans sameSecond.symm)
    · rw [← Option.some.inj foundLeft, addrs_updateSvcLbAddrs] at inLeft
      exact apart second right foundRight sameSecond addr inLeft inRight
    · rw [← Option.some.inj foundRight, addrs_updateSvcLbAddrs] at inRight
      exact apart first left foundLeft sameFirst addr inRight inLeft
    · exact unique first second left right foundLeft foundRight different addr inLeft inRight

def Cluster.Sound (cluster : Cluster) : Prop := cluster.Keyed ∧ cluster.Unique

theorem Cluster.Shrinks.sound {cluster next : Cluster} (shrinks : cluster.Shrinks next)
    (sound : cluster.Sound) : next.Sound :=
  ⟨fun name svc stored => (shrinks name svc stored).1, shrinks.unique sound.2⟩

theorem sound_apply (cluster : Cluster) (event : ServiceEvent) (sound : cluster.Sound)
    (informed : event.Informed cluster) : (cluster.apply event).Sound := by
  cases event with
  | write spec => exact (shrinks_write sound.1 spec).sound sound
  | reconcile name order answers =>
    rw [Cluster.apply]
    rw [ServiceEvent.Informed] at informed
    cases found : cluster.services.lookup name with
    | none => exact sound
    | some svc =>
      rw [found] at informed
      cases balancer : svc.isLoadbalancer with
      | false =>
        exact (Cluster.Shrinks.of_services sound.1 (services_reconcile_other balancer)).sound sound
      | true => exact unique_reconcile sound.1 sound.2 found balancer (informed balancer)
  | cleanup name answers =>
    rw [Cluster.apply, Cluster.delete]
    cases found : cluster.services.lookup name with
    | none => exact sound
    | some svc =>
      have shrinks := shrinks_cleanup answers sound.1 found
      dsimp only
      rcases ran : Cluster.cleanup answers svc cluster with ⟨done | cause | _, next⟩ <;>
        rw [ran] at shrinks
      · exact (shrinks.erase name).sound sound
      all_goals exact shrinks.sound sound
  | reconcileBlock ab | cleanupBlock wraps ab =>
    exact (Cluster.Shrinks.of_services sound.1 rfl).sound sound
  | restart => exact (Cluster.Shrinks.of_services sound.1 rfl).sound sound

theorem sound_initial : Cluster.initial.Sound := by
  constructor
  · intro name svc found
    exact absurd found (by simp [Cluster.initial])
  · intro first second left right found
    exact absurd found (by simp [Cluster.initial])

/-- In a run of which all steps are informed, no two Services have the same address at any time. -/
theorem unique_of_informed (events : List ServiceEvent)
    (informed : AllSteps Cluster.apply (fun cluster event => event.Informed cluster)
      Cluster.initial events) (part rest : List ServiceEvent) (split : events = part ++ rest) :
    (part.foldl Cluster.apply Cluster.initial).Unique := by
  subst split
  exact (foldl_invariant Cluster.Sound sound_apply sound_initial informed.of_append).2

def sampleAddressBlock : AddressBlock where
  name := "lan"
  cidr := some (.v4 (.ofLength 0x0A000000#32 30))
  type := .service
  poolRef := "lan"
  nodeRef := none
  autoAssign := true
  index := none

def sampleSpec (name : String) : ServiceSpec := ⟨name, true, some "Cluster", none, none⟩

def sampleEvents : List ServiceEvent :=
  [.reconcileBlock sampleAddressBlock, .write (sampleSpec "web"), .reconcile "web" .asStored .all,
    .write (sampleSpec "api"), .reconcile "api" .asStored .all]

theorem unique_of_no_restart : (sampleEvents.foldl Cluster.apply Cluster.initial).Unique := by
  refine unique_of_informed sampleEvents ?_ sampleEvents [] (List.append_nil _).symm
  refine ⟨trivial, trivial, fun _ => ?_, trivial, fun _ => ?_, trivial⟩
  all_goals
    show Cluster.Knows _ _
    decide

/-- The controller is started again between the two, and knows of the block but not of the first
load balancer when it reconciles the second. -/
theorem not_unique_after_restart :
    ¬([.reconcileBlock sampleAddressBlock, .write (sampleSpec "web"),
        .reconcile "web" .asStored .all, .restart, .reconcileBlock sampleAddressBlock,
        .write (sampleSpec "api"), .reconcile "api" .asStored .all].foldl Cluster.apply
      Cluster.initial).Unique := by
  intro unique
  have apart := unique "web" "api" _ _ rfl rfl (by decide) (.v4 0x0A000000#32)
  revert apart
  decide

end Sart
