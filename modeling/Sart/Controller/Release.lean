import Sart.Controller.AllOrNothing

/-!
# Releasing the addresses of a Service

The addresses are looked for in the blocks that the Service names at the time of the
release, not in those they came from.  A block releases no more addresses than it counts
as allocated, and releases of addresses that were not allocated bring the count down.
-/

namespace Sart

open Sart.Lib Sart.Lib.Effect

variable {alloc : Allocator} {addr : IpAddr} {addrs : List IpAddr}

def heldAddrs (addrs : List IpAddr) (alloc : Allocator) : Finset IpAddr :=
  addrs.toFinset.filter fun addr => alloc.holds addr = true

def Sufficient (addrs : List IpAddr) (alloc : Allocator) : Prop :=
  (heldAddrs addrs alloc).card ≤ alloc.allocated
  deriving Decidable

theorem releaseAllocated_eq (addr : IpAddr) (alloc : Allocator) :
    releaseAllocated addr alloc =
      if alloc.holds addr = true ∧ alloc.allocated ≠ 0 then
        (.ok [addr], alloc.mark addr false (alloc.allocated - 1))
      else (.ok [], alloc) := by
  rw [releaseAllocated, Allocator.perform_eq, Allocator.isAllocated_eq, Outcome.ok_bind]
  by_cases held : alloc.holds addr = true
  · have inside := Allocator.contains_of_holds held
    rw [if_neg (by simp [held, inside]), Allocator.release_eq inside]
    by_cases counted : alloc.allocated = 0
    · rw [if_pos counted, if_neg (by simp [counted])]
    · rw [if_neg counted, if_pos ⟨held, counted⟩]
  · rw [if_pos (by simp [held]), if_neg (by simp [held])]

theorem heldAddrs_mark (inside : alloc.cidr.contains addr = true) (count : ℕ) :
    heldAddrs addrs (alloc.mark addr false count) = (heldAddrs addrs alloc).erase addr := by
  ext other
  simp only [heldAddrs, Finset.mem_filter, Finset.mem_erase, Allocator.holds_mark inside]
  by_cases same : other = addr
  all_goals simp [same]

theorem sufficient_releaseAllocated (listed : addr ∈ addrs) :
    Sufficient addrs (releaseAllocated addr alloc).2 ↔ Sufficient addrs alloc := by
  rw [releaseAllocated_eq]
  split_ifs with releasable
  · have inside := Allocator.contains_of_holds releasable.1
    have member : addr ∈ heldAddrs addrs alloc :=
      Finset.mem_filter.mpr ⟨List.mem_toFinset.mpr listed, releasable.1⟩
    have positive := Finset.card_pos.mpr ⟨addr, member⟩
    rw [Sufficient, heldAddrs_mark inside, Finset.card_erase_of_mem member, Sufficient,
      Allocator.allocated_mark]
    omega
  · rfl

theorem releaseAllocated_keeps_free (other : IpAddr) :
    Keeps (fun alloc => alloc.holds addr = false) (releaseAllocated other) := by
  refine Spec.of_final fun alloc free => ?_
  rw [releaseAllocated_eq]
  split_ifs with releasable
  · rw [Allocator.holds_mark (Allocator.contains_of_holds releasable.1), free, ite_self]
  · exact free

theorem releaseAllocated_ok (addr : IpAddr) (alloc : Allocator) :
    ∃ values, releaseAllocated addr alloc = (.ok values, (releaseAllocated addr alloc).2) := by
  rw [releaseAllocated_eq]
  split_ifs
  all_goals exact ⟨_, rfl⟩

theorem free_releaseAllocated (listed : addr ∈ addrs) (sufficient : Sufficient addrs alloc) :
    (releaseAllocated addr alloc).2.holds addr = false := by
  rw [releaseAllocated_eq]
  split_ifs with releasable
  · rw [Allocator.holds_mark (Allocator.contains_of_holds releasable.1), if_pos rfl]
  rw [not_and_not_right] at releasable
  by_contra held
  rw [Bool.not_eq_false] at held
  have member : addr ∈ heldAddrs addrs alloc :=
    Finset.mem_filter.mpr ⟨List.mem_toFinset.mpr listed, held⟩
  have positive := Finset.card_pos.mpr ⟨addr, member⟩
  rw [Sufficient, releasable held] at sufficient
  omega

theorem collect_releaseAllocated_ok (todo : List IpAddr) (alloc : Allocator) :
    ∃ out final, collect releaseAllocated todo alloc = (.ok out, final) := by
  induction todo generalizing alloc with
  | nil => exact ⟨[], alloc, rfl⟩
  | cons addr rest ih =>
    rcases releaseAllocated_ok addr alloc with ⟨values, ran⟩
    rcases ih (releaseAllocated addr alloc).2 with ⟨out, final, run⟩
    exact ⟨values ++ out, final, by rw [collect_cons ran, run]⟩

variable {todo : List IpAddr}

theorem sufficient_collect (listed : ∀ addr ∈ todo, addr ∈ addrs) :
    Sufficient addrs (collect releaseAllocated todo alloc).2 ↔ Sufficient addrs alloc := by
  have keeps : Keeps (fun state => Sufficient addrs state ↔ Sufficient addrs alloc)
      (collect releaseAllocated todo) := by
    refine Keeps.collect_of_mem fun addr member => Spec.of_final fun state same => ?_
    exact (sufficient_releaseAllocated (listed addr member)).trans same
  exact keeps.final Iff.rfl

theorem free_of_sufficient (listed : ∀ addr ∈ todo, addr ∈ addrs)
    (sufficient : Sufficient addrs alloc) :
    ∀ addr ∈ todo, (collect releaseAllocated todo alloc).2.holds addr = false := by
  induction todo generalizing alloc with
  | nil => simp
  | cons first rest ih =>
    intro addr member
    have here := listed first List.mem_cons_self
    have others : ∀ other ∈ rest, other ∈ addrs := fun other inRest =>
      listed other (List.mem_cons_of_mem _ inRest)
    rcases releaseAllocated_ok first alloc with ⟨values, ran⟩
    rw [collect_cons_final ran]
    rcases List.mem_cons.mp member with rfl | later
    · exact (Keeps.collect releaseAllocated_keeps_free rest).final
        (free_releaseAllocated here sufficient)
    · exact ih others ((sufficient_releaseAllocated here).mpr sufficient) addr later

theorem sufficient_of_none (none : ∀ addr ∈ addrs, ¬alloc.holds addr = true) :
    Sufficient addrs alloc := by
  rw [Sufficient, Finset.card_eq_zero.mpr]
  · exact Nat.zero_le _
  · exact Finset.filter_eq_empty_iff.mpr fun addr listed => none addr (List.mem_toFinset.mp listed)

theorem free_iff_sufficient :
    (∀ addr ∈ addrs, (collect releaseAllocated addrs alloc).2.holds addr = false) ↔
      Sufficient addrs alloc := by
  refine ⟨fun free => ?_, free_of_sufficient fun _ member => member⟩
  rw [← sufficient_collect fun _ member => member]
  refine sufficient_of_none fun addr listed => ?_
  rw [free addr listed]
  exact Bool.false_ne_true

variable {set : AllocatorSet} {name : String} {block : Block}

def searchedPools (svc : Service) (set : AllocatorSet) : List String :=
  svc.getDesiredPools.getD set.autoAssign.toList

def releasePool (addrs : List IpAddr) (pool : String) :
    Effect AllocatorSet ControllerError (List IpAddr) :=
  AllocatorSet.onBlock pool (collect releaseAllocated addrs)

theorem releasePool_ok (addrs : List IpAddr) (pool : String) (set : AllocatorSet) :
    ∃ values, releasePool addrs pool set = (.ok values, (releasePool addrs pool set).2) := by
  rw [releasePool]
  cases found : set.get pool with
  | none => exact ⟨[], by rw [onBlock_of_none found]⟩
  | some block =>
    rcases collect_releaseAllocated_ok addrs block.allocator with ⟨out, final, run⟩
    exact ⟨out, by rw [onBlock_of_get found, run]⟩

theorem get_releasePool (found : set.get name = some block) :
    (releasePool addrs name set).2.get name =
      some { block with allocator := (collect releaseAllocated addrs block.allocator).2 } := by
  rw [releasePool, onBlock_of_get found, AllocatorSet.get_setAllocator, if_pos rfl]

theorem free_collect_releasePool {pools : List String} (listed : name ∈ pools)
    (found : set.get name = some block) :
    ∃ allocator, (collect (releasePool addrs) pools set).2.get name =
        some { block with allocator := allocator } ∧
      ((∀ addr ∈ addrs, allocator.holds addr = false) ↔ Sufficient addrs block.allocator) := by
  induction pools generalizing set block with
  | nil => exact absurd listed List.not_mem_nil
  | cons pool rest ih =>
    rcases releasePool_ok addrs pool set with ⟨values, ran⟩
    rw [collect_cons_final ran]
    by_cases again : name ∈ rest
    · by_cases same : name = pool
      · -- the block is looked at once more, with what the first pass left
        subst same
        rcases ih again (get_releasePool found) with ⟨allocator, last, free⟩
        exact ⟨allocator, last, free.trans (sufficient_collect fun _ member => member)⟩
      · exact ih again ((get_onBlock_ne same).trans found)
    have same : name = pool := (List.mem_cons.mp listed).resolve_right again
    subst same
    refine ⟨_, ?_, free_iff_sufficient⟩
    exact (get_collect_onBlock again).trans (get_releasePool found)

theorem free_releaseLbAddrs_iff {svc : Service} {out : List IpAddr} {final : AllocatorSet}
    (run : releaseLbAddrs svc addrs set = (.ok out, final)) :
    (∀ addr ∈ addrs, ∀ name, final.holds name addr = false) ↔
      ∀ name block, set.get name = some block →
        (∃ addr ∈ addrs, block.allocator.holds addr = true) →
        name ∈ searchedPools svc set ∧ Sufficient addrs block.allocator := by
  have start : releaseLbAddrs svc addrs set =
      (if (searchedPools svc set).isEmpty then fail .noAllocatableBlock
        else collect (releasePool addrs) (searchedPools svc set)) set := rfl
  rw [start] at run
  split_ifs at run with empty
  · simp [fail] at run
  have last : final = (collect (releasePool addrs) (searchedPools svc set) set).2 := by
    rw [run]
  subst last
  constructor
  · rintro free name block found ⟨addr, listed, held⟩
    have freed := free addr listed name
    by_cases searched : name ∈ searchedPools svc set
    · refine ⟨searched, ?_⟩
      rcases free_collect_releasePool searched found with ⟨allocator, last, iff⟩
      refine iff.mp fun other inAddrs => ?_
      have gone := free other inAddrs name
      rwa [AllocatorSet.holds, last, Option.any_some] at gone
    have kept : (collect (releasePool addrs) (searchedPools svc set) set).2.get name =
        some block := (get_collect_onBlock searched).trans found
    rw [AllocatorSet.holds, kept, Option.any_some, held] at freed
    exact Bool.noConfusion freed
  · intro reachable addr listed name
    rw [AllocatorSet.holds]
    cases found : set.get name with
    | none =>
      have absent : (collect (releasePool addrs) (searchedPools svc set) set).2.get name =
          none := get_collect_onBlock_none found
      rw [absent, Option.any_none]
    | some block =>
      by_cases searched : name ∈ searchedPools svc set
      · rcases free_collect_releasePool searched found with ⟨allocator, last, iff⟩
        rw [last, Option.any_some]
        refine iff.mpr ?_ addr listed
        by_cases holds : ∃ addr ∈ addrs, block.allocator.holds addr = true
        · exact (reachable name block found holds).2
        · exact sufficient_of_none fun other member held => holds ⟨other, member, held⟩
      have kept : (collect (releasePool addrs) (searchedPools svc set) set).2.get name =
          some block := (get_collect_onBlock searched).trans found
      rw [kept, Option.any_some]
      by_contra held
      rw [Bool.not_eq_false] at held
      exact searched (reachable name block found ⟨addr, listed, held⟩).1

inductive ReleaseRun (svc : Service) (cluster : Cluster) : List IpAddr → Cluster → Prop
  | cleanup {answers : ApiAnswers} {addrs : List IpAddr} {final : Cluster}
      (listed : svc.getAllocatedLbAddrs = some addrs)
      (run : Cluster.cleanup answers svc cluster = (.ok ⟨⟩, final)) :
      ReleaseRun svc cluster addrs final
  | reconcile {order : HashOrder} {answers : ApiAnswers} {addrs : List IpAddr} {final : Cluster}
      (other : svc.isLoadbalancer = false) (listed : svc.getReleasableAddrs = some addrs)
      (run : Cluster.reconcile order answers svc cluster = (.ok ⟨⟩, final)) :
      ReleaseRun svc cluster addrs final

variable {cluster final : Cluster} {svc : Service}

theorem onAllocators_ok {α : Type} {effect : Effect AllocatorSet ControllerError α} {value : α} :
    Cluster.onAllocators effect cluster = (.ok value, final) ↔
      ∃ allocators, effect cluster.allocators = (.ok value, allocators) ∧
        final = { cluster with allocators := allocators } := by
  rw [Cluster.onAllocators]
  rcases effect cluster.allocators with ⟨result, allocators⟩
  constructor
  · intro run
    simp only [Prod.mk.injEq] at run
    exact ⟨allocators, by rw [run.1], run.2.symm⟩
  · rintro ⟨_, ran, rfl⟩
    simp only [Prod.mk.injEq] at ran
    rw [ran.1, ran.2]

theorem replaceStatus_ok {answered : Bool} {value : PUnit}
    (run : Cluster.replaceStatus answered svc cluster = (.ok value, final)) :
    final = { cluster with
      services := cluster.services.insert svc.name svc
      statusWrites := cluster.statusWrites + 1 } := by
  cases answered with
  | false => simp [Cluster.replaceStatus, Cluster.call, bind_apply, fail] at run
  | true =>
    have ran : Cluster.replaceStatus true svc cluster = (.ok ⟨⟩, { cluster with
      services := cluster.services.insert svc.name svc
      statusWrites := cluster.statusWrites + 1 }) := rfl
    rw [ran, Prod.mk.injEq] at run
    exact run.2.symm

theorem ReleaseRun.released {addrs : List IpAddr} (run : ReleaseRun svc cluster addrs final) :
    ∃ out, releaseLbAddrs svc addrs cluster.allocators = (.ok out, final.allocators) := by
  cases run with
  | cleanup listed run =>
    rw [Cluster.cleanup, listed] at run
    rw [bind_eq_ok] at run
    rcases run with ⟨out, middle, ran, last⟩
    rcases onAllocators_ok.mp ran with ⟨allocators, released, rfl⟩
    rw [replaceStatus_ok last]
    exact ⟨out, released⟩
  | reconcile other listed run =>
    rw [Cluster.reconcile, other, listed] at run
    rcases bind_eq_ok.mp run with ⟨out, middle, ran, last⟩
    rcases onAllocators_ok.mp ran with ⟨allocators, released, rfl⟩
    simp only [pure_apply, Prod.mk.injEq] at last
    rw [← last.2]
    exact ⟨out, released⟩

/-- After the cleanup of a Service, and after the reconciliation of one that is no load balancer,
none of its addresses is allocated if and only if every block that holds one of them is looked at
and has a sufficient count. -/
theorem released_iff (svc : Service) (cluster : Cluster) (addrs : List IpAddr) (final : Cluster)
    (run : ReleaseRun svc cluster addrs final) :
    (∀ addr ∈ addrs, ∀ name, final.allocators.holds name addr = false) ↔
      ∀ name block, cluster.allocators.get name = some block →
        (∃ addr ∈ addrs, block.allocator.holds addr = true) →
        name ∈ searchedPools svc cluster.allocators ∧ Sufficient addrs block.allocator := by
  rcases run.released with ⟨out, released⟩
  exact free_releaseLbAddrs_iff released

def sampleHolder (pools : List String) : Service where
  name := "web"
  isLoadbalancer := true
  externalTrafficPolicy := some "Cluster"
  poolAnnotation := some pools
  addressAnnotation := none
  releaseAnnotation := none
  ingress := some [some (.v4 0x0A000001#32)]

def sampleCluster (svc : Service) : Cluster := ⟨sampleTaken, AList.singleton svc.name svc, 0⟩

theorem released_of_named :
    (Cluster.cleanup .all (sampleHolder ["lan"])
    (sampleCluster (sampleHolder ["lan"]))).2.allocators.holds
      "lan" (.v4 0x0A000001#32) = false := by
  have run : ReleaseRun (sampleHolder ["lan"]) (sampleCluster (sampleHolder ["lan"]))
      [.v4 0x0A000001#32] (Cluster.cleanup .all (sampleHolder ["lan"])
        (sampleCluster (sampleHolder ["lan"]))).2 :=
    .cleanup rfl (Prod.ext (by decide) rfl)
  refine (released_iff _ _ _ _ run).mpr ?_ _ (List.mem_singleton_self _) "lan"
  intro name block found _
  by_cases same : name = "lan"
  · subst same
    have stored : (sampleCluster (sampleHolder ["lan"])).allocators.get "lan" = some block := found
    refine ⟨by decide, ?_⟩
    have sufficient : ((sampleCluster (sampleHolder ["lan"])).allocators.get "lan").any
        (fun block => decide (Sufficient [.v4 0x0A000001#32] block.allocator)) = true := by decide
    rw [stored] at sufficient
    simpa using sufficient
  have absent : (sampleCluster (sampleHolder ["lan"])).allocators.get name = none :=
    AList.lookup_eq_none.mpr fun member => same (List.mem_singleton.mp member)
  rw [absent] at found
  exact absurd found (by simp)

/-- The cleanup of a Service that names another block by now returns, and the address stays
allocated. -/
theorem not_released_of_renamed :
    (Cluster.cleanup .all (sampleHolder ["dmz"]) (sampleCluster (sampleHolder ["dmz"]))).1 =
        .ok ⟨⟩ ∧
      (Cluster.cleanup .all (sampleHolder ["dmz"])
        (sampleCluster (sampleHolder ["dmz"]))).2.allocators.holds "lan" (.v4 0x0A000001#32) =
        true := by
  decide

end Sart
