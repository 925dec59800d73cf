import Sart.Controller.Fixpoint

/-!
# What a load balancer gets

A load balancer is to have addresses of the pools it names: those it asks for, at least one of
every pool, and the ones it had of a pool of which it asks for none in particular.  All of this
holds, but an address may be listed twice.
-/

namespace Sart

open Sart.Lib

namespace Service

variable {svc : Service} {set after : AllocatorSet} {order : HashOrder} {addrs : List IpAddr}
  {name : String} {block : Block}

def Serves (svc : Service) (set : AllocatorSet) (name : String) (block : Block) : Prop :=
  svc.names set name = true ∧ set.get name = some block

structure Fulfilled (svc : Service) (set : AllocatorSet) (addrs : List IpAddr)
    (after : AllocatorSet) : Prop where
  nodup : addrs.Nodup
  desired : ∀ addr ∈ addrs, ∃ name block, svc.Serves set name block ∧
    block.allocator.cidr.contains addr = true
  requested : ∀ name block, svc.Serves set name block → ∀ addr ∈ svc.wanted block, addr ∈ addrs
  served : ∀ name block, svc.Serves set name block →
    ∃ addr ∈ addrs, block.allocator.cidr.contains addr = true
  kept : ∀ name block, svc.Serves set name block → svc.wanted block = [] →
    ∀ addr ∈ svc.current block, addr ∈ addrs
  marked : ∀ addr ∈ addrs, ∃ name block, svc.names set name = true ∧ after.get name = some block ∧
    block.allocator.holds addr = true

/-- The condition on the Service: no address of a pool is listed twice among those that it asks for,
or without those among the ones that it has. -/
def Unrepeated (svc : Service) (set : AllocatorSet) : Prop :=
  ∀ name block, svc.Serves set name block → (svc.expected block).Nodup

section Shares

variable (chosen : desiredPools svc set ≠ none)
  (run : Effect.collect (updateBlock (svc.plan set)) (markedBlocks order svc set) set =
    (.ok addrs, after))

include chosen run

theorem share_cases (serves : svc.Serves set name block) :
    (svc.expected block = [] ∧ ∃ addr, shareOf (svc.plan set) set name = [addr]) ∨
      (svc.expected block ≠ [] ∧
        shareOf (svc.plan set) set name = sortAddrs (svc.expected block)) := by
  rcases collect_plan chosen run serves.2 with ⟨values, alloc, ran, share, -⟩
  rw [plan, serves.2] at ran
  rw [serves.1] at ran
  rw [share]
  rcases values_of_named ran with ⟨nothing, addr, rfl⟩ | ⟨several, rfl⟩
  · exact .inl ⟨nothing, addr, rfl⟩
  · exact .inr ⟨several, rfl⟩

variable {addr : IpAddr}

theorem serves_of_mem (member : addr ∈ shareOf (svc.plan set) set name) :
    ∃ block, svc.Serves set name block ∧ block.allocator.cidr.contains addr = true := by
  have line := inLine_of_run chosen run
  have named : svc.names set name = true := by
    by_contra other
    rw [line.unnamed (Bool.eq_false_iff.mpr other)] at member
    exact List.not_mem_nil member
  cases found : set.get name with
  | none =>
    rw [(line.absent found).2] at member
    exact absurd member List.not_mem_nil
  | some block => exact ⟨block, ⟨named, found⟩, line.inside found addr member⟩

theorem mem_addrs :
    addr ∈ addrs ↔ ∃ name, addr ∈ shareOf (svc.plan set) set name := by
  rw [(collect_updateBlock_ok (nodup_markedBlocks order svc set) run).1, List.mem_flatMap]
  constructor
  · rintro ⟨name, -, member⟩
    exact ⟨name, member⟩
  · rintro ⟨name, member⟩
    refine ⟨name, ?_, member⟩
    by_contra unvisited
    rw [shareOf_of_not_mem chosen unvisited] at member
    exact List.not_mem_nil member

theorem mem_of_expected (serves : svc.Serves set name block) (member : addr ∈ svc.expected block) :
    addr ∈ addrs := by
  refine (mem_addrs chosen run).mpr ⟨name, ?_⟩
  rcases share_cases chosen run serves with ⟨nothing, -⟩ | ⟨-, share⟩
  · rw [nothing] at member
    exact absurd member List.not_mem_nil
  · rw [share, mem_sortAddrs]
    exact member

theorem exists_share (serves : svc.Serves set name block) :
    ∃ addr, addr ∈ shareOf (svc.plan set) set name := by
  have some := ((inLine_of_run chosen run).named serves.2 serves.1).1
  exact List.exists_mem_of_ne_nil _ some

theorem nodup_share_iff (serves : svc.Serves set name block) :
    (shareOf (svc.plan set) set name).Nodup ↔ (svc.expected block).Nodup := by
  rcases share_cases chosen run serves with ⟨nothing, addr, share⟩ | ⟨-, share⟩
  · rw [nothing, share]
    exact iff_of_true (List.nodup_singleton addr) List.nodup_nil
  · rw [share]
    exact (List.perm_insertionSort _ _).nodup_iff

theorem nodup_addrs_iff (disjoint : set.Disjoint) : addrs.Nodup ↔ svc.Unrepeated set := by
  rw [(collect_updateBlock_ok (nodup_markedBlocks order svc set) run).1, List.nodup_flatMap]
  constructor
  · rintro ⟨each, -⟩ name block serves
    rw [← nodup_share_iff chosen run serves]
    refine each name ?_
    by_contra unvisited
    rcases exists_share chosen run serves with ⟨addr, member⟩
    rw [shareOf_of_not_mem chosen unvisited] at member
    exact List.not_mem_nil member
  · intro unrepeated
    refine ⟨fun name _ => ?_, ?_⟩
    · cases share : shareOf (svc.plan set) set name with
      | nil => exact List.nodup_nil
      | cons addr rest =>
        have member : addr ∈ shareOf (svc.plan set) set name := share ▸ List.mem_cons_self
        rcases serves_of_mem chosen run member with ⟨block, serves, -⟩
        rw [← share, nodup_share_iff chosen run serves]
        exact unrepeated name block serves
    refine (nodup_markedBlocks order svc set).imp ?_
    intro first second different addr inFirst inSecond
    rcases serves_of_mem chosen run inFirst with ⟨left, servesLeft, insideLeft⟩
    rcases serves_of_mem chosen run inSecond with ⟨right, servesRight, insideRight⟩
    exact disjoint first second left right servesLeft.2 servesRight.2 different addr
      ⟨insideLeft, insideRight⟩

end Shares

/-- With disjoint blocks, an allocation that succeeds gives the Service what it is to get exactly
under the condition. -/
theorem fulfilled_iff_unrepeated (disjoint : set.Disjoint)
    (ran : allocateLbAddrs order svc set = (.ok addrs, after)) :
    svc.Fulfilled set addrs after ↔ svc.Unrepeated set := by
  rw [allocateLbAddrs_eq] at ran
  by_cases none : (desiredPools svc set).isNone = true
  · rw [if_pos none] at ran
    cases ran
  rw [if_neg none] at ran
  have chosen : desiredPools svc set ≠ Option.none := by simpa using none
  rw [← nodup_addrs_iff chosen ran disjoint]
  refine ⟨Fulfilled.nodup, fun nodup => ⟨nodup, ?_, ?_, ?_, ?_, ?_⟩⟩
  · intro addr member
    rcases (mem_addrs chosen ran).mp member with ⟨name, share⟩
    rcases serves_of_mem chosen ran share with ⟨block, serves, inside⟩
    exact ⟨name, block, serves, inside⟩
  · intro name block serves addr wants
    refine mem_of_expected chosen ran serves ?_
    rw [expected, if_neg (List.ne_nil_of_mem wants)]
    exact wants
  · intro name block serves
    rcases exists_share chosen ran serves with ⟨addr, member⟩
    refine ⟨addr, (mem_addrs chosen ran).mpr ⟨name, member⟩, ?_⟩
    exact (inLine_of_run chosen ran).inside serves.2 addr member
  · intro name block serves nothing addr has
    refine mem_of_expected chosen ran serves ?_
    rw [expected, if_pos nothing]
    exact has
  · intro addr member
    rcases (mem_addrs chosen ran).mp member with ⟨name, share⟩
    rcases serves_of_mem chosen ran share with ⟨block, serves, -⟩
    rcases (inLine_of_run chosen ran).stored serves.2 with ⟨alloc, stored, -, held⟩
    exact ⟨name, { block with allocator := alloc }, serves.1, stored, held addr share⟩

theorem fulfilled_sampleBoth :
    sampleBoth.Fulfilled sampleTwo.allocators [.v4 0x0A000000#32, .v4 0x0A000100#32]
      (allocateLbAddrs .asStored sampleBoth sampleTwo.allocators).2 := by
  refine (fulfilled_iff_unrepeated sampleTwo_disjoint (Prod.ext (by decide) rfl)).mpr ?_
  rintro name block ⟨-, found⟩
  rcases sampleTwo_get found with ⟨rfl, rfl⟩ | ⟨rfl, rfl⟩
  · decide
  · decide

def sampleTwice : Service :=
  (sampleRequest [.v4 0x0A000001#32, .v4 0x0A000001#32]).updateSvcLbAddrs [.v4 0x0A000001#32]

/-- The address is listed twice. -/
theorem not_fulfilled_sampleTwice :
    sampleTaken.Disjoint ∧
      (allocateLbAddrs .asStored sampleTwice sampleTaken).1 =
        .ok [.v4 0x0A000001#32, .v4 0x0A000001#32] ∧
      ¬sampleTwice.Fulfilled sampleTaken [.v4 0x0A000001#32, .v4 0x0A000001#32]
        (allocateLbAddrs .asStored sampleTwice sampleTaken).2 := by
  refine ⟨?_, by decide, fun fulfilled => absurd fulfilled.nodup (by decide)⟩
  have only : ∀ name block, sampleTaken.get name = some block → name = "lan" := by
    intro name block found
    by_contra other
    have absent : sampleTaken.get name = none := by
      simp [AllocatorSet.get, sampleTaken, AList.singleton, AList.lookup, List.dlookup,
        Ne.symm other]
    rw [absent] at found
    cases found
  intro first second left right foundFirst foundSecond different
  exact absurd ((only first left foundFirst).trans (only second right foundSecond).symm) different

end Service

end Sart
