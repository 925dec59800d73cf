import Sart.Ipam.Allocator
import Sart.Lib.Table

/-!
# The set of allocators

The controller and the agents keep one allocator for each block of addresses.  One
of the blocks may serve those that do not name one.
-/

namespace Sart

open Sart.Lib

structure Block where
  name : String
  poolName : String
  allocator : Allocator

def Block.new (name poolName : String) (cidr : IpNet) : Outcome IpamError Block := do
  let allocator ← Allocator.new cidr
  .ok ⟨name, poolName, allocator⟩

variable {name poolName : String} {cidr : IpNet} {block : Block}

theorem Block.new_eq_ok (created : Block.new name poolName cidr = .ok block) :
    block.allocator.cidr = cidr ∧ block.poolName = poolName ∧
      ∀ addr, block.allocator.holds addr = false := by
  rcases made : Allocator.new cidr with allocator | cause | _ <;>
    simp only [Block.new, made, Outcome.ok_bind, Outcome.error_bind, Outcome.panic_bind,
      Outcome.ok.injEq, reduceCtorEq] at created
  subst created
  exact ⟨(Allocator.holds_new made (.v4 0)).2.1, rfl, fun addr => (Allocator.holds_new made addr).1⟩

theorem Block.name_of_new (created : Block.new name poolName cidr = .ok block) :
    block.name = name := by
  rcases Outcome.bind_eq_ok.mp created with ⟨allocator, -, made⟩
  rw [Outcome.ok.injEq] at made
  rw [← made]

structure AllocatorSet where
  blocks : AList fun _ : String => Block
  autoAssign : Option String

namespace AllocatorSet

def empty : AllocatorSet := ⟨∅, none⟩

def insert (set : AllocatorSet) (block : Block) (autoAssign : Bool) :
    Outcome IpamError AllocatorSet :=
  if autoAssign then
    if set.autoAssign.isSome then .error .autoAssignableBlockAlreadyExists
    else .ok ⟨set.blocks.insert block.name block, some block.name⟩
  else .ok { set with blocks := set.blocks.insert block.name block }

def remove (set : AllocatorSet) (name : String) : AllocatorSet :=
  ⟨set.blocks.erase name, if set.autoAssign = some name then none else set.autoAssign⟩

def get (set : AllocatorSet) (name : String) : Option Block := set.blocks.lookup name

/-- The addresses by the block whose network they are in.  Whether they are allocated does not
matter. -/
def getBlocksFromAddrs (set : AllocatorSet) (addrs : List IpAddr) :
    AList fun _ : String => List IpAddr :=
  Table.gather (fun block addr => block.allocator.cidr.contains addr) set.blocks addrs

def setAllocator (set : AllocatorSet) (name : String) (block : Block) (allocator : Allocator) :
    AllocatorSet :=
  { set with blocks := set.blocks.insert name { block with allocator := allocator } }

def Disjoint (set : AllocatorSet) : Prop :=
  ∀ first second left right, set.get first = some left → set.get second = some right →
    first ≠ second → ∀ addr, ¬(left.allocator.cidr.contains addr = true ∧
      right.allocator.cidr.contains addr = true)

theorem lookup_getBlocksFromAddrs (set : AllocatorSet) (addrs : List IpAddr) (name : String) :
    (set.getBlocksFromAddrs addrs).lookup name =
      (set.get name).bind fun block =>
        Table.nonEmpty (addrs.filter fun addr => block.allocator.cidr.contains addr) :=
  Table.lookup_gather _ _ _ _

theorem get_setAllocator (set : AllocatorSet) (name : String) (block : Block)
    (allocator : Allocator) (other : String) : (set.setAllocator name block allocator).get other =
      if other = name then some { block with allocator := allocator } else set.get other := by
  by_cases same : other = name
  · subst same
    simp [get, setAllocator]
  · simp [get, setAllocator, same]

end AllocatorSet

end Sart
