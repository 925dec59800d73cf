import Sart.Agent.NodeBlocks
import Sart.Controller.ServiceBlocks
import Sart.Ipam.FiniteSet

/-!
# Blocks that count as empty

Whether a block is empty is asked before it is deleted, by the controller for the blocks of services
and by the agent for those of pods.  The answer is right exactly if the words of the bit set do not
add up to more than a word can hold.
-/

namespace Sart

open Sart.Lib

variable {block : Block} {wraps : Bool} {ab : AddressBlock} {set : AllocatorSet}

/-- The block counts as empty exactly if no bit is set, and it is removed or reported to be empty
only if it has no address. -/
structure Block.DeletedUnused (block : Block) : Prop where
  isEmpty : ∀ wraps, ∃ empty, block.allocator.isEmpty wraps = .ok empty ∧
    (empty = true ↔ block.allocator.bits.Vacant)
  controller : ∀ wraps ab set, set.get ab.name = some block →
    (cleanupService wraps ab set).2.get ab.name = none → ∀ addr, block.allocator.holds addr = false
  agent : ∀ wraps ab node, node.allocators.get ab.name = some block →
    (Node.cleanupBlock wraps ab node).2.allocators.get ab.name = none →
    ∀ addr, block.allocator.holds addr = false
  del : ∀ wraps name addr set, set.get name = some block →
    (AllocatorSet.releaseAddr wraps name addr set).1 = .ok true →
    ∀ left ∈ (AllocatorSet.releaseAddr wraps name addr set).2.get name,
      ∀ other, left.allocator.holds other = false

theorem isEmpty_of_cleanupService (found : set.get ab.name = some block)
    (removed : (cleanupService wraps ab set).2.get ab.name = none) :
    block.allocator.isEmpty wraps = .ok true := by
  rcases RegistryCall.cleanupService_cases wraps ab set with
    ⟨outcome, ran⟩ | ⟨-, ⟨other, stored, empty⟩, -⟩
  · simp [ran, found] at removed
  · rw [found, Option.some.injEq] at stored
    exact stored ▸ empty

theorem isEmpty_of_cleanupBlock {node : Node} (found : node.allocators.get ab.name = some block)
    (removed : (Node.cleanupBlock wraps ab node).2.allocators.get ab.name = none) :
    block.allocator.isEmpty wraps = .ok true := by
  rcases Node.cleanupBlock_cases wraps ab node with ⟨outcome, ran⟩ | ⟨other, stored, empty, -⟩
  · simp [ran, found] at removed
  · rw [found, Option.some.injEq] at stored
    exact stored ▸ empty

theorem Allocator.holds_of_isEmpty {alloc : Allocator} (fits : alloc.NoOverflow)
    (counted : alloc.isEmpty wraps = .ok true) (addr : IpAddr) : alloc.holds addr = false := by
  rcases fits.isEmpty wraps with ⟨empty, returned, vacant⟩
  rw [counted, Outcome.ok.injEq] at returned
  exact vacant returned.symm addr

theorem Block.deletedUnused_iff (block : Block) :
    block.DeletedUnused ↔ block.allocator.NoOverflow := by
  constructor
  · intro deleted
    rcases deleted.isEmpty false with ⟨empty, returned, -⟩
    rw [Allocator.isEmpty] at returned
    cases counted : block.allocator.bits.isEmpty false with
    | ok empty => exact .of_isEmpty counted
    | error cause | panic => simp [counted, Allocator.liftBits] at returned
  · intro fits
    refine ⟨fun wraps => ?_, ?_, ?_, ?_⟩
    · rcases BitSet.NoOverflow.isEmpty fits wraps with ⟨empty, returned, vacant⟩
      exact ⟨empty, by rw [Allocator.isEmpty, returned]; rfl, vacant⟩
    · exact fun wraps ab set found removed =>
        Allocator.holds_of_isEmpty fits (isEmpty_of_cleanupService found removed)
    · exact fun wraps ab node found removed =>
        Allocator.holds_of_isEmpty fits (isEmpty_of_cleanupBlock found removed)
    · intro wraps name addr set found reported
      by_cases inside : block.allocator.cidr.contains addr = true
      · have released := Allocator.release_eq inside
        split_ifs at released
        · simp [AllocatorSet.releaseAddr, found, released] at reported
        have left := fits.release addr (block.allocator.allocated - 1)
        rcases left.isEmpty wraps with ⟨empty, returned, vacant⟩
        simp only [AllocatorSet.releaseAddr, found, released, returned,
          Outcome.ok.injEq] at reported
        simp only [AllocatorSet.releaseAddr, found, released, returned,
          AllocatorSet.get_setAllocator, if_true, Option.mem_some_iff, forall_eq']
        exact vacant reported
      · rcases Allocator.release_outside inside with ⟨cause, refused⟩
        simp [AllocatorSet.releaseAddr, found, refused] at reported

def sampleFullWords : Allocator :=
  [.allocate (.v4 0x0A00007F#32) false, .allocate (.v4 0x0A0000FF#32) false].foldl Allocator.step
    (.newBit (.v4 (.ofLength 0x0A000000#32 24)))

/-- Two addresses of a block are allocated, the last one of each word, and it counts as empty. -/
theorem not_deletedUnused_of_two :
    sampleFullWords.holds (.v4 0x0A0000FF#32) = true ∧ sampleFullWords.isEmpty true = .ok true ∧
      ¬Block.DeletedUnused ⟨"block", "pod", sampleFullWords⟩ := by
  refine ⟨by decide +kernel, by decide +kernel, fun deleted => ?_⟩
  rcases deleted.isEmpty false with ⟨empty, returned, -⟩
  cases returned

end Sart
