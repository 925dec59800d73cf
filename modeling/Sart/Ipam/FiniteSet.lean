import Sart.Ipam.Allocator
import Sart.Lib.Run

/-!
# The allocator as a finite set

Seen from outside, an allocator is a finite set of addresses, built from the calls that go
through.  Its count is the size of the set exactly as long as every such call changes it.
-/

namespace Sart

open Sart.Lib

inductive AllocatorCall where
  | allocate (addr : IpAddr) (force : Bool)
  | allocateNext
  | release (addr : IpAddr)
  deriving DecidableEq

namespace BitSet

variable {size : ℕ}

def count (bits : BitSet size) : ℕ := ((Finset.range size).filter fun index => bits.has index).card

theorem count_write {bits : BitSet size} {index : ℕ} (inside : index < size) (value : Bool) :
    (bits.write index value).count =
      if bits.has index = value then bits.count
      else if value then bits.count + 1 else bits.count - 1 := by
  unfold count
  simp only [has_write (.inl inside)]
  split_ifs with same set
  · congr 1
    refine Finset.filter_congr fun other _ => ?_
    split_ifs with here <;> simp [here, same]
  · subst set
    have added : ((Finset.range size).filter fun other =>
        (if other = index then true else bits.has other) = true) =
        insert index ((Finset.range size).filter fun other => bits.has other = true) := by
      ext other
      by_cases here : other = index <;> simp [here, inside]
    rw [added, Finset.card_insert_of_notMem (by simp [same])]
  · have clear : value = false := by simpa using set
    subst clear
    have removed : ((Finset.range size).filter fun other =>
        (if other = index then false else bits.has other) = true) =
        ((Finset.range size).filter fun other => bits.has other = true).erase index := by
      ext other
      by_cases here : other = index <;> simp [here]
    have member : index ∈ (Finset.range size).filter fun other => bits.has other = true := by
      simpa [inside] using same
    rw [removed, Finset.card_erase_of_mem member]

end BitSet

def AllocatorCall.marks : AllocatorCall → Bool
  | .release _ => false
  | _ => true

namespace Allocator

def call (alloc : Allocator) : AllocatorCall → Outcome IpamError (IpAddr × Allocator)
  | .allocate addr force => do
      let next ← alloc.allocate addr force
      .ok (addr, next)
  | .allocateNext => alloc.allocateNext
  | .release addr => do
      let next ← alloc.release addr
      .ok (addr, next)

def step (alloc : Allocator) (call : AllocatorCall) : Allocator :=
  match alloc.call call with
  | .ok (_, next) => next
  | _ => alloc

/-- A call beside the abstract set: an address is added or removed if the call goes through. -/
def track (state : Allocator × Finset IpAddr) (call : AllocatorCall) :
    Allocator × Finset IpAddr :=
  match state.1.call call with
  | .ok (addr, next) => (next, if call.marks then insert addr state.2 else state.2.erase addr)
  | _ => state

def LowestFree (cidr : IpNet) (addrs : Finset IpAddr) (addr : IpAddr) : Prop :=
  cidr.contains addr = true ∧ addr ∉ addrs ∧
    ∀ other, cidr.contains other = true → other ∉ addrs → addr.value ≤ other.value

structure Implements (alloc : Allocator) (cidr : IpNet) (addrs : Finset IpAddr) : Prop where
  isAllocated : ∀ addr, alloc.isAllocated addr = .ok (decide (addr ∈ addrs))
  next : alloc.allocateNext = .error .full ∨
    ∃ addr next, alloc.allocateNext = .ok (addr, next) ∧ LowestFree cidr addrs addr
  full : alloc.allocateNext = .error .full ↔ ∀ addr, cidr.contains addr = true → addr ∈ addrs
  refused : ∀ addr, (∃ cause, alloc.allocate addr false = .error cause) ↔
    cidr.contains addr = false ∨ addr ∈ addrs
  allocated : ∀ addr, (∃ next, alloc.allocate addr false = .ok next) ↔
    cidr.contains addr = true ∧ addr ∉ addrs
  isFull : alloc.isFull = true ↔ ∀ addr, cidr.contains addr = true → addr ∈ addrs

variable {alloc next : Allocator} {addr : IpAddr} {cidr : IpNet} {addrs : Finset IpAddr}

theorem allocateNext_lowest (returned : alloc.allocateNext = .ok (addr, next))
    (other : IpAddr) (inside : alloc.cidr.contains other = true)
    (free : alloc.holds other = false) :
    addr.value ≤ other.value := by
  rcases alloc.bits.setNext_cases with ⟨index, minimum, range, -, taken⟩ | ⟨-, full, -⟩
  · rw [allocateNext, taken, Outcome.ok.injEq, Prod.mk.injEq] at returned
    rw [← returned.1, value_indexToAddr range]
    by_contra below
    have within := inside
    simp only [IpNet.contains, decide_eq_true_eq] at within
    have marked := (BitSet.getMinUnsetIndex_eq_ok minimum).2.2 (other.value - alloc.cidr.network)
      (by omega)
    simp [holds, inside, marked] at free
  · simp [allocateNext, full] at returned

def Changes (alloc : Allocator) : AllocatorCall → Prop
  | .allocate addr force =>
    force = true → alloc.cidr.contains addr = true → alloc.holds addr = false
  | .allocateNext => True
  | .release addr =>
    alloc.allocated ≠ 0 → alloc.cidr.contains addr = true → alloc.holds addr = true

theorem call_cases (alloc : Allocator) (call : AllocatorCall) :
    (∃ addr, alloc.cidr.contains addr = true ∧
      alloc.call call = .ok (addr, alloc.mark addr call.marks
      (if call.marks then alloc.allocated + 1 else alloc.allocated - 1)) ∧
      (call.marks = false → alloc.allocated ≠ 0) ∧
      (alloc.Changes call ↔ alloc.holds addr = !call.marks)) ∨
    (∃ cause, alloc.call call = .error cause) ∧ alloc.Changes call := by
  cases call with
  | allocate addr force =>
    by_cases inside : alloc.cidr.contains addr = true
    · rw [Allocator.call, allocate_eq inside]
      by_cases refused : force = false ∧ alloc.holds addr = true
      · rw [if_pos refused]
        exact .inr ⟨⟨_, rfl⟩, by simp [Changes, refused.1]⟩
      rw [if_neg refused]
      refine .inl ⟨addr, inside, rfl, nofun, ?_⟩
      cases force <;> simp_all [Changes, AllocatorCall.marks]
    rcases allocate_outside force inside with ⟨cause, refused⟩
    refine .inr ⟨⟨cause, ?_⟩, fun _ within => absurd within inside⟩
    rw [Allocator.call, refused, Outcome.error_bind]
  | allocateNext =>
    rcases alloc.allocateNext_cases with ⟨addr, inside, free, -, next⟩ | ⟨-, full, -⟩
    · exact .inl ⟨addr, inside, next, nofun, by simp [Changes, AllocatorCall.marks, free]⟩
    · exact .inr ⟨⟨_, full⟩, trivial⟩
  | release addr =>
    by_cases inside : alloc.cidr.contains addr = true
    · rw [Allocator.call, release_eq inside]
      by_cases none : alloc.allocated = 0
      · rw [if_pos none]
        exact .inr ⟨⟨_, rfl⟩, fun some => absurd none some⟩
      rw [if_neg none]
      refine .inl ⟨addr, inside, rfl, fun _ => none, ?_⟩
      simp [Changes, AllocatorCall.marks, none, inside]
    rcases release_outside inside with ⟨cause, refused⟩
    refine .inr ⟨⟨cause, ?_⟩, fun _ within => absurd within inside⟩
    rw [Allocator.call, refused, Outcome.error_bind]

structure Represents (cidr : IpNet) (state : Allocator × Finset IpAddr) : Prop where
  cidr : state.1.cidr = cidr
  holds : ∀ addr, state.1.holds addr = decide (addr ∈ state.2)

theorem Represents.track {state : Allocator × Finset IpAddr} (represents : Represents cidr state)
    (call : AllocatorCall) : Represents cidr (Allocator.track state call) := by
  unfold Allocator.track
  rcases state.1.call_cases call with ⟨addr, inside, returned, -⟩ | ⟨⟨cause, returned⟩, -⟩
  · rw [returned]
    refine ⟨represents.cidr, fun other => ?_⟩
    rw [holds_mark inside, represents.holds]
    by_cases same : other = addr <;> cases call.marks <;> simp [same]
  · rw [returned]
    exact represents

theorem Represents.implements (represents : Represents cidr (alloc, addrs)) :
    alloc.Implements cidr addrs := by
  rcases represents with ⟨rfl, holds⟩
  have all : (∀ addr, alloc.cidr.contains addr = true → addr ∈ addrs) ↔
      ∀ addr, alloc.cidr.contains addr = true → alloc.holds addr = true := by
    simp only [holds, decide_eq_true_iff]
  have unforced : ∀ addr, alloc.cidr.contains addr = true → alloc.allocate addr false =
      if addr ∈ addrs then .error (.bitSet .alreadySet)
      else .ok (alloc.mark addr true (alloc.allocated + 1)) := by
    intro addr inside
    simp [allocate_eq inside, holds]
  refine ⟨fun addr => ?_, ?_, ?_, fun addr => ?_, fun addr => ?_, ?_⟩
  · rw [isAllocated_eq, holds]
  · rcases alloc.allocateNext_cases with ⟨addr, inside, free, -, next⟩ | ⟨-, full, -⟩
    · refine .inr ⟨addr, _, next, inside, ?_, fun other within outside => ?_⟩
      · simpa [holds] using free
      · exact allocateNext_lowest next other within (by simpa [holds] using outside)
    · exact .inl full
  · rw [all]
    rcases alloc.allocateNext_cases with ⟨addr, inside, free, -, next⟩ | ⟨-, full, marked⟩
    · simp only [next, reduceCtorEq, false_iff]
      exact fun marked => by simp [marked addr inside] at free
    · exact ⟨fun _ => marked, fun _ => full⟩
  · by_cases inside : alloc.cidr.contains addr = true
    · rw [unforced addr inside]
      split_ifs with member <;> simp [inside, member]
    · simp [allocate_outside false inside, inside]
  · by_cases inside : alloc.cidr.contains addr = true
    · rw [unforced addr inside]
      split_ifs with member <;> simp [inside, member]
    · rcases allocate_outside false inside with ⟨cause, refused⟩
      simp [refused, inside]
  · rw [all]
    rcases alloc.allocateNext_cases with ⟨addr, inside, free, vacant, -⟩ | ⟨full, -, marked⟩
    · simp only [vacant, Bool.false_eq_true, false_iff]
      exact fun marked => by simp [marked addr inside] at free
    · exact ⟨fun _ => marked, fun _ => full⟩

theorem run_implements (cidr : IpNet) (calls : List AllocatorCall) :
    (calls.foldl track (newBit cidr, ∅)).1.Implements cidr
    (calls.foldl track (newBit cidr, ∅)).2 := by
  have initial : Represents cidr (newBit cidr, ∅) :=
    ⟨rfl, fun addr => by simp [holds, newBit, BitSet.has_new]⟩
  refine Represents.implements ?_
  induction calls using List.reverseRecOn with
  | nil => exact initial
  | append_singleton calls call ih =>
    rw [List.foldl_append]
    exact ih.track call

def marked (alloc : Allocator) : ℕ := alloc.bits.count

theorem marked_mark (inside : alloc.cidr.contains addr = true) (value : Bool) (allocated : ℕ) :
    (alloc.mark addr value allocated).marked =
      if alloc.holds addr = value then alloc.marked
      else if value then alloc.marked + 1 else alloc.marked - 1 := by
  have place : alloc.holds addr = alloc.bits.has (addr.value - alloc.cidr.network) := by
    rw [holds, inside, Bool.true_and]
  rw [place]
  exact BitSet.count_write (addrToIndex_eq_ok inside).2 value

/-- The count is the number of marked addresses, so that none of them is refused by a release. -/
structure Exact (alloc : Allocator) : Prop where
  count : alloc.allocated = alloc.marked
  release : ∀ addr, alloc.holds addr = true → alloc.release addr ≠ .error .noReleasableAddress

theorem marked_pos (held : alloc.holds addr = true) : 0 < alloc.marked := by
  rw [holds, Bool.and_eq_true] at held
  unfold marked BitSet.count
  refine Finset.card_pos.mpr ⟨addr.value - alloc.cidr.network, ?_⟩
  simpa [(addrToIndex_eq_ok held.1).2] using held.2

theorem Exact.of_count (count : alloc.allocated = alloc.marked) : alloc.Exact where
  count := count
  release addr held := by
    have positive := marked_pos held
    rw [release_eq (contains_of_holds held), if_neg (by omega)]
    simp

theorem Exact.step_mark (exact : alloc.Exact) (inside : alloc.cidr.contains addr = true)
    (value : Bool) (positive : value = false → alloc.allocated ≠ 0) :
    (alloc.mark addr value (if value then alloc.allocated + 1 else alloc.allocated - 1)).Exact ↔
      alloc.holds addr = !value := by
  have count := exact.count
  have marked := marked_mark inside value
    (if value then alloc.allocated + 1 else alloc.allocated - 1)
  constructor
  · intro next
    have exactly := next.count
    cases value <;> cases held : alloc.holds addr <;> simp_all
    omega
  · intro changed
    refine .of_count ?_
    have differs : alloc.holds addr ≠ value := by simp [changed]
    rw [marked, allocated_mark, if_neg differs, count]

theorem Exact.step (exact : alloc.Exact) (call : AllocatorCall) :
    (alloc.step call).Exact ↔ alloc.Changes call := by
  unfold Allocator.step
  rcases alloc.call_cases call with ⟨addr, inside, returned, positive, changes⟩ |
    ⟨⟨cause, returned⟩, changes⟩
  · rw [returned, changes]
    exact exact.step_mark inside call.marks positive
  · rw [returned]
    exact iff_of_true exact changes

theorem run_exact_iff (cidr : IpNet) (calls : List AllocatorCall) :
    (∀ n, ((calls.take n).foldl step (newBit cidr)).Exact) ↔
      AllSteps step Changes (newBit cidr) calls := by
  refine forall_take_iff_allSteps Exact Exact (fun _ exact => exact) ?_ ?_ ?_
  · exact fun alloc call exact changes => (exact.step call).mpr changes
  · exact fun alloc call exact next => (exact.step call).mp next
  · refine .of_count ?_
    simp [newBit, marked, BitSet.count, BitSet.has_new]

/-- An address allocated by force a second time is counted twice. -/
theorem run_not_exact :
    ¬∀ n, (([.allocate (.v4 0x0A000001#32) false, .allocate (.v4 0x0A000001#32) true].take n).foldl
      step (newBit (.v4 ⟨0x0A000000#32, 30, by decide⟩))).Exact := by
  intro exact
  exact absurd (exact 2).count (by decide)

end Allocator

end Sart
