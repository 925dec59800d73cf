import Sart.Basic
import Sart.Ipam.BitSet

/-!
# Allocators of addresses

An allocator marks the addresses of one network in a bit set and counts allocations.  The
count is not the number of marked addresses: a forced allocation may mark an address again,
and a release does not look whether its address is marked.
-/

namespace Sart

open Sart.Lib

namespace IpAddr

def value : IpAddr → ℕ
  | .v4 addr => addr.toNat
  | .v6 addr => addr.toNat

def ofValue : Afi → ℕ → IpAddr
  | .ipv4, value => .v4 (BitVec.ofNat 32 value)
  | .ipv6, value => .v6 (BitVec.ofNat 128 value)

@[simp]
theorem afi_ofValue (afi : Afi) (value : ℕ) : (ofValue afi value).afi = afi := by
  cases afi <;> rfl

theorem value_ofValue {afi : Afi} {value : ℕ} (fits : value < 2 ^ afi.width) :
    (ofValue afi value).value = value := by
  cases afi <;> exact Nat.mod_eq_of_lt fits

@[simp]
theorem ofValue_value (addr : IpAddr) : ofValue addr.afi addr.value = addr := by
  cases addr <;> simp [ofValue, afi, value]

theorem value_lt (addr : IpAddr) : addr.value < 2 ^ addr.afi.width := by
  cases addr with
  | v4 addr | v6 addr => exact addr.isLt

theorem ext_value {left right : IpAddr} (sameAfi : left.afi = right.afi)
    (sameValue : left.value = right.value) : left = right := by
  rw [← ofValue_value left, ← ofValue_value right, sameAfi, sameValue]

end IpAddr

namespace IpNet

def addr : IpNet → IpAddr
  | .v4 net => .v4 net.addr
  | .v6 net => .v6 net.addr

@[simp]
theorem afi_addr (net : IpNet) : net.addr.afi = net.afi := by
  cases net <;> rfl

def hostBits (net : IpNet) : ℕ := net.afi.width - net.prefixLen

def network (net : IpNet) : ℕ := net.addr.value / 2 ^ net.hostBits * 2 ^ net.hostBits

def contains (net : IpNet) (addr : IpAddr) : Bool :=
  net.afi = addr.afi ∧ net.network ≤ addr.value ∧ addr.value < net.network + 2 ^ net.hostBits

theorem prefixLen_le (net : IpNet) : net.prefixLen ≤ net.afi.width := by
  cases net with
  | v4 net | v6 net => exact net.prefixLen_le

theorem network_add_le (net : IpNet) : net.network + 2 ^ net.hostBits ≤ 2 ^ net.afi.width := by
  have inside : net.addr.value < 2 ^ net.afi.width := by
    have small := net.addr.value_lt
    rwa [afi_addr] at small
  have split : 2 ^ net.afi.width = 2 ^ net.prefixLen * 2 ^ net.hostBits := by
    rw [← pow_add, hostBits, Nat.add_sub_cancel' net.prefixLen_le]
  have block : net.addr.value / 2 ^ net.hostBits < 2 ^ net.prefixLen := by
    rw [Nat.div_lt_iff_lt_mul (Nat.two_pow_pos _), ← split]
    exact inside
  calc net.network + 2 ^ net.hostBits
      = (net.addr.value / 2 ^ net.hostBits + 1) * 2 ^ net.hostBits := by
        rw [network, Nat.add_mul, Nat.one_mul]
    _ ≤ 2 ^ net.prefixLen * 2 ^ net.hostBits := Nat.mul_le_mul_right _ block
    _ = 2 ^ net.afi.width := split.symm

end IpNet

inductive IpamError where
  | bitSet (error : BitSetError)
  | protocolMistmatch
  | notContains
  | noReleasableAddress
  | cidrTooLarge (prefixLen : ℕ)
  | full
  | blockNotFound
  | autoAssignableBlockAlreadyExists
  deriving DecidableEq

def addrToIndex (addr : IpAddr) (cidr : IpNet) : Outcome IpamError ℕ :=
  if cidr.afi ≠ addr.afi then .error .protocolMistmatch
  else if cidr.contains addr then .ok (addr.value - cidr.network)
  else .error .notContains

def indexToAddr (index : ℕ) (cidr : IpNet) : IpAddr := .ofValue cidr.afi (cidr.network + index)

variable {addr : IpAddr} {cidr : IpNet}

theorem addrToIndex_eq_ok (inside : cidr.contains addr = true) :
    addrToIndex addr cidr = .ok (addr.value - cidr.network) ∧
      addr.value - cidr.network < 2 ^ cidr.hostBits := by
  have range := inside
  simp only [IpNet.contains, decide_eq_true_eq] at range
  rw [addrToIndex, if_neg (not_not.mpr range.1), if_pos inside]
  exact ⟨rfl, by omega⟩

theorem addrToIndex_eq_error (outside : ¬cidr.contains addr = true) :
    ∃ cause, addrToIndex addr cidr = .error cause := by
  unfold addrToIndex
  split_ifs
  all_goals exact ⟨_, rfl⟩

variable {index : ℕ}

theorem value_indexToAddr (inside : index < 2 ^ cidr.hostBits) :
    (indexToAddr index cidr).value = cidr.network + index := by
  refine IpAddr.value_ofValue ?_
  have range := cidr.network_add_le
  omega

theorem contains_indexToAddr (inside : index < 2 ^ cidr.hostBits) :
    cidr.contains (indexToAddr index cidr) = true := by
  rw [IpNet.contains, value_indexToAddr inside]
  simp [indexToAddr, inside]

structure Allocator where
  cidr : IpNet
  bits : BitSet (2 ^ cidr.hostBits)
  allocated : ℕ

namespace Allocator

def MAX_SIZE : ℕ := 32

/-- `BitAllocator::new`. -/
def newBit (cidr : IpNet) : Allocator := ⟨cidr, .new _, 0⟩

def new (cidr : IpNet) : Outcome IpamError Allocator :=
  if cidr.afi = .ipv6 ∧ 128 - cidr.prefixLen > MAX_SIZE then .error (.cidrTooLarge cidr.prefixLen)
  else .ok (newBit cidr)

def liftBits {α : Type} : Outcome BitSetError α → Outcome IpamError α
  | .ok value => .ok value
  | .error error => .error (.bitSet error)
  | .panic => .panic

def allocate (alloc : Allocator) (addr : IpAddr) (force : Bool) : Outcome IpamError Allocator := do
  let index ← addrToIndex addr alloc.cidr
  let bits ← liftBits (if force then alloc.bits.set index true else alloc.bits.setTrue index)
  .ok { alloc with bits := bits, allocated := alloc.allocated + 1 }

def allocateNext (alloc : Allocator) : Outcome IpamError (IpAddr × Allocator) :=
  match alloc.bits.setNext with
  | .ok (index, bits) =>
    .ok (indexToAddr index alloc.cidr,
      { alloc with bits := bits, allocated := alloc.allocated + 1 })
  | .error .full => .error .full
  | .error error => .error (.bitSet error)
  | .panic => .panic

def isAllocated (alloc : Allocator) (addr : IpAddr) : Outcome IpamError Bool :=
  match addrToIndex addr alloc.cidr with
  | .ok index => liftBits (alloc.bits.isSet index)
  | .error _ => .ok false
  | .panic => .panic

def isEmpty (wraps : Bool) (alloc : Allocator) : Outcome IpamError Bool :=
  liftBits (alloc.bits.isEmpty wraps)

def isFull (alloc : Allocator) : Bool := alloc.bits.isFull

def release (alloc : Allocator) (addr : IpAddr) : Outcome IpamError Allocator :=
  if alloc.allocated = 0 then .error .noReleasableAddress
  else do
    let index ← addrToIndex addr alloc.cidr
    let bits ← liftBits (alloc.bits.set index false)
    .ok { alloc with bits := bits, allocated := alloc.allocated - 1 }

def holds (alloc : Allocator) (addr : IpAddr) : Bool :=
  alloc.cidr.contains addr && alloc.bits.has (addr.value - alloc.cidr.network)

def mark (alloc : Allocator) (addr : IpAddr) (value : Bool) (allocated : ℕ) : Allocator :=
  { alloc with
    bits := alloc.bits.write (addr.value - alloc.cidr.network) value, allocated := allocated }

@[simp]
theorem cidr_mark (alloc : Allocator) (addr : IpAddr) (value : Bool) (allocated : ℕ) :
    (alloc.mark addr value allocated).cidr = alloc.cidr := rfl

@[simp]
theorem allocated_mark (alloc : Allocator) (addr : IpAddr) (value : Bool) (allocated : ℕ) :
    (alloc.mark addr value allocated).allocated = allocated := rfl

variable {alloc : Allocator}

theorem contains_of_holds (held : alloc.holds addr = true) : alloc.cidr.contains addr = true := by
  rw [holds, Bool.and_eq_true] at held
  exact held.1

theorem holds_mark (inside : alloc.cidr.contains addr = true) (value : Bool) (allocated : ℕ)
    (other : IpAddr) :
    (alloc.mark addr value allocated).holds other = if other = addr then
      value else alloc.holds other := by
  have range := (addrToIndex_eq_ok inside).2
  by_cases same : other = addr
  · subst same
    simp only [holds, mark, inside, BitSet.has_write (.inl range), if_true, Bool.true_and]
  rw [if_neg same]
  by_cases within : alloc.cidr.contains other = true
  · have different : other.value - alloc.cidr.network ≠ addr.value - alloc.cidr.network := by
      intro sameIndex
      simp only [IpNet.contains, decide_eq_true_eq] at inside within
      exact same (IpAddr.ext_value (within.1.symm.trans inside.1) (by omega))
    simp only [holds, mark, BitSet.has_write (.inl range), if_neg different]
  · simp [holds, within]

theorem holds_new (created : new cidr = .ok alloc) (addr : IpAddr) :
    alloc.holds addr = false ∧ alloc.cidr = cidr ∧ alloc.allocated = 0 := by
  unfold new at created
  split_ifs at created
  simp only [Outcome.ok.injEq] at created
  subst created
  simp [holds, newBit, BitSet.has_new]

@[simp]
theorem isAllocated_eq (alloc : Allocator) (addr : IpAddr) :
    alloc.isAllocated addr = .ok (alloc.holds addr) := by
  unfold isAllocated
  by_cases inside : alloc.cidr.contains addr = true
  · rcases addrToIndex_eq_ok inside with ⟨found, range⟩
    simp [found, BitSet.isSet_eq range, liftBits, holds, inside]
  · rcases addrToIndex_eq_error inside with ⟨cause, refused⟩
    simp [refused, holds, inside]

theorem allocate_eq (inside : alloc.cidr.contains addr = true) (force : Bool) :
    alloc.allocate addr force =
      if force = false ∧ alloc.holds addr = true then .error (.bitSet .alreadySet)
      else .ok (alloc.mark addr true (alloc.allocated + 1)) := by
  rcases addrToIndex_eq_ok inside with ⟨found, range⟩
  have held : alloc.holds addr = alloc.bits.has (addr.value - alloc.cidr.network) := by
    simp [holds, inside]
  rw [allocate, found, Outcome.ok_bind, held]
  cases force with
  | true => simp [BitSet.set_eq_ok range, liftBits, mark]
  | false =>
    rw [if_neg (by simp), BitSet.setTrue_eq range]
    split_ifs <;> simp_all [liftBits, mark]

theorem allocate_outside (force : Bool) (outside : ¬alloc.cidr.contains addr = true) :
    ∃ cause, alloc.allocate addr force = .error cause := by
  rcases addrToIndex_eq_error outside with ⟨cause, refused⟩
  exact ⟨cause, by rw [allocate, refused, Outcome.error_bind]⟩

theorem allocateNext_cases (alloc : Allocator) :
    (∃ addr, alloc.cidr.contains addr = true ∧ alloc.holds addr = false ∧ alloc.isFull = false ∧
      alloc.allocateNext = .ok (addr, alloc.mark addr true (alloc.allocated + 1))) ∨
    alloc.isFull = true ∧ alloc.allocateNext = .error .full ∧
      ∀ addr, alloc.cidr.contains addr = true → alloc.holds addr = true := by
  rcases alloc.bits.setNext_cases with ⟨index, minimum, range, unset, next⟩ | ⟨minimum, full, all⟩
  · have value := value_indexToAddr range
    refine .inl ⟨indexToAddr index alloc.cidr, contains_indexToAddr range, ?_, ?_, ?_⟩
    · simp [holds, value, unset]
    · simp [isFull, BitSet.isFull, minimum]
    · simp [allocateNext, next, mark, value]
  refine .inr ⟨?_, ?_, fun addr inside => ?_⟩
  · simp [isFull, BitSet.isFull, minimum]
  · simp [allocateNext, full]
  · simp [holds, inside, all _ (addrToIndex_eq_ok inside).2]

theorem release_eq (inside : alloc.cidr.contains addr = true) :
    alloc.release addr =
      if alloc.allocated = 0 then .error .noReleasableAddress
      else .ok (alloc.mark addr false (alloc.allocated - 1)) := by
  rcases addrToIndex_eq_ok inside with ⟨found, range⟩
  rw [release, found, Outcome.ok_bind, BitSet.set_eq_ok range]
  rfl

theorem release_outside (outside : ¬alloc.cidr.contains addr = true) :
    ∃ cause, alloc.release addr = .error cause := by
  rcases addrToIndex_eq_error outside with ⟨cause, refused⟩
  rw [release, refused, Outcome.error_bind]
  split_ifs
  all_goals exact ⟨_, rfl⟩

/-- Whether the allocator is empty can be told from the sum of the words. -/
def NoOverflow (alloc : Allocator) : Prop := alloc.bits.NoOverflow

instance (alloc : Allocator) : Decidable alloc.NoOverflow :=
  inferInstanceAs (Decidable alloc.bits.NoOverflow)

theorem NoOverflow.isEmpty (fits : alloc.NoOverflow) (wraps : Bool) :
    ∃ empty, alloc.isEmpty wraps = .ok empty ∧
      (empty = true → ∀ addr, alloc.holds addr = false) := by
  rcases BitSet.NoOverflow.isEmpty fits wraps with ⟨empty, returned, vacant⟩
  refine ⟨empty, ?_, fun holds addr => ?_⟩
  · rw [Allocator.isEmpty, returned]
    rfl
  · rw [Allocator.holds, vacant.mp holds, Bool.and_false]

theorem NoOverflow.release (fits : alloc.NoOverflow) (addr : IpAddr) (allocated : ℕ) :
    (alloc.mark addr false allocated).NoOverflow :=
  BitSet.NoOverflow.write_false fits _

end Allocator

end Sart
