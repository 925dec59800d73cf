import Sart.Ipam.Allocator
import Sart.Lib.Effect

/-!
# Pools of blocks

A pool is cut into blocks of one size.  The blocks that are given away are marked in
a bit set and remembered by name; the counter numbers the names and never goes back.
The index that is remembered has 32 bits, the index of the bit set more.  Taking a block
is not undone when the counter overflows behind it.
-/

namespace Sart

open Sart.Lib

structure Pool where
  cidr : IpNet
  blockSize : ℕ
  allocator : BitSet (2 ^ (blockSize - cidr.prefixLen))
  blocks : AList fun _ : String => ℕ
  counter : ℕ

namespace Pool

/-- The number of blocks is a power of two on 128 bits. -/
def new {ε : Type} (cidr : IpNet) (blockSize : ℕ) : Outcome ε Pool :=
  if blockSize < cidr.prefixLen then .panic
  else if blockSize - cidr.prefixLen ≥ 128 then .panic
  else .ok ⟨cidr, blockSize, .new _, ∅, 0⟩

def allocate (name : String) : Effect Pool IpamError ℕ := fun pool =>
  match pool.allocator.setNext with
  | .ok (index, bits) =>
    let taken := { pool with
      allocator := bits, blocks := pool.blocks.insert name (index % 2 ^ 32) }
    if pool.counter + 1 < 2 ^ 32 then (.ok index, { taken with counter := pool.counter + 1 })
    else (.panic, taken)
  | .error error => (.error (.bitSet error), pool)
  | .panic => (.panic, pool)

def allocateWith (pool : Pool) (index : ℕ) (name : String) : Outcome IpamError Pool := do
  let bits ← Allocator.liftBits (pool.allocator.set index true)
  .ok { pool with allocator := bits, blocks := pool.blocks.insert name (index % 2 ^ 32) }

def nameOf (pool : Pool) (index : ℕ) : Option String :=
  (((pool.blocks.entries.filter fun entry => entry.2 = index).map Sigma.fst).insertionSort
    (· ≤ ·)).head?

def release (pool : Pool) (index : ℕ) : Outcome IpamError Pool := do
  let bits ← Allocator.liftBits (pool.allocator.set index false)
  .ok { pool with allocator := bits, blocks := pool.blocks.erase ((pool.nameOf index).getD "") }

def uses (pool : Pool) (index : ℕ) : Bool := pool.allocator.has index

def size (pool : Pool) : ℕ := 2 ^ (pool.blockSize - pool.cidr.prefixLen)

variable {ε : Type} {cidr : IpNet} {blockSize index : ℕ} {pool next : Pool} {name : String}

theorem new_eq_ok (made : (new cidr blockSize : Outcome ε Pool) = .ok pool) :
    cidr.prefixLen ≤ blockSize ∧ pool.cidr = cidr ∧ pool.blockSize = blockSize ∧
      pool.counter = 0 ∧ ∀ index, pool.uses index = false := by
  unfold new at made
  split_ifs at made with short long
  rw [Outcome.ok.injEq] at made
  subst made
  exact ⟨Nat.le_of_not_lt short, rfl, rfl, rfl, fun index => BitSet.has_new index⟩

def entered (pool : Pool) (index : ℕ) (name : String) : Pool :=
  { pool with
    allocator := pool.allocator.write index true
    blocks := pool.blocks.insert name (index % 2 ^ 32) }

def cleared (pool : Pool) (index : ℕ) : Pool :=
  { pool with
    allocator := pool.allocator.write index false
    blocks := pool.blocks.erase ((pool.nameOf index).getD "") }

theorem allocateWith_cases (pool : Pool) (index : ℕ) (name : String) :
    BitSet.Reaches pool.size index ∧ pool.allocateWith index name = .ok (pool.entered index name) ∨
      ¬BitSet.Reaches pool.size index ∧ pool.allocateWith index name =
        if index = pool.size then .panic else .error (.bitSet .invalidIndex) := by
  unfold allocateWith
  rcases pool.allocator.set_cases index true with ⟨reaches, set⟩ | ⟨outside, set⟩ <;> rw [set]
  · exact .inl ⟨reaches, rfl⟩
  · refine .inr ⟨outside, ?_⟩
    unfold size
    split_ifs <;> rfl

theorem release_cases (pool : Pool) (index : ℕ) :
    BitSet.Reaches pool.size index ∧ pool.release index = .ok (pool.cleared index) ∨
      ¬BitSet.Reaches pool.size index ∧ pool.release index =
        if index = pool.size then .panic else .error (.bitSet .invalidIndex) := by
  unfold release
  rcases pool.allocator.set_cases index false with ⟨reaches, set⟩ | ⟨outside, set⟩ <;> rw [set]
  · exact .inl ⟨reaches, rfl⟩
  · refine .inr ⟨outside, ?_⟩
    unfold size
    split_ifs <;> rfl

theorem uses_entered (reaches : BitSet.Reaches pool.size index) (name : String) (other : ℕ) :
    (pool.entered index name).uses other = if other = index then true else pool.uses other :=
  BitSet.has_write reaches true other

theorem uses_cleared (reaches : BitSet.Reaches pool.size index) (other : ℕ) :
    (pool.cleared index).uses other = if other = index then false else pool.uses other :=
  BitSet.has_write reaches false other

theorem allocate_of_free (free : pool.allocator.getMinUnsetIndex = .ok index) (name : String) :
    ∃ next, (allocate name pool).2 = next ∧ next.cidr = pool.cidr ∧
      next.blockSize = pool.blockSize ∧
      (∀ other, next.uses other = if other = index then true else pool.uses other) ∧
      (pool.counter + 1 < 2 ^ 32 → allocate name pool = (.ok index, next) ∧
        next.counter = pool.counter + 1) ∧
      (¬pool.counter + 1 < 2 ^ 32 → allocate name pool = (.panic, next) ∧
        next.counter = pool.counter) := by
  rcases pool.allocator.setNext_cases with ⟨found, minimum, inside, -, taken⟩ | ⟨full, -⟩
  · rw [free, Outcome.ok.injEq] at minimum
    subst minimum
    refine ⟨_, rfl, ?_⟩
    unfold allocate
    rw [taken]
    split_ifs with room
    · exact ⟨rfl, rfl, BitSet.has_write (.inl inside) true, fun _ => ⟨rfl, rfl⟩, fun none =>
        absurd room none⟩
    · exact ⟨rfl, rfl, BitSet.has_write (.inl inside) true, fun room' => absurd room' room,
        fun _ => ⟨rfl, rfl⟩⟩
  · rw [free] at full
    simp at full

theorem allocate_of_full (full : ∀ index, pool.allocator.getMinUnsetIndex ≠ .ok index)
    (name : String) : allocate name pool = (.error (.bitSet .full), pool) := by
  rcases pool.allocator.setNext_cases with ⟨found, minimum, -⟩ | ⟨-, failed, -⟩
  · exact absurd minimum (full found)
  · unfold allocate
    rw [failed]

theorem free_of_minimum (free : pool.allocator.getMinUnsetIndex = .ok index) :
    index < pool.size ∧ pool.uses index = false := by
  rcases BitSet.getMinUnsetIndex_eq_ok free with ⟨inside, unset, -⟩
  exact ⟨inside, unset⟩

theorem allocateWith_of_lt (inside : index < pool.size) (name : String) :
    ∃ next, pool.allocateWith index name = .ok next ∧ next.cidr = pool.cidr ∧
      next.blockSize = pool.blockSize ∧ next.counter = pool.counter ∧
      ∀ other, next.uses other = if other = index then true else pool.uses other := by
  rcases pool.allocateWith_cases index name with ⟨reaches, next⟩ | ⟨outside, -⟩
  · exact ⟨_, next, rfl, rfl, rfl, uses_entered reaches name⟩
  · exact absurd (.inl inside) outside

theorem release_of_lt (inside : index < pool.size) :
    ∃ next, pool.release index = .ok next ∧ next.cidr = pool.cidr ∧
      next.blockSize = pool.blockSize ∧ next.counter = pool.counter ∧
      ∀ other, next.uses other = if other = index then false else pool.uses other := by
  rcases pool.release_cases index with ⟨reaches, next⟩ | ⟨outside, -⟩
  · exact ⟨_, next, rfl, rfl, rfl, uses_cleared reaches⟩
  · exact absurd (.inl inside) outside

end Pool

end Sart
