import Sart.Ipam.Pool
import Sart.Lib.Run
import Sart.Lib.Table

/-!
# The books of a pool

A pool marks the blocks that are given away in a bit set and remembers them by name.
Both have to be changed together, also for an index that comes from an object of the API.
-/

namespace Sart

open Sart.Lib

namespace BitSet

variable {size index : ℕ}

structure Refuses (bits : BitSet size) (index : ℕ) : Prop where
  set : ∀ value, ∃ cause, bits.set index value = .error cause
  setTrue : ∃ cause, bits.setTrue index = .error cause
  isSet : bits.isSet index = .ok false

theorem refuses_iff (bits : BitSet size) (outside : size ≤ index) :
    bits.Refuses index ↔ index ≠ size := by
  constructor
  · rintro refuses rfl
    rcases refuses.set true with ⟨cause, failed⟩
    rw [set, if_neg (lt_irrefl _)] at failed
    split_ifs at failed
  · intro different
    have above : index > size := by omega
    refine ⟨fun value => ⟨_, if_pos above⟩, ⟨.invalidIndex, ?_⟩, if_pos above⟩
    rw [setTrue, isSet, if_pos above, Outcome.ok_bind, set, if_pos above]
    rfl

end BitSet

inductive PoolCall where
  | allocate (name : String)
  | allocateWith (index : ℕ) (name : String)
  | release (index : ℕ)
  deriving DecidableEq

namespace Pool

def call (pool : Pool) : PoolCall → Outcome IpamError Unit × Pool
  | .allocate name =>
    match allocate name pool with
    | (.ok _, next) => (.ok ⟨⟩, next)
    | (.error error, next) => (.error error, next)
    | (.panic, next) => (.panic, next)
  | .allocateWith index name => keep (pool.allocateWith index name)
  | .release index => keep (pool.release index)
where
  /-- A call that fails leaves the pool as it was. -/
  keep : Outcome IpamError Pool → Outcome IpamError Unit × Pool
    | .ok next => (.ok ⟨⟩, next)
    | .error error => (.error error, pool)
    | .panic => (.panic, pool)

def step (pool : Pool) (call : PoolCall) : Pool := (pool.call call).2

def Within (pool : Pool) : Prop := ∀ index, pool.size ≤ index → pool.uses index = false

def InBounds (pool : Pool) : PoolCall → Prop
  | .allocate _ => pool.counter + 1 < 2 ^ 32
  | .allocateWith index _ => index ≠ pool.size
  | .release index => index ≠ pool.size

instance (pool : Pool) (call : PoolCall) : Decidable (pool.InBounds call) := by
  cases call <;> dsimp only [InBounds] <;> infer_instance

variable {pool : Pool} {index : ℕ} {name : String}

theorem allocate_cases (pool : Pool) (name : String) :
    ((∃ index counter, pool.allocator.getMinUnsetIndex = .ok index ∧ index < pool.size ∧
        pool.uses index = false ∧
        pool.step (.allocate name) = { pool.entered index name with counter := counter }) ∨
      pool.step (.allocate name) = pool) ∧
    (pool.counter + 1 < 2 ^ 32 → (pool.call (.allocate name)).1 ≠ .panic) := by
  rcases pool.allocator.setNext_cases with ⟨index, least, inside, unset, taken⟩ | ⟨-, full, -⟩
  · have ran : allocate name pool = if pool.counter + 1 < 2 ^ 32 then
        (.ok index, { pool.entered index name with counter := pool.counter + 1 })
        else (.panic, pool.entered index name) := by
      rw [allocate, taken]
      rfl
    by_cases room : pool.counter + 1 < 2 ^ 32
    · rw [if_pos room] at ran
      exact ⟨.inl ⟨index, _, least, inside, unset, by rw [step, call, ran]⟩, by simp [call, ran]⟩
    rw [if_neg room] at ran
    refine ⟨.inl ⟨index, pool.counter, least, inside, unset, ?_⟩, fun small => absurd small room⟩
    rw [step, call, ran]
    rfl
  · have ran : allocate name pool = (.error (.bitSet .full), pool) := by rw [allocate, full]
    exact ⟨.inr (by rw [step, call, ran]), by simp [call, ran]⟩

theorem Within.step (within : pool.Within) {call : PoolCall} (inBounds : pool.InBounds call) :
    (pool.step call).Within ∧ (pool.call call).1 ≠ .panic := by
  have reached : ∀ {index}, index ≠ pool.size → BitSet.Reaches pool.size index →
      index < pool.size := fun different reaches => reaches.resolve_right fun last =>
        different last.1
  cases call with
  | allocate name =>
    rcases pool.allocate_cases name with ⟨⟨index, counter, -, inside, -, next⟩ | next, calm⟩ <;>
      refine ⟨?_, calm inBounds⟩ <;> rw [next]
    · intro other outside
      refine (uses_entered (.inl inside) name other).trans ?_
      rw [if_neg (inside.trans_le outside).ne', within other outside]
    · exact within
  | allocateWith index name =>
    rcases pool.allocateWith_cases index name with ⟨reaches, next⟩ | ⟨-, next⟩ <;>
      rw [Pool.step, call, next]
    · refine ⟨fun other outside => ?_, by simp [call.keep]⟩
      refine (uses_entered reaches name other).trans ?_
      rw [if_neg ((reached inBounds reaches).trans_le outside).ne', within other outside]
    · rw [if_neg inBounds]
      exact ⟨within, by simp [call.keep]⟩
  | release index =>
    rcases pool.release_cases index with ⟨reaches, next⟩ | ⟨-, next⟩ <;> rw [Pool.step, call, next]
    · refine ⟨fun other outside => ?_, by simp [call.keep]⟩
      refine (uses_cleared reaches other).trans ?_
      rw [within other outside, ite_self]
    · rw [if_neg inBounds]
      exact ⟨within, by simp [call.keep]⟩

/-- An index that the set does not have is refused, unless it is the size.  So as long as no call is
for the index after the last, no call of a run sets a bit outside or panics. -/
theorem bounds_checked (pool : Pool) (calls : List PoolCall) :
    (∀ {size : ℕ} (bits : BitSet size) (index : ℕ), size ≤ index →
      (bits.Refuses index ↔ index ≠ size)) ∧
    (pool.Within → AllSteps step InBounds pool calls → (calls.foldl step pool).Within ∧
      AllSteps step (fun pool call => (pool.call call).1 ≠ .panic) pool calls) := by
  refine ⟨fun bits index outside => bits.refuses_iff outside, fun within steps => ?_⟩
  refine ⟨foldl_invariant Within (fun _ _ kept meets => (kept.step meets).1) within steps, ?_⟩
  induction calls generalizing pool with
  | nil => trivial
  | cons call calls ih =>
    exact ⟨(within.step steps.1).2, ih _ (within.step steps.1).1 steps.2⟩

def sampleBooks : Pool := ⟨.v4 (.ofLength 0x0A000000#32 24), 26, .new _, ∅, 0⟩

theorem bounds_checked_sampleBooks : (BitSet.new 64).Refuses 65 ∧
    ([.allocate "pod-0", .allocateWith 1 "pod-1", .release 5].foldl step sampleBooks).Within := by
  rcases bounds_checked sampleBooks _ with ⟨refuses, keeps⟩
  refine ⟨(refuses _ 65 (by decide)).mpr (by decide), (keeps ?_ ?_).1⟩
  · simp [Within, uses, sampleBooks, BitSet.has_new]
  · exact ⟨by decide, by decide, by decide, trivial⟩

/-- The index after the last is no index of the set, but it is taken as one; and there is no word
for it if the words are full. -/
theorem not_bounds_checked :
    ¬(BitSet.new 256).Refuses 256 ∧ (BitSet.new 256).set 256 true = .panic ∧
      ¬(BitSet.new 64).Refuses 64 ∧ (BitSet.new 64).set 64 true =
        .ok ((BitSet.new 64).write 64 true) :=
  ⟨fun refuses => ((BitSet.new 256).refuses_iff le_rfl).mp refuses rfl, by decide,
    fun refuses => ((BitSet.new 64).refuses_iff le_rfl).mp refuses rfl, by decide⟩

/-- A bit is set exactly if one name stands for it, different names stand for different bits, and
the release of a block takes its name and no other one. -/
structure Matched (pool : Pool) : Prop where
  bit : ∀ index, pool.uses index = true ↔ ∃! name, pool.blocks.lookup name = some index
  distinct : ∀ name other index, pool.blocks.lookup name = some index →
    pool.blocks.lookup other = some index → name = other
  release : ∀ name index, pool.blocks.lookup name = some index → ∃ next,
    pool.release index = .ok next ∧ ∀ other, next.blocks.lookup other =
      if other = name then none else pool.blocks.lookup other

def NewName (pool : Pool) : PoolCall → Prop
  | .allocate name => pool.blocks.lookup name = none
  | .allocateWith _ name => pool.blocks.lookup name = none
  | .release _ => True

/-- A block that is marked is free, and its index has 32 bits.  A block that is released is in use,
unless the release is refused or no name is empty. -/
def Paired (pool : Pool) : PoolCall → Prop
  | .allocate _ => ∀ index, pool.allocator.getMinUnsetIndex = .ok index → index < 2 ^ 32
  | .allocateWith index _ =>
    BitSet.Reaches pool.size index → index < 2 ^ 32 ∧ pool.uses index = false
  | .release index =>
    BitSet.Reaches pool.size index → pool.uses index = true ∨ pool.blocks.lookup "" = none

structure Booked (pool : Pool) : Prop where
  used : ∀ index, pool.uses index = true ↔ ∃ name, pool.blocks.lookup name = some index
  distinct : ∀ name other index, pool.blocks.lookup name = some index →
    pool.blocks.lookup other = some index → name = other
  reaches : ∀ name index, pool.blocks.lookup name = some index → BitSet.Reaches pool.size index

theorem nameOf_eq_some (named : pool.nameOf index = some name) :
    pool.blocks.lookup name = some index := by
  have member := List.mem_of_mem_head? named
  simp only [List.mem_insertionSort, List.mem_map, List.mem_filter, decide_eq_true_eq] at member
  rcases member with ⟨⟨key, value⟩, ⟨stored, rfl⟩, rfl⟩
  exact AList.mem_lookup_iff.mpr stored

theorem nameOf_ne_none (found : pool.blocks.lookup name = some index) :
    pool.nameOf index ≠ none := by
  intro none
  rw [nameOf, List.head?_eq_none_iff] at none
  have member : name ∈ ((pool.blocks.entries.filter fun entry => entry.2 = index).map
      Sigma.fst).insertionSort (· ≤ ·) := by
    rw [List.mem_insertionSort, List.mem_map]
    exact ⟨⟨name, index⟩, List.mem_filter.mpr ⟨AList.mem_lookup_iff.mp found, by simp⟩, rfl⟩
  simp [none] at member

section

variable (booked : pool.Booked)

include booked

theorem Booked.nameOf (found : pool.blocks.lookup name = some index) :
    pool.nameOf index = some name := by
  cases named : pool.nameOf index with
  | none => exact absurd named (nameOf_ne_none found)
  | some other => rw [booked.distinct name other index found (nameOf_eq_some named)]

theorem Booked.matched : pool.Matched where
  bit index := by
    rw [booked.used]
    refine ⟨fun ⟨name, found⟩ => ⟨name, found, fun other same => ?_⟩, fun ⟨name, found, _⟩ =>
      ⟨name, found⟩⟩
    exact booked.distinct other name index same found
  distinct := booked.distinct
  release name index found := by
    rcases pool.release_cases index with ⟨-, released⟩ | ⟨outside, -⟩
    · refine ⟨_, released, fun other => ?_⟩
      rw [cleared, booked.nameOf found, Option.getD_some, Table.lookup_erase]
    · exact absurd (booked.reaches name index found) outside

theorem Booked.enter (reaches : BitSet.Reaches pool.size index) (small : index < 2 ^ 32)
    (fresh : pool.blocks.lookup name = none) (free : pool.uses index = false) (counter : ℕ) :
    ({ pool.entered index name with counter := counter } : Pool).Booked := by
  have uses : ∀ other, ({ pool.entered index name with counter := counter } : Pool).uses other =
      if other = index then true else pool.uses other := uses_entered reaches name
  have lookup : ∀ other, (pool.entered index name).blocks.lookup other =
      if other = name then some index else pool.blocks.lookup other := by
    intro other
    rw [entered, Nat.mod_eq_of_lt small]
    exact Table.lookup_insert pool.blocks name index other
  have used := booked.used
  have distinct := booked.distinct
  refine ⟨fun other => ?_, fun first second other => ?_, fun other place => ?_⟩
  · rw [uses]
    grind
  · simp only [lookup]
    grind
  · simp only [lookup]
    intro found
    split_ifs at found
    · exact Option.some.inj found ▸ reaches
    · exact booked.reaches other place found

theorem Booked.clear (reaches : BitSet.Reaches pool.size index)
    (paired : pool.uses index = true ∨ pool.blocks.lookup "" = none) :
    (pool.cleared index).Booked := by
  have uses := uses_cleared reaches
  have used := booked.used
  have distinct := booked.distinct
  -- the names that go are those of the index
  have lookup : ∀ other, (pool.cleared index).blocks.lookup other =
      if pool.blocks.lookup other = some index then none else pool.blocks.lookup other := by
    intro other
    rw [cleared, Table.lookup_erase]
    cases named : pool.nameOf index with
    | none =>
      have unnamed : ∀ other, pool.blocks.lookup other ≠ some index :=
        fun other found => nameOf_ne_none found named
      grind
    | some name =>
      have found := nameOf_eq_some named
      grind
  refine ⟨fun other => ?_, fun first second other => ?_, fun other place => ?_⟩
  · rw [uses]
    grind
  · simp only [lookup]
    grind
  · simp only [lookup]
    intro found
    split_ifs at found
    exact booked.reaches other place found

theorem Booked.step {call : PoolCall} (fresh : pool.NewName call)
    (paired : pool.Paired call) : (pool.step call).Booked := by
  cases call with
  | allocate name =>
    rcases (pool.allocate_cases name).1 with
      ⟨index, counter, least, inside, free, next⟩ | next <;> rw [next]
    · exact booked.enter (.inl inside) (paired index least) fresh free counter
    · exact booked
  | allocateWith index name =>
    rcases pool.allocateWith_cases index name with ⟨reaches, next⟩ | ⟨-, next⟩ <;>
      rw [Pool.step, call, next]
    · exact booked.enter reaches (paired reaches).1 fresh (paired reaches).2 pool.counter
    · split_ifs <;> exact booked
  | release index =>
    rcases pool.release_cases index with ⟨reaches, next⟩ | ⟨-, next⟩ <;> rw [Pool.step, call, next]
    · exact booked.clear reaches (paired reaches)
    · split_ifs <;> exact booked

end

/-- In every run of a new pool that enters no name twice, the names and the bits match as long as
no call marks a block that is in use or whose index has more than 32 bits, or releases a block that
is free while there is a block with the empty name. -/
theorem run_matched {cidr : IpNet} {blockSize : ℕ}
    (made : (new cidr blockSize : Outcome IpamError Pool) = .ok pool) (calls : List PoolCall)
    (fresh : AllSteps step NewName pool calls) (paired : AllSteps step Paired pool calls) :
    (calls.foldl step pool).Matched := by
  refine Booked.matched (foldl_invariant Booked ?_ ?_ (fresh.and paired))
  · exact fun pool call booked meets => booked.step meets.1 meets.2
  unfold new at made
  split_ifs at made
  rw [Outcome.ok.injEq] at made
  subst made
  exact ⟨by simp [uses, BitSet.has_new], by simp, by simp⟩

theorem run_matched_of_restored :
    ([.allocateWith 1 "pod-1", .allocate "pod-0", .release 1].foldl step sampleBooks).Matched := by
  have made : (new (.v4 ⟨0x0A000000#32, 24, by decide⟩) 26 : Outcome IpamError Pool) =
    .ok sampleBooks := rfl
  refine run_matched made _ ?_ ?_
  · exact ⟨rfl, rfl, trivial, trivial⟩
  · refine ⟨fun _ => ⟨by decide, rfl⟩, fun index least => ?_, fun _ => .inl (by decide), trivial⟩
    exact (free_of_minimum least).1.trans (by decide)

/-- A block that is in use is marked again under a second name. -/
theorem run_not_matched :
    AllSteps step NewName sampleBooks [.allocate "pod-0", .allocateWith 0 "pod-1"] ∧
    ¬([.allocate "pod-0", .allocateWith 0 "pod-1"].foldl step sampleBooks).Matched := by
  refine ⟨⟨rfl, rfl, trivial⟩, fun matched => ?_⟩
  exact absurd (matched.distinct "pod-0" "pod-1" 0 (by decide) (by decide)) (by decide)

end Pool

end Sart
