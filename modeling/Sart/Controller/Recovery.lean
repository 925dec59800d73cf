import Sart.Controller.Blocks

/-!
# Recovery of the block allocator

The pools are rebuilt from the objects of the API.  The number of a block is read off its
name, behind the last dash; objects whose names do not end in a number are passed over.
The counter of a pool is set to the greatest number of its blocks.
-/

namespace Sart

open Sart.Lib

/-- `str::parse::<u32>`, which accepts a plus sign. -/
def parseU32 (text : List Char) : Option ℕ :=
  let digits := if text.head? = some '+' then text.tail else text
  if digits ≠ [] ∧ digits.all Char.isDigit then
    let value := Nat.ofDigitChars 10 digits 0
    if value < 2 ^ 32 then some value else none
  else none

def lastComponent (name : String) : List Char :=
  (name.toList.reverse.takeWhile (· ≠ '-')).reverse

/-- The number behind the last dash of a name. -/
def blockNumber (name : String) : Option ℕ := parseU32 (lastComponent name)

theorem isDigit_of_mem_repr {count : ℕ} {char : Char} (member : char ∈ count.repr.toList) :
    char.isDigit = true := by
  rw [Nat.toList_repr] at member
  exact Nat.isDigit_of_mem_toDigits (by decide) (by decide) member

theorem lastComponent_blockName (pool : String) (count : ℕ) :
    lastComponent (blockName pool count) = count.repr.toList := by
  have digits : ∀ char ∈ count.repr.toList.reverse, decide (char ≠ '-') = true := by
    intro char member
    have digit := isDigit_of_mem_repr (List.mem_reverse.mp member)
    rw [decide_eq_true_eq]
    rintro rfl
    exact absurd digit (by decide)
  have dash : (pool ++ "-" ++ count.repr).toList.reverse =
      count.repr.toList.reverse ++ '-' :: pool.toList.reverse := by
    simp [String.toList_append]
  rw [lastComponent, blockName, dash, List.takeWhile_append_of_pos digits]
  simp

theorem blockNumber_blockName (pool : String) {count : ℕ} (small : count < 2 ^ 32) :
    blockNumber (blockName pool count) = some count := by
  have digits : ∀ char ∈ Nat.toDigits 10 count, char.isDigit = true :=
    fun char member => Nat.isDigit_of_mem_toDigits (by decide) (by decide) member
  have unsigned : (Nat.toDigits 10 count).head? ≠ some '+' := by
    intro sign
    have digit := digits '+' (List.mem_of_mem_head? sign)
    exact absurd digit (by decide)
  have value := @Nat.ofDigitChars_toDigits 10 count (by decide) (by decide)
  rw [blockNumber, lastComponent_blockName, Nat.toList_repr, parseU32]
  rw [if_neg unsigned, if_pos ⟨Nat.toDigits_ne_nil, List.all_eq_true.mpr digits⟩, value,
    if_pos small]

def AddressPool.pool (ap : AddressPool) : Outcome ControllerError Pool :=
  match ap.cidr with
  | some cidr => Pool.new cidr (ap.blockPrefixLen cidr)
  | none => .panic

/-- The pools, and the greatest number among the block names of each pool. -/
structure Recovery where
  pools : AList fun _ : String => Pool
  counters : AList fun _ : String => ℕ

namespace Recovery

def insertPool (pools : AList fun _ : String => Pool) (ap : AddressPool) :
    Outcome ControllerError (AList fun _ : String => Pool) := do
  let pool ← ap.pool
  .ok (pools.insert ap.name pool)

def count (recovery : Recovery) (pool : String) (number : ℕ) : Recovery :=
  { recovery with
    counters := recovery.counters.insert pool
      (match recovery.counters.lookup pool with
        | some greatest => if greatest < number then number else greatest
        | none => number) }

def recoverBlock (recovery : Recovery) (ab : AddressBlock) : Outcome ControllerError Recovery :=
  match blockNumber ab.name with
  | none => .ok recovery
  | some number =>
    let counted := recovery.count ab.poolRef number
    match counted.pools.lookup ab.poolRef with
    | none => .ok counted
    | some pool =>
      match ab.index with
      | none => .error .addressBlockIndexNotSet
      | some index => do
          let next ← liftIpam (pool.allocateWith index ab.name)
          .ok { counted with pools := counted.pools.insert ab.poolRef next }

def setCounter (pools : AList fun _ : String => Pool) (entry : Sigma fun _ : String => ℕ) :
    AList fun _ : String => Pool :=
  match pools.lookup entry.1 with
  | some pool => pools.insert entry.1 { pool with counter := entry.2 }
  | none => pools

end Recovery

def recoverOrCreate (poolList : List AddressPool) (blockList : List AddressBlock) :
    Outcome ControllerError (AList fun _ : String => Pool) := do
  let pools ← poolList.foldlM Recovery.insertPool ∅
  let recovery ← blockList.foldlM Recovery.recoverBlock ⟨pools, ∅⟩
  .ok (recovery.counters.entries.foldl Recovery.setCounter recovery.pools)

namespace Recovery

variable {poolList : List AddressPool} {pools : AList fun _ : String => Pool}

theorem insertPools_returns (valid : ∀ ap ∈ poolList, ∃ fresh, ap.pool = .ok fresh) :
    ∃ pools, poolList.foldlM insertPool ∅ = .ok pools := by
  have round : ∀ (_ : List AddressPool) ap (pools : AList fun _ : String => Pool), ap ∈ poolList →
      True → ∃ next, insertPool pools ap = .ok next ∧ True := by
    intro _ ap pools member _
    rcases valid ap member with ⟨fresh, made⟩
    refine ⟨pools.insert ap.name fresh, ?_, trivial⟩
    rw [insertPool, made, Outcome.ok_bind]
  rcases Outcome.foldlM_returns (fun _ _ => True) trivial round with ⟨pools, returned, -⟩
  exact ⟨pools, returned⟩

structure Inserted (done : List AddressPool) (pools : AList fun _ : String => Pool) : Prop where
  known : ∀ ap ∈ done, ∃ pool, pools.lookup ap.name = some pool
  made : ∀ name pool, pools.lookup name = some pool → ∃ ap ∈ done, ap.name = name ∧
    ap.pool = .ok pool
  valid : ∀ ap ∈ done, ∃ fresh, ap.pool = .ok fresh

theorem insertPools_inserted (returned : poolList.foldlM insertPool ∅ = .ok pools) :
    Inserted poolList pools := by
  refine Outcome.foldlM_invariant Inserted ⟨by simp, by simp, by simp⟩ ?_ returned
  intro done ap state next _ inserted ran
  rw [insertPool, Outcome.bind_eq_ok] at ran
  rcases ran with ⟨fresh, made, ran⟩
  rw [Outcome.ok.injEq] at ran
  subst ran
  refine ⟨?_, ?_, ?_⟩
  · intro other member
    rw [Table.lookup_insert]
    split_ifs with same
    · exact ⟨fresh, rfl⟩
    rcases List.mem_append.mp member with before | now
    · exact inserted.known other before
    · rw [List.mem_singleton.mp now] at same
      exact absurd rfl same
  · intro name pool found
    rw [Table.lookup_insert] at found
    split_ifs at found with same
    · rw [Option.some.injEq] at found
      subst found
      exact ⟨ap, by simp, same.symm, made⟩
    · rcases inserted.made name pool found with ⟨other, member, named, own⟩
      exact ⟨other, by simp [member], named, own⟩
  · intro other member
    rcases List.mem_append.mp member with before | now
    · exact inserted.valid other before
    · rw [List.mem_singleton.mp now]
      exact ⟨fresh, made⟩

variable {blockList done : List AddressBlock} {ab : AddressBlock} {pool : Pool}
  {start recovery next final : Recovery}

def Marks (ab : AddressBlock) (name : String) (index : ℕ) : Prop :=
  blockNumber ab.name ≠ none ∧ ab.poolRef = name ∧ ab.index = some index

/-- The bits and the numbers when some of the blocks have been looked at. -/
structure Rebuilt (start : Recovery) (done : List AddressBlock) (recovery : Recovery) : Prop where
  pools : ∀ name pool, start.pools.lookup name = some pool →
    ∃ rebuilt, recovery.pools.lookup name = some rebuilt ∧ rebuilt.size = pool.size ∧
      rebuilt.counter = pool.counter ∧
      ∀ index, rebuilt.uses index = true ↔ pool.uses index = true ∨ ∃ ab ∈ done, Marks ab name index
  attained : ∀ name number, recovery.counters.lookup name = some number →
    start.counters.lookup name = some number ∨
      ∃ ab ∈ done, ab.poolRef = name ∧ blockNumber ab.name = some number
  counted : ∀ ab ∈ done, blockNumber ab.name ≠ none → recovery.counters.lookup ab.poolRef ≠ none
  indexed : ∀ ab ∈ done, blockNumber ab.name ≠ none → ab.index ≠ none

theorem Rebuilt.refl (start : Recovery) : Rebuilt start [] start where
  pools _ pool found := ⟨pool, found, rfl, rfl, by simp⟩
  attained _ _ found := .inl found
  counted := by simp
  indexed := by simp

theorem lookup_count (recovery : Recovery) (pool : String) (number : ℕ) :
    ∃ greatest, (greatest = number ∨ recovery.counters.lookup pool = some greatest) ∧
      ∀ name, (recovery.count pool number).counters.lookup name =
        if name = pool then some greatest else recovery.counters.lookup name := by
  cases found : recovery.counters.lookup pool with
  | none =>
    refine ⟨number, .inl rfl, fun name => ?_⟩
    rw [count, Table.lookup_insert, found]
  | some greatest =>
    refine ⟨if greatest < number then number else greatest, ?_, fun name => ?_⟩
    · split_ifs
      · exact .inl rfl
      · exact .inr rfl
    · rw [count, Table.lookup_insert, found]

theorem Rebuilt.skip (rebuilt : Rebuilt start done recovery)
    (unnumbered : blockNumber ab.name = none) :
    Rebuilt start (done ++ [ab]) recovery := by
  have only : ∀ (property : AddressBlock → Prop), (property ab → blockNumber ab.name ≠ none) →
      ((∃ other ∈ done ++ [ab], property other) ↔ ∃ other ∈ done, property other) := by
    intro property numbered
    constructor
    · rintro ⟨other, member, holds⟩
      rcases List.mem_append.mp member with before | now
      · exact ⟨other, before, holds⟩
      · rw [List.mem_singleton.mp now] at holds
        exact absurd unnumbered (numbered holds)
    · rintro ⟨other, member, holds⟩
      exact ⟨other, by simp [member], holds⟩
  have old : ∀ other ∈ done ++ [ab], blockNumber other.name ≠ none → other ∈ done := by
    intro other member numbered
    rcases List.mem_append.mp member with before | now
    · exact before
    · rw [List.mem_singleton.mp now] at numbered
      exact absurd unnumbered numbered
  refine ⟨?_, ?_, ?_, ?_⟩
  · intro name pool found
    rcases rebuilt.pools name pool found with ⟨now, lookup, size, counter, uses⟩
    refine ⟨now, lookup, size, counter, fun index => ?_⟩
    rw [uses, only _ fun marks => marks.1]
  · intro name number found
    rw [only _ fun numbered => by simp [numbered.2]]
    exact rebuilt.attained name number found
  · exact fun other member numbered => rebuilt.counted other (old other member numbered) numbered
  · exact fun other member numbered => rebuilt.indexed other (old other member numbered) numbered

theorem Rebuilt.mark {number index : ℕ} (rebuilt : Rebuilt start done recovery)
    (numbered : blockNumber ab.name = some number) (own : ab.index = some index)
    (known : recovery.pools.lookup ab.poolRef = some pool) {marked : Pool}
    (size : marked.size = pool.size) (counter : marked.counter = pool.counter)
    (uses : ∀ other, marked.uses other = if other = index then true else pool.uses other) :
    Rebuilt start (done ++ [ab])
      { recovery.count ab.poolRef number with
        pools := recovery.pools.insert ab.poolRef marked } := by
  rcases lookup_count recovery ab.poolRef number with ⟨greatest, reached, counters⟩
  refine ⟨?_, ?_, ?_, ?_⟩
  · intro name first found
    rcases rebuilt.pools name first found with
        ⟨before, lookup, sizeBefore, counterBefore, usesBefore⟩
    rw [Table.lookup_insert]
    split_ifs with same
    · subst same
      rw [known, Option.some.injEq] at lookup
      subst lookup
      refine ⟨marked, rfl, size.trans sizeBefore, counter.trans counterBefore, fun other => ?_⟩
      rw [uses]
      split_ifs with here
      · subst here
        refine iff_of_true rfl (.inr ⟨ab, by simp, ?_, rfl, own⟩)
        simp [numbered]
      rw [usesBefore]
      refine or_congr_right ⟨?_, ?_⟩
      · rintro ⟨holder, member, marks⟩
        exact ⟨holder, by simp [member], marks⟩
      rintro ⟨holder, member, marks⟩
      rcases List.mem_append.mp member with member | now
      · exact ⟨holder, member, marks⟩
      · rw [List.mem_singleton.mp now, Marks, own, Option.some.injEq] at marks
        exact absurd marks.2.2.symm here
    · refine ⟨before, lookup, sizeBefore, counterBefore, fun other => ?_⟩
      rw [usesBefore]
      refine or_congr_right ⟨?_, ?_⟩
      · rintro ⟨holder, member, marks⟩
        exact ⟨holder, by simp [member], marks⟩
      rintro ⟨holder, member, marks⟩
      rcases List.mem_append.mp member with member | now
      · exact ⟨holder, member, marks⟩
      · rw [List.mem_singleton.mp now] at marks
        exact absurd marks.2.1.symm same
  · intro name seen found
    have earlier : recovery.counters.lookup name = some seen →
        start.counters.lookup name = some seen ∨
          ∃ other ∈ done ++ [ab], other.poolRef = name ∧ blockNumber other.name = some seen := by
      intro before
      rcases rebuilt.attained name seen before with initial | ⟨other, member, reached⟩
      · exact .inl initial
      · exact .inr ⟨other, by simp [member], reached⟩
    rw [counters] at found
    split_ifs at found with same
    · rw [Option.some.injEq] at found
      subst found same
      rcases reached with rfl | before
      · exact .inr ⟨ab, by simp, rfl, numbered⟩
      · exact earlier before
    · exact earlier found
  · intro other member hasNumber
    rw [counters]
    split_ifs with same
    · simp
    rcases List.mem_append.mp member with before | now
    · exact rebuilt.counted other before hasNumber
    · rw [List.mem_singleton.mp now] at same
      exact absurd rfl same
  · intro other member hasNumber
    rcases List.mem_append.mp member with before | now
    · exact rebuilt.indexed other before hasNumber
    · rw [List.mem_singleton.mp now, own]
      simp

def Fits (start : Recovery) (blockList : List AddressBlock) : Prop :=
  ∀ ab ∈ blockList, ∃ pool, start.pools.lookup ab.poolRef = some pool ∧
    ∀ index, ab.index = some index → index < pool.size

theorem recoverBlock_cases (fits : Fits start blockList) (member : ab ∈ blockList)
    (rebuilt : Rebuilt start done recovery) :
    (∃ next, recoverBlock recovery ab = .ok next ∧ Rebuilt start (done ++ [ab]) next) ∨
      blockNumber ab.name ≠ none ∧ ab.index = none ∧
        recoverBlock recovery ab = .error .addressBlockIndexNotSet := by
  rcases fits ab member with ⟨first, found, inside⟩
  rcases rebuilt.pools ab.poolRef first found with ⟨pool, known, sameSize, -, -⟩
  cases numbered : blockNumber ab.name with
  | none =>
    refine .inl ⟨recovery, ?_, rebuilt.skip numbered⟩
    rw [recoverBlock, numbered]
  | some number =>
    have lookup : (recovery.count ab.poolRef number).pools.lookup ab.poolRef = some pool := known
    cases own : ab.index with
    | none =>
      refine .inr ⟨by simp, rfl, ?_⟩
      rw [recoverBlock, numbered]
      dsimp only
      rw [lookup, own]
    | some index =>
      have inPool : index < pool.size := by
        rw [sameSize]
        exact inside index own
      rcases Pool.allocateWith_of_lt inPool ab.name with
        ⟨marked, ran, sameCidr, sameBlockSize, counter, uses⟩
      have size : marked.size = pool.size := by
        rw [Pool.size, Pool.size, sameCidr, sameBlockSize]
      refine .inl ⟨_, ?_, rebuilt.mark numbered own known size counter uses⟩
      rw [recoverBlock, numbered]
      dsimp only
      rw [lookup, own]
      dsimp only
      rw [ran]
      rfl

/-- The loop returns if every block with a number has an index. -/
theorem recoverBlocks_returns (fits : Fits start blockList)
    (indexed : ∀ ab ∈ blockList, blockNumber ab.name ≠ none → ab.index ≠ none) :
    ∃ final, blockList.foldlM recoverBlock start = .ok final ∧ Rebuilt start blockList final := by
  refine Outcome.foldlM_returns (Rebuilt start) (.refl start) ?_
  intro done ab state member rebuilt
  rcases recoverBlock_cases fits member rebuilt with returns | ⟨numbered, none, -⟩
  · exact returns
  · exact absurd none (indexed ab member numbered)

theorem recoverBlocks_rebuilt (fits : Fits start blockList)
    (returned : blockList.foldlM recoverBlock start = .ok final) :
      Rebuilt start blockList final := by
  refine Outcome.foldlM_invariant (Rebuilt start) (.refl start) ?_ returned
  intro done ab state next member rebuilt ran
  rcases recoverBlock_cases fits member rebuilt with ⟨other, returns, rebuilt⟩ | ⟨-, -, failed⟩
  · rw [ran, Outcome.ok.injEq] at returns
    rwa [returns]
  · rw [ran] at failed
    simp at failed

theorem lookup_setCounters (recovery : Recovery) (name : String) :
    (recovery.counters.entries.foldl setCounter recovery.pools).lookup name =
      (recovery.pools.lookup name).map fun pool =>
        { pool with counter := (recovery.counters.lookup name).getD pool.counter } := by
  have writes : ∀ (pools : AList fun _ : String => Pool) (entry : Sigma fun _ : String => ℕ) other,
      (setCounter pools entry).lookup other =
        if other = entry.1 then
          (pools.lookup other).map fun pool => { pool with counter := entry.2 }
        else pools.lookup other := by
    intro pools entry other
    unfold setCounter
    by_cases same : other = entry.1
    · subst same
      rw [if_pos rfl]
      cases found : pools.lookup entry.1 with
      | none => exact found
      | some pool => exact AList.lookup_insert pools
    rw [if_neg same]
    cases found : pools.lookup entry.1 with
    | none => rfl
    | some pool => exact AList.lookup_insert_ne same
  rw [Table.lookup_foldl_entries (fun count => Option.map fun pool : Pool =>
    { pool with counter := count }) writes]
  cases recovery.counters.lookup name with
  | none => cases recovery.pools.lookup name <;> rfl
  | some count => rfl

end Recovery

end Sart
