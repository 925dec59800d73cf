import Sart.Controller.Objects

/-!
# The networks of pod blocks

The controller computes the network of a block from its number: the first address is the
one of the pool plus a multiple of the number of addresses in a block.

That number is written as `2 ^ d` for the difference `d` of the two prefix lengths, which
is an exclusive or, and one is added to it.
-/

namespace Sart

open Sart.Lib

def IpNet.make (afi : Afi) (value prefixLen : ℕ) : Option IpNet :=
  match afi with
  | .ipv4 => if fits : prefixLen ≤ 32 then some (.v4 ⟨BitVec.ofNat 32 value, prefixLen, fits⟩)
      else none
  | .ipv6 =>
    if fits : prefixLen ≤ 128 then some (.v6 ⟨BitVec.ofNat 128 value, prefixLen, fits⟩) else none

/-- The network that starts at an offset.  The offset is cut to the width of an address, and the
prefix length to an octet. -/
def getBlockCidr (cidr : IpNet) (blockSize head : ℕ) : Outcome ControllerError IpNet :=
  let start := cidr.network + head % 2 ^ cidr.afi.width
  if start ≥ 2 ^ cidr.afi.width then .panic
  else
    match IpNet.make cidr.afi (if cidr.addr.value > start then cidr.addr.value else start)
      (blockSize % 256) with
    | some block => .ok block
    | none => .error .invalidCIDR

def blockOffset (prefixLen blockPrefixLen index : ℕ) : Outcome ControllerError ℕ :=
  if blockPrefixLen < prefixLen then .panic
  else
    let blockSize := 2 ^^^ (blockPrefixLen - prefixLen)
    if blockSize + 1 ≥ 2 ^ 32 then .panic
    else if index * (blockSize + 1) ≥ 2 ^ 128 then .panic
    else .ok (index * (blockSize + 1))

def blockCidr (cidr : IpNet) (blockSize : Option ℕ) (index : ℕ) :
    Outcome ControllerError IpNet := do
  let blockPrefixLen := blockSize.getD cidr.prefixLen
  let head ← blockOffset cidr.prefixLen blockPrefixLen index
  getBlockCidr cidr blockPrefixLen head

namespace IpNet

def Within (net pool : IpNet) : Prop :=
  ∀ addr, net.contains addr = true → pool.contains addr = true

def Apart (left right : IpNet) : Prop :=
  ∀ addr, ¬(left.contains addr = true ∧ right.contains addr = true)

theorem network_le (net : IpNet) : net.network ≤ net.addr.value := Nat.div_mul_le_self _ _

theorem contains_first (net : IpNet) : net.contains (.ofValue net.afi net.network) = true := by
  have first := @contains_indexToAddr net 0 (Nat.two_pow_pos _)
  rwa [indexToAddr, Nat.add_zero] at first

theorem value_first (net : IpNet) : (IpAddr.ofValue net.afi net.network).value = net.network := by
  have first := @value_indexToAddr net 0 (Nat.two_pow_pos _)
  rwa [indexToAddr, Nat.add_zero] at first

theorem Within.network_lt {net pool : IpNet} (within : net.Within pool) :
    net.network < pool.network + 2 ^ pool.hostBits := by
  have inside := within _ net.contains_first
  rw [contains, decide_eq_true_eq, value_first] at inside
  exact inside.2.2

theorem make_eq_some {afi : Afi} {value prefixLen : ℕ} (fits : prefixLen ≤ afi.width)
    (small : value < 2 ^ afi.width) :
    ∃ net, make afi value prefixLen = some net ∧ net.afi = afi ∧ net.addr.value = value ∧
      net.prefixLen = prefixLen := by
  cases afi with
  | ipv4 | ipv6 => exact ⟨_, dif_pos fits, rfl, Nat.mod_eq_of_lt small, rfl⟩

end IpNet

variable {cidr block left right : IpNet} {blockPrefixLen index first second : ℕ}

def Computed (cidr : IpNet) (blockPrefixLen index : ℕ) (block : IpNet) : Prop :=
  blockCidr cidr (some blockPrefixLen) index = .ok block ∧
    ∀ head, blockOffset cidr.prefixLen blockPrefixLen index = .ok head → head < 2 ^ cidr.afi.width

/-- The blocks of two indices are of the right size, parts of the pool, and apart. -/
def BlocksApart (cidr : IpNet) (blockPrefixLen first second : ℕ) : Prop :=
  ∃ left right, Computed cidr blockPrefixLen first left ∧
    Computed cidr blockPrefixLen second right ∧
    left.prefixLen = blockPrefixLen ∧ right.prefixLen = blockPrefixLen ∧
    left.Within cidr ∧ right.Within cidr ∧ left.Apart right

def blockStep (cidr : IpNet) (blockPrefixLen : ℕ) : ℕ :=
    (2 ^^^ (blockPrefixLen - cidr.prefixLen)) + 1

def blockAddrs (cidr : IpNet) (blockPrefixLen : ℕ) : ℕ := 2 ^ (cidr.afi.width - blockPrefixLen)

def blockCount (cidr : IpNet) (blockPrefixLen : ℕ) : ℕ := 2 ^ (blockPrefixLen - cidr.prefixLen)

/-- The address of the pool need not be the first one of its network. -/
def hostPart (cidr : IpNet) : ℕ := cidr.addr.value - cidr.network

def blockPlace (cidr : IpNet) (blockPrefixLen index : ℕ) : ℕ :=
  max (hostPart cidr) (index * blockStep cidr blockPrefixLen) / blockAddrs cidr blockPrefixLen

variable {difference head : ℕ}

theorem blockStep_le (small : difference ≤ 32) : (2 ^^^ difference) + 1 ≤ 35 := by
  have all : ∀ d < 33, (2 ^^^ d) + 1 ≤ 35 := by decide
  exact all difference (Nat.lt_succ_of_le small)

theorem blockAddrs_pos : 0 < blockAddrs cidr blockPrefixLen := Nat.two_pow_pos _

theorem le_width (small : blockPrefixLen ≤ 32) (afi : Afi) : blockPrefixLen ≤ afi.width := by
  cases afi with
  | ipv4 => exact small
  | ipv6 => exact small.trans (by decide)

theorem blockCount_mul (above : cidr.prefixLen ≤ blockPrefixLen) (small : blockPrefixLen ≤ 32) :
    blockCount cidr blockPrefixLen * blockAddrs cidr blockPrefixLen = 2 ^ cidr.hostBits := by
  have inside := le_width small cidr.afi
  rw [blockCount, blockAddrs, ← pow_add, IpNet.hostBits]
  congr 1
  omega

theorem network_eq_mul (above : cidr.prefixLen ≤ blockPrefixLen) (small : blockPrefixLen ≤ 32) :
    ∃ count, cidr.network = count * blockAddrs cidr blockPrefixLen := by
  refine ⟨cidr.addr.value / 2 ^ cidr.hostBits * blockCount cidr blockPrefixLen, ?_⟩
  rw [Nat.mul_assoc, blockCount_mul above small, IpNet.network]

theorem blockOffset_eq (above : cidr.prefixLen ≤ blockPrefixLen) (small : blockPrefixLen ≤ 32) :
    blockOffset cidr.prefixLen blockPrefixLen index =
      if index * blockStep cidr blockPrefixLen ≥ 2 ^ 128 then .panic
      else .ok (index * blockStep cidr blockPrefixLen) := by
  have step : (2 ^^^ (blockPrefixLen - cidr.prefixLen)) + 1 ≤ 35 := blockStep_le (by omega)
  rw [blockOffset, if_neg (by omega)]
  rw [if_neg (by omega)]
  rfl

theorem getBlockCidr_eq_panic (small : head < 2 ^ cidr.afi.width)
    (beyond : 2 ^ cidr.afi.width ≤ cidr.network + head) :
    getBlockCidr cidr blockPrefixLen head = .panic := by
  rw [getBlockCidr, Nat.mod_eq_of_lt small, if_pos beyond]

theorem getBlockCidr_eq_ok (small : blockPrefixLen ≤ 32)
    (fits : cidr.network + head < 2 ^ cidr.afi.width) :
    ∃ block, getBlockCidr cidr blockPrefixLen head = .ok block ∧ block.afi = cidr.afi ∧
      block.prefixLen = blockPrefixLen ∧ block.addr.value =
        max cidr.addr.value (cidr.network + head) := by
  have start : (if cidr.addr.value > cidr.network + head then cidr.addr.value
      else cidr.network + head) = max cidr.addr.value (cidr.network + head) := by
    split_ifs <;> omega
  have inside : max cidr.addr.value (cidr.network + head) < 2 ^ cidr.afi.width := by
    refine max_lt ?_ fits
    rw [← cidr.afi_addr]
    exact cidr.addr.value_lt
  rcases IpNet.make_eq_some (le_width small cidr.afi) inside with ⟨block, made, afi, value, length⟩
  refine ⟨block, ?_, afi, length, value⟩
  rw [getBlockCidr, Nat.mod_eq_of_lt (by omega), if_neg (by omega), start,
    Nat.mod_eq_of_lt (by omega), made]

section

variable (above : cidr.prefixLen ≤ blockPrefixLen) (small : blockPrefixLen ≤ 32)

include above small

theorem Computed.spec (computed : Computed cidr blockPrefixLen index block) :
    cidr.network + index * blockStep cidr blockPrefixLen < 2 ^ cidr.afi.width ∧
      block.afi = cidr.afi ∧ block.prefixLen = blockPrefixLen ∧
      block.network = cidr.network +
        blockPlace cidr blockPrefixLen index * blockAddrs cidr blockPrefixLen := by
  rcases computed with ⟨result, lossless⟩
  rw [blockOffset_eq above small] at lossless
  rw [blockCidr, Option.getD_some, blockOffset_eq above small] at result
  split_ifs at result lossless with large
  · simp at result
  have short := lossless _ rfl
  rw [Outcome.ok_bind] at result
  have fits : cidr.network + index * blockStep cidr blockPrefixLen < 2 ^ cidr.afi.width := by
    by_contra beyond
    rw [getBlockCidr_eq_panic short (not_lt.mp beyond)] at result
    simp at result
  rcases getBlockCidr_eq_ok small fits with ⟨other, same, afi, length, value⟩
  rw [same, Outcome.ok.injEq] at result
  subst result
  refine ⟨fits, afi, length, ?_⟩
  rcases network_eq_mul above small with ⟨count, network⟩
  have host : cidr.addr.value = cidr.network + hostPart cidr :=
    (Nat.add_sub_cancel' cidr.network_le).symm
  have addrs : 2 ^ other.hostBits = blockAddrs cidr blockPrefixLen := by
    rw [IpNet.hostBits, blockAddrs, afi, length]
  rw [IpNet.network, addrs, value, host, Nat.add_max_add_left, network, Nat.mul_comm count,
    Nat.mul_add_div blockAddrs_pos, Nat.add_mul, Nat.mul_comm count, blockPlace]

theorem computed_of_fits
    (fits : cidr.network + index * blockStep cidr blockPrefixLen < 2 ^ cidr.afi.width) :
    ∃ block, Computed cidr blockPrefixLen index block := by
  have width : 2 ^ cidr.afi.width ≤ 2 ^ 128 := by
    cases cidr.afi with
    | ipv4 => decide
    | ipv6 => exact le_rfl
  have offset : blockOffset cidr.prefixLen blockPrefixLen index =
      .ok (index * blockStep cidr blockPrefixLen) := by
    rw [blockOffset_eq above small, if_neg (by omega)]
  rcases getBlockCidr_eq_ok small fits with ⟨block, made, -⟩
  refine ⟨block, ?_, ?_⟩
  · rw [blockCidr, Option.getD_some, offset, Outcome.ok_bind, made]
  intro head same
  rw [offset, Outcome.ok.injEq] at same
  omega

theorem Computed.within_iff (computed : Computed cidr blockPrefixLen index block) :
    block.Within cidr ↔ blockPlace cidr blockPrefixLen index < blockCount cidr blockPrefixLen := by
  rcases computed.spec above small with ⟨-, afi, length, network⟩
  have addrs : 2 ^ block.hostBits = blockAddrs cidr blockPrefixLen := by
    rw [IpNet.hostBits, blockAddrs, afi, length]
  have filled := blockCount_mul above small
  constructor
  · intro within
    have inside := within.network_lt
    rw [network, ← filled] at inside
    exact lt_of_mul_lt_mul_right (Nat.lt_of_add_lt_add_left inside) (Nat.zero_le _)
  · intro place addr contained
    have last := Nat.mul_le_mul_right (blockAddrs cidr blockPrefixLen) (Nat.succ_le_of_lt place)
    rw [Nat.succ_mul, filled] at last
    simp only [IpNet.contains, decide_eq_true_eq, addrs, network, afi] at contained
    rw [IpNet.contains, decide_eq_true_eq]
    exact ⟨contained.1, by omega, by omega⟩

theorem Computed.apart_iff (computed : Computed cidr blockPrefixLen first left)
    (another : Computed cidr blockPrefixLen second right) :
    left.Apart right ↔
      blockPlace cidr blockPrefixLen first ≠ blockPlace cidr blockPrefixLen second := by
  rcases computed.spec above small with ⟨-, afi, length, network⟩
  rcases another.spec above small with ⟨-, afi', length', network'⟩
  have addrs : 2 ^ left.hostBits = blockAddrs cidr blockPrefixLen := by
    rw [IpNet.hostBits, blockAddrs, afi, length]
  have addrs' : 2 ^ right.hostBits = blockAddrs cidr blockPrefixLen := by
    rw [IpNet.hostBits, blockAddrs, afi', length']
  constructor
  · intro apart same
    refine apart (.ofValue left.afi left.network) ⟨left.contains_first, ?_⟩
    have equal : left.network = right.network := by rw [network, network', same]
    rw [equal, afi, ← afi']
    exact right.contains_first
  · rintro different addr ⟨inLeft, inRight⟩
    simp only [IpNet.contains, decide_eq_true_eq, addrs, network] at inLeft
    simp only [IpNet.contains, decide_eq_true_eq, addrs', network'] at inRight
    -- the place of an address is the quotient of its distance from the first one
    rcases lt_or_gt_of_ne different with before | after
    · have next := Nat.mul_le_mul_right (blockAddrs cidr blockPrefixLen) (Nat.succ_le_of_lt before)
      rw [Nat.succ_mul] at next
      omega
    have next := Nat.mul_le_mul_right (blockAddrs cidr blockPrefixLen) (Nat.succ_le_of_lt after)
    rw [Nat.succ_mul] at next
    omega

theorem blocksApart_iff_places :
    BlocksApart cidr blockPrefixLen first second ↔
      cidr.network + first * blockStep cidr blockPrefixLen < 2 ^ cidr.afi.width ∧
      cidr.network + second * blockStep cidr blockPrefixLen < 2 ^ cidr.afi.width ∧
      blockPlace cidr blockPrefixLen first < blockCount cidr blockPrefixLen ∧
      blockPlace cidr blockPrefixLen second < blockCount cidr blockPrefixLen ∧
      blockPlace cidr blockPrefixLen first ≠ blockPlace cidr blockPrefixLen second := by
  constructor
  · rintro ⟨left, right, computed, another, -, -, inside, inside', apart⟩
    exact ⟨(computed.spec above small).1, (another.spec above small).1,
      (computed.within_iff above small).mp inside, (another.within_iff above small).mp inside',
      (computed.apart_iff above small another).mp apart⟩
  · rintro ⟨fits, fits', inside, inside', different⟩
    rcases computed_of_fits above small fits with ⟨left, computed⟩
    rcases computed_of_fits above small fits' with ⟨right, another⟩
    exact ⟨left, right, computed, another, (computed.spec above small).2.2.1,
      (another.spec above small).2.2.1, (computed.within_iff above small).mpr inside,
      (another.within_iff above small).mpr inside',
      (computed.apart_iff above small another).mpr different⟩

end

theorem last_outside {bits : ℕ} (positive : 1 ≤ difference) (small : difference ≤ 32)
    (few : bits ≤ 5) (above : 2 ^ bits < (2 ^^^ difference) + 1) :
    2 ^ difference * 2 ^ bits ≤ (2 ^ difference - 1) * ((2 ^^^ difference) + 1) := by
  have all : ∀ d < 33, 1 ≤ d → ∀ e < 6, 2 ^ e < (2 ^^^ d) + 1 →
      2 ^ d * 2 ^ e ≤ (2 ^ d - 1) * ((2 ^^^ d) + 1) := by decide
  exact all difference (Nat.lt_succ_of_le small) positive bits (Nat.lt_succ_of_le few) above

theorem blockPlace_eq (step : blockStep cidr blockPrefixLen = blockAddrs cidr blockPrefixLen)
    (host : hostPart cidr < blockAddrs cidr blockPrefixLen) :
    blockPlace cidr blockPrefixLen index = index := by
  rw [blockPlace, step]
  cases index with
  | zero => rw [Nat.zero_mul, Nat.max_zero, Nat.div_eq_of_lt host]
  | succ index =>
    have large : hostPart cidr ≤ (index + 1) * blockAddrs cidr blockPrefixLen := by
      rw [Nat.succ_mul]
      omega
    rw [max_eq_right large, Nat.mul_div_cancel _ blockAddrs_pos]

theorem step_of_places
    (different : blockPlace cidr blockPrefixLen 0 ≠ blockPlace cidr blockPrefixLen 1) :
    blockAddrs cidr blockPrefixLen ≤ blockStep cidr blockPrefixLen ∧
      hostPart cidr < blockStep cidr blockPrefixLen := by
  rw [blockPlace, blockPlace, Nat.zero_mul, Nat.one_mul, Nat.max_zero] at different
  have host : hostPart cidr < blockStep cidr blockPrefixLen := by
    by_contra large
    rw [max_eq_left (not_lt.mp large)] at different
    exact different rfl
  refine ⟨?_, host⟩
  by_contra short
  rw [max_eq_right host.le, Nat.div_eq_of_lt (by omega), Nat.div_eq_of_lt (by omega)] at different
  exact different rfl

/-- The blocks of a pod pool do not overlap if and only if there is one block only, or the step
that is computed is the number of addresses of a block and the pool is written with an address of
its first block. -/
theorem blocksApart_iff (cidr : IpNet) (blockPrefixLen : ℕ)
    (above : cidr.prefixLen ≤ blockPrefixLen)
    (small : blockPrefixLen ≤ 32) : (∀ first second, first < 2 ^ (blockPrefixLen - cidr.prefixLen) →
        second < 2 ^ (blockPrefixLen - cidr.prefixLen) → first ≠ second →
        BlocksApart cidr blockPrefixLen first second) ↔
      blockPrefixLen = cidr.prefixLen ∨
        (2 ^^^ (blockPrefixLen - cidr.prefixLen)) + 1 = 2 ^ (cidr.afi.width - blockPrefixLen) ∧
          cidr.addr.value - cidr.network < 2 ^ (cidr.afi.width - blockPrefixLen) := by
  constructor
  · intro apart
    refine or_iff_not_imp_left.mpr fun more => ?_
    have positive : 1 ≤ blockPrefixLen - cidr.prefixLen := by omega
    have two : 2 ^ 1 ≤ 2 ^ (blockPrefixLen - cidr.prefixLen) :=
      Nat.pow_le_pow_right (by decide) positive
    have pair := (blocksApart_iff_places above small).mp
      (apart 0 1 (by omega) (by omega) (by decide))
    rcases step_of_places pair.2.2.2.2 with ⟨large, host⟩
    rcases Nat.lt_or_ge (blockAddrs cidr blockPrefixLen) (blockStep cidr blockPrefixLen) with
      wide | equal
    · -- the last block is not in the pool
      exfalso
      have few : cidr.afi.width - blockPrefixLen ≤ 5 := by
        by_contra many
        have addrs : 2 ^ 6 ≤ blockAddrs cidr blockPrefixLen :=
          Nat.pow_le_pow_right (by decide) (not_le.mp many)
        have step := @blockStep_le (blockPrefixLen - cidr.prefixLen) (by omega)
        rw [← blockStep] at step
        omega
      have outside := last_outside positive (by omega) few wide
      have last := (blocksApart_iff_places above small).mp
        (apart 0 (2 ^ (blockPrefixLen - cidr.prefixLen) - 1) (by omega) (by omega) (by omega))
      have place := last.2.2.2.1
      rw [blockPlace, Nat.div_lt_iff_lt_mul blockAddrs_pos] at place
      have before := (le_max_right _ _).trans_lt place
      exact absurd before (not_lt.mpr outside)
    · have step : blockStep cidr blockPrefixLen = blockAddrs cidr blockPrefixLen :=
        le_antisymm equal large
      rw [step] at host
      exact ⟨step, host⟩
  · rintro (single | ⟨step, host⟩) first second inFirst inSecond different
    · rw [single, Nat.sub_self, pow_zero] at inFirst inSecond
      omega
    have fits : ∀ index < blockCount cidr blockPrefixLen,
        cidr.network + index * blockStep cidr blockPrefixLen < 2 ^ cidr.afi.width := by
      intro index inside
      have range := cidr.network_add_le
      have before := Nat.mul_lt_mul_of_pos_right inside (@blockAddrs_pos cidr blockPrefixLen)
      rw [blockCount_mul above small] at before
      rw [show blockStep cidr blockPrefixLen = blockAddrs cidr blockPrefixLen from step]
      omega
    rw [blocksApart_iff_places above small, blockPlace_eq step host, blockPlace_eq step host]
    exact ⟨fits first inFirst, fits second inSecond, inFirst, inSecond, different⟩

theorem blocksApart_of_eight :
    BlocksApart (.v4 ⟨0x0A000000#32, 29, by decide⟩) 30 0 1 := by
  refine (blocksApart_iff (.v4 ⟨0x0A000000#32, 29, by decide⟩) 30 (by decide) (by decide)).mpr
    (.inr ?_) 0 1 (by decide) (by decide) (by decide)
  decide

/-- The first two of the four blocks of `10.0.0.0/24` are both `10.0.0.0/26`. -/
theorem not_blocksApart_of_quarters : ¬BlocksApart (.v4 ⟨0x0A000000#32, 24, by decide⟩) 26 0 1 := by
  rw [blocksApart_iff_places (by decide) (by decide)]
  decide

end Sart
