import Sart.Agent.Cni
import Sart.Controller.BlockCidr

/-!
# Recovery of the CNI server

When the agent starts, its CNI server registers the blocks of the node that the API lists,
and marks the addresses of the pods: the link of a pod on the host has an alias with the pool,
and the route to the pod leaves through the link.  The map of the allocations is not rebuilt.
-/

namespace Sart

open Sart.Lib

structure ContainerLinkInfo where
  id : String
  ifname : String
  pool : String
  deriving DecidableEq

namespace ContainerLinkInfo

def toAlias (info : ContainerLinkInfo) : String :=
  info.pool ++ "/" ++ info.id ++ "/" ++ info.ifname

def fromStr (text : String) : Option ContainerLinkInfo :=
  match (text.toList.splitOn '/').map String.ofList with
  | [pool, id, ifname] => some ⟨id, ifname, pool⟩
  | _ => none

def Plain (info : ContainerLinkInfo) : Prop :=
  '/' ∉ info.pool.toList ∧ '/' ∉ info.id.toList ∧ '/' ∉ info.ifname.toList

instance (info : ContainerLinkInfo) : Decidable info.Plain :=
  inferInstanceAs (Decidable ('/' ∉ info.pool.toList ∧ '/' ∉ info.id.toList ∧
    '/' ∉ info.ifname.toList))

theorem fromStr_toAlias {info : ContainerLinkInfo} (plain : info.Plain) :
    fromStr info.toAlias = some info := by
  have parts : info.toAlias.toList =
      ['/'].intercalate [info.pool.toList, info.id.toList, info.ifname.toList] := by
    simp [toAlias, String.toList_append, List.intercalate]
  have split : info.toAlias.toList.splitOn '/' =
      [info.pool.toList, info.id.toList, info.ifname.toList] := by
    rw [parts]
    apply List.splitOn_intercalate
    · intro part member
      simp only [List.mem_cons, List.not_mem_nil, or_false] at member
      rcases member with rfl | rfl | rfl
      · exact plain.1
      · exact plain.2.1
      · exact plain.2.2
    · exact List.cons_ne_nil _ _
  rw [fromStr, split]
  simp [String.ofList_toList]

end ContainerLinkInfo

def hostSide (containerId : String) : String := "veth" ++ String.ofList (containerId.toList.take 8)

def CONTAINER_INTERFACE_NAME : String := "eth0"

structure Host where
  links : AList fun _ : String => String
  routes4 : AList fun _ : String => IpAddr
  routes6 : AList fun _ : String => IpAddr

def Host.addr (host : Host) (ifname : String) : Option IpAddr :=
  match host.routes4.lookup ifname with
  | some addr => some addr
  | none => host.routes6.lookup ifname

namespace AllocatorSet

def liftCni {α : Type} : Outcome IpamError α → Outcome CniError α
  | .ok value => .ok value
  | .error error => .error (.ipam error)
  | .panic => .panic

def poolBlocks (blocks : List AddressBlock) : AList fun _ : String => List String :=
  blocks.foldl (fun table ab =>
    if ab.type ≠ .pod then table else Table.append table ab.poolRef [ab.name]) ∅

def recoverBlock (set : AllocatorSet) (ab : AddressBlock) : Outcome CniError AllocatorSet :=
  match set.get ab.name with
  | some _ => .ok set
  | none =>
    match ab.cidr with
    | none => .error .invalidAddress
    | some cidr => do
        let block ← liftCni (Block.new ab.name ab.poolRef cidr)
        liftCni (set.insert block false)

def blockOf (set : AllocatorSet) (names : List String) (addr : IpAddr) : Option (String × Block) :=
  names.findSome? fun name =>
    match set.get name with
    | some block => if block.allocator.cidr.contains addr then some (name, block) else none
    | none => none

def recoverLink (host : Host) (names : AList fun _ : String => List String) (set : AllocatorSet)
    (link : Sigma fun _ : String => String) : Outcome CniError AllocatorSet :=
  match ContainerLinkInfo.fromStr link.2, host.addr link.1 with
  | some info, some addr =>
    match set.blockOf ((names.lookup info.pool).getD []) addr with
    | some (name, block) => do
        let allocator ← liftCni (block.allocator.allocate addr true)
        .ok (set.setAllocator name block allocator)
    | none => .ok set
  | _, _ => .ok set

def recover (host : Host) (blocks : List AddressBlock) (set : AllocatorSet) :
    Outcome CniError AllocatorSet := do
  let registered ← blocks.foldlM recoverBlock set
  host.links.entries.foldlM (recoverLink host (poolBlocks blocks)) registered

def Network (set : AllocatorSet) (blocks : List AddressBlock) (name : String)
    (cidr : IpNet) : Prop :=
  (∃ block, set.get name = some block ∧ block.allocator.cidr = cidr) ∨
    ∃ ab ∈ blocks, ab.name = name ∧ ab.cidr = some cidr

/-- The registered and the listed blocks go together: a name has one network, different names have
disjoint ones, and the blocks that are new can be registered. -/
structure Agrees (set : AllocatorSet) (blocks : List AddressBlock) : Prop where
  unique : ∀ name left right, set.Network blocks name left → set.Network blocks name right →
    left = right
  apart : ∀ first second left right, set.Network blocks first left →
    set.Network blocks second right →
    first ≠ second → left.Apart right
  valid : ∀ ab ∈ blocks, set.get ab.name = none →
    ∃ cidr block, ab.cidr = some cidr ∧ Block.new ab.name ab.poolRef cidr = .ok block

def Grows (set next : AllocatorSet) : Prop :=
  ∀ name block, set.get name = some block → ∃ current, next.get name = some current ∧
    ∀ addr, block.allocator.holds addr = true → current.allocator.holds addr = true

def Within (set : AllocatorSet) (blocks : List AddressBlock) (next : AllocatorSet) : Prop :=
  ∀ name block, next.get name = some block → set.Network blocks name block.allocator.cidr

def Held (set : AllocatorSet) (addr : IpAddr) : Prop :=
  ∃ name block, set.get name = some block ∧ block.allocator.holds addr = true

def Behind (host : Host) (blocks : List AddressBlock) (link : Sigma fun _ : String => String)
    (addr : IpAddr) : Prop :=
  host.addr link.1 = some addr ∧ ∃ info, ContainerLinkInfo.fromStr link.2 = some info ∧
    ∃ ab ∈ blocks, ab.type = .pod ∧ ab.poolRef = info.pool ∧
      ∃ cidr, ab.cidr = some cidr ∧ cidr.contains addr = true

variable {set next final : AllocatorSet} {blocks : List AddressBlock} {name : String}

theorem Grows.refl (set : AllocatorSet) : set.Grows set :=
  fun _ block found => ⟨block, found, fun _ held => held⟩

theorem Grows.trans (first : set.Grows next) (second : next.Grows final) : set.Grows final := by
  intro name block found
  rcases first name block found with ⟨current, known, more⟩
  rcases second name current known with ⟨last, stored, most⟩
  exact ⟨last, stored, fun addr held => most addr (more addr held)⟩

variable {addr : IpAddr} {names : List String} {block : Block}

theorem Grows.held (grows : set.Grows next) (held : set.Held addr) :
    next.Held addr := by
  rcases held with ⟨name, block, found, holds⟩
  rcases grows name block found with ⟨current, stored, more⟩
  exact ⟨name, current, stored, more addr holds⟩

theorem within_self (set : AllocatorSet) (blocks : List AddressBlock) : set.Within blocks set :=
  fun _ block found => .inl ⟨block, found, rfl⟩

theorem disjoint_of_within (agrees : set.Agrees blocks) (within : set.Within blocks next) :
    next.Disjoint := by
  intro first second left right foundLeft foundRight different
  exact agrees.apart first second _ _ (within first left foundLeft) (within second right foundRight)
    different

theorem recoverBlock_returns {ab : AddressBlock} (agrees : set.Agrees blocks) (listed : ab ∈ blocks)
    (grows : set.Grows next) (within : set.Within blocks next) :
    ∃ final, next.recoverBlock ab = .ok final ∧ next.Grows final ∧ set.Within blocks final ∧
      ∃ block, final.get ab.name = some block := by
  unfold recoverBlock
  cases found : next.get ab.name with
  | some block => exact ⟨next, rfl, .refl next, within, block, found⟩
  | none =>
    have new : set.get ab.name = none := by
      cases known : set.get ab.name with
      | none => rfl
      | some block =>
        rcases grows ab.name block known with ⟨current, stored, -⟩
        rw [found] at stored
        simp at stored
    rcases agrees.valid ab listed new with ⟨cidr, block, net, made⟩
    have own := Block.name_of_new made
    have get : ∀ other, AllocatorSet.get { next with blocks := next.blocks.insert block.name block }
        other = if other = ab.name then some block else next.get other := by
      intro other
      rw [← own]
      exact Table.lookup_insert _ _ _ _
    refine ⟨{ next with blocks := next.blocks.insert block.name block }, ?_, ?_, ?_, ?_⟩
    · rw [net]
      dsimp only
      rw [made]
      rfl
    · intro other current stored
      refine ⟨current, ?_, fun _ held => held⟩
      rw [get, if_neg ?_, stored]
      rintro rfl
      rw [found] at stored
      simp at stored
    · intro other current stored
      rw [get] at stored
      split_ifs at stored with same
      · rw [Option.some.injEq] at stored
        subst stored
        rw [(Block.new_eq_ok made).1]
        exact .inr ⟨ab, listed, same.symm, net⟩
      · exact within other current stored
    · exact ⟨block, by rw [get, if_pos rfl]⟩

theorem recoverBlocks_returns (agrees : set.Agrees blocks) :
    ∃ next, blocks.foldlM recoverBlock set = .ok next ∧ set.Grows next ∧ set.Within blocks next ∧
      ∀ ab ∈ blocks, ∃ block, next.get ab.name = some block := by
  refine Outcome.foldlM_returns (fun (done : List AddressBlock) next => set.Grows next ∧
    set.Within blocks next ∧
    ∀ ab ∈ done, ∃ block, next.get ab.name = some block) ⟨.refl set, within_self set blocks, ?_⟩ ?_
  · simp
  rintro done ab next listed ⟨grows, within, registered⟩
  rcases recoverBlock_returns agrees listed grows within with ⟨final, ran, more, inside, here⟩
  refine ⟨final, ran, grows.trans more, inside, fun other member => ?_⟩
  rcases List.mem_append.mp member with earlier | now
  · rcases registered other earlier with ⟨block, known⟩
    rcases more other.name block known with ⟨current, stored, -⟩
    exact ⟨current, stored⟩
  · rw [List.mem_singleton.mp now]
    exact here

theorem blockOf_eq_some (found : set.blockOf names addr = some (name, block)) :
    name ∈ names ∧ set.get name = some block ∧ block.allocator.cidr.contains addr = true := by
  rcases List.exists_of_findSome?_eq_some found with ⟨other, member, here⟩
  cases lookup : set.get other with
  | none =>
    rw [lookup] at here
    simp at here
  | some current =>
    rw [lookup] at here
    dsimp only at here
    split_ifs at here with inside
    rcases here with ⟨rfl, rfl⟩
    exact ⟨member, lookup, inside⟩

theorem blockOf_isSome (member : name ∈ names) (known : set.get name = some block)
    (inside : block.allocator.cidr.contains addr = true) :
    ∃ other current, set.blockOf names addr = some (other, current) := by
  cases found : set.blockOf names addr with
  | some pair => exact ⟨pair.1, pair.2, rfl⟩
  | none =>
    have here := List.findSome?_eq_none_iff.mp found name member
    rw [known] at here
    dsimp only at here
    rw [if_pos inside] at here
    simp at here

theorem mem_poolBlocks {pool : String} :
    name ∈ ((poolBlocks blocks).lookup pool).getD [] ↔
      ∃ ab ∈ blocks, ab.type = .pod ∧ ab.poolRef = pool ∧ ab.name = name := by
  have fold : ∀ table : AList fun _ : String => List String,
      name ∈ ((blocks.foldl (fun table ab =>
        if ab.type ≠ .pod then table else Table.append table ab.poolRef [ab.name]) table).lookup
          pool).getD [] ↔
        name ∈ (table.lookup pool).getD [] ∨
          ∃ ab ∈ blocks, ab.type = .pod ∧ ab.poolRef = pool ∧ ab.name = name := by
    intro table
    induction blocks generalizing table with
    | nil => simp
    | cons ab rest ih =>
      rw [List.foldl_cons, ih, List.exists_mem_cons_iff, ← or_assoc]
      refine or_congr_left ?_
      by_cases isPod : ab.type = .pod
      · rw [if_neg (not_not.mpr isPod), Table.lookup_append]
        by_cases here : pool = ab.poolRef
        · simp [here, isPod, eq_comm]
        · simp [here, Ne.symm here]
      · simp [isPod]
  rw [poolBlocks, fold]
  simp

theorem recoverLink_returns (agrees : set.Agrees blocks) (host : Host)
    (link : Sigma fun _ : String => String) (within : set.Within blocks next)
    (registered : ∀ ab ∈ blocks, ∃ block, next.get ab.name = some block) :
    ∃ final, recoverLink host (poolBlocks blocks) next link = .ok final ∧ next.Grows final ∧
      set.Within blocks final ∧ ∀ addr, Behind host blocks link addr → final.Held addr := by
  unfold recoverLink
  cases parsed : ContainerLinkInfo.fromStr link.2 with
  | none =>
    refine ⟨next, rfl, .refl next, within, ?_⟩
    rintro addr ⟨-, info, isInfo, -⟩
    rw [parsed] at isInfo
    simp at isInfo
  | some info =>
    cases route : host.addr link.1 with
    | none =>
      refine ⟨next, rfl, .refl next, within, ?_⟩
      rintro addr ⟨isAddr, -⟩
      rw [route] at isAddr
      simp at isAddr
    | some addr =>
      dsimp only
      cases found : next.blockOf (((poolBlocks blocks).lookup info.pool).getD []) addr with
      | none =>
        refine ⟨next, rfl, .refl next, within, ?_⟩
        rintro addr' ⟨isAddr, info', isInfo, ab, listed, isPod, ref, cidr, net, inside⟩
        rw [route, Option.some.injEq] at isAddr
        rw [parsed, Option.some.injEq] at isInfo
        subst isAddr isInfo
        rcases registered ab listed with ⟨block, known⟩
        have same := agrees.unique ab.name _ cidr (within ab.name block known)
          (.inr ⟨ab, listed, rfl, net⟩)
        rw [← same] at inside
        rcases blockOf_isSome (mem_poolBlocks.mpr ⟨ab, listed, isPod, ref, rfl⟩) known inside
          with ⟨other, current, here⟩
        rw [found] at here
        simp at here
      | some pair =>
        rcases pair with ⟨holder, block⟩
        rcases blockOf_eq_some found with ⟨-, known, inside⟩
        have get := get_setAllocator next holder block
          (block.allocator.mark addr true (block.allocator.allocated + 1))
        refine ⟨next.setAllocator holder block
          (block.allocator.mark addr true (block.allocator.allocated + 1)), ?_, ?_, ?_, ?_⟩
        · dsimp only
          rw [Allocator.allocate_eq inside, if_neg (by simp)]
          rfl
        · intro other current stored
          rw [get]
          split_ifs with same
          · rw [same, known, Option.some.injEq] at stored
            subst stored
            refine ⟨_, rfl, fun other held => ?_⟩
            rw [Allocator.holds_mark inside]
            split_ifs
            · rfl
            · exact held
          · exact ⟨current, stored, fun _ held => held⟩
        · intro other current stored
          rw [get] at stored
          split_ifs at stored with same
          · rw [Option.some.injEq] at stored
            subst stored
            exact same ▸ within holder block known
          · exact within other current stored
        · rintro addr' ⟨isAddr, -⟩
          rw [route, Option.some.injEq] at isAddr
          subst isAddr
          refine ⟨holder, _, (get holder).trans (if_pos rfl), ?_⟩
          rw [Allocator.holds_mark inside, if_pos rfl]

theorem recover_returns (agrees : set.Agrees blocks) (host : Host) :
    ∃ next, recover host blocks set = .ok next ∧ set.Grows next ∧ set.Within blocks next ∧
      ∀ link ∈ host.links.entries, ∀ addr, Behind host blocks link addr → next.Held addr := by
  rcases recoverBlocks_returns agrees with ⟨registered, ran, grows, within, all⟩
  have links : ∃ next, host.links.entries.foldlM (recoverLink host (poolBlocks blocks)) registered =
      .ok next ∧ registered.Grows next ∧ set.Within blocks next ∧
      ∀ link ∈ host.links.entries, ∀ addr, Behind host blocks link addr → next.Held addr := by
    refine Outcome.foldlM_returns (fun (done : List (Sigma fun _ : String => String)) next =>
      registered.Grows next ∧ set.Within blocks next ∧
        ∀ link ∈ done, ∀ addr, Behind host blocks link addr → next.Held addr)
      ⟨.refl registered, within, by simp⟩ ?_
    rintro done link next - ⟨more, inside, marked⟩
    have there : ∀ ab ∈ blocks, ∃ block, next.get ab.name = some block := by
      intro ab listed
      rcases all ab listed with ⟨block, known⟩
      rcases more ab.name block known with ⟨current, stored, -⟩
      exact ⟨current, stored⟩
    rcases recoverLink_returns agrees host link inside there with ⟨final, step, most, last, here⟩
    refine ⟨final, step, more.trans most, last, fun other member => ?_⟩
    rcases List.mem_append.mp member with earlier | now
    · exact fun addr behind => most.held (marked other earlier addr behind)
    · rw [List.mem_singleton.mp now]
      exact here
  rcases links with ⟨next, returned, more, inside, marked⟩
  refine ⟨next, ?_, grows.trans more, inside, marked⟩
  rw [recover, ran, Outcome.ok_bind, returned]

end AllocatorSet

end Sart
