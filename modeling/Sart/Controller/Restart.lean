import Sart.Controller.BlockRequests
import Sart.Controller.Recovery

/-!
# Restarts of the controller

What the controller rebuilds from the objects is to be what it had in memory, and the next
block is to get a new name.  Memory and objects agree in every run (`Consistent`).  But a
pool that has a block gets a counter with the number of one of its blocks, and a service
pool whose name ends in a number stops the recovery.
-/

namespace Sart

open Sart.Lib Sart.Lib.Effect

/-- The events that concern blocks.  Whether the cleanup of a service block returns is decided by
the Services that use it.  A pod block may still be held by the agent of its node when the
controller has cleaned it up; then the object stays until the agent lets it go. -/
inductive BlockEvent where
  | reconcilePool (name : String)
  | request (br : BlockRequest)
  | cleanup (name : String) (released held : Bool)
  | letGo (name : String)

namespace BlockController

/-- A block that is cleaned up no longer has the finalizer of the controller, and is not cleaned up
again. -/
def cleanupBlock (name : String) (released held : Bool) (state : BlockController) :
    BlockController :=
  if name ∈ state.cleaned then state
  else
    match state.blocks.lookup name with
    | none => state
    | some ab =>
      match ab.type with
      | .service => if released then { state with blocks := state.blocks.erase name } else state
      | .pod =>
        match cleanupPod ab state with
        | (.ok _, next) =>
          if held then { next with cleaned := name :: next.cleaned }
          else { next with blocks := next.blocks.erase name }
        | (_, next) => next

/-- The agent takes its finalizer off a block.  The object goes if the controller has cleaned it
up. -/
def letGo (name : String) (state : BlockController) : BlockController :=
  if name ∈ state.cleaned then
    { state with
      blocks := state.blocks.erase name
      cleaned := state.cleaned.filter (· ≠ name) }
  else state

/-- The calls of the API succeed. -/
def apply (state : BlockController) : BlockEvent → BlockController
  | .reconcilePool name =>
    match state.pools.lookup name with
    | some ap => (BlockController.reconcilePool .succeed ap state).2
    | none => state
  | .request br => (reconcileRequest .succeed br state).2
  | .cleanup name released held => state.cleanupBlock name released held
  | .letGo name => state.letGo name

structure Fresh (state : BlockController) : Prop where
  keyed : ∀ name ap, state.pools.lookup name = some ap → ap.name = name
  blocks : state.blocks = ∅
  cleaned : state.cleaned = []
  pools : ∀ name pool, state.allocator.lookup name = some pool →
    ∃ ap, state.pools.lookup name = some ap ∧ ap.pool = .ok pool

def ServiceBlock (state : BlockController) (name : String) (ab : AddressBlock) : Prop :=
  ab.name = name ∧ ab.poolRef = name ∧ ab.type = .service ∧ ab.index = none ∧
    ∃ ap, state.pools.lookup name = some ap ∧ ap.type = .service

def PodBlock (state : BlockController) (name : String) (ab : AddressBlock) : Prop :=
  ab.name = name ∧ ab.type = .pod ∧ (∃ ap, state.pools.lookup ab.poolRef = some ap ∧
    ap.type = .pod) ∧
    (∃ count < 2 ^ 32, name = blockName ab.poolRef count) ∧
    ∃ pool index, state.allocator.lookup ab.poolRef = some pool ∧ ab.index = some index ∧
      index < pool.size ∧ (name ∉ state.cleaned → pool.uses index = true)

structure Consistent (state : BlockController) : Prop where
  keyed : ∀ name ap, state.pools.lookup name = some ap → ap.name = name
  pools : ∀ name pool, state.allocator.lookup name = some pool →
    ∃ ap fresh, state.pools.lookup name = some ap ∧ ap.pool = .ok fresh ∧ pool.size = fresh.size ∧
      pool.counter < 2 ^ 32
  blocks : ∀ name ab, state.blocks.lookup name = some ab →
    state.ServiceBlock name ab ∨ state.PodBlock name ab
  distinct : ∀ first second left right index, state.blocks.lookup first = some left →
    state.blocks.lookup second = some right → first ∉ state.cleaned → second ∉ state.cleaned →
    left.poolRef = right.poolRef → left.index = some index → right.index = some index →
    first = second

variable {state next : BlockController} {name : String} {ap : AddressPool} {ab : AddressBlock}
  {pool : Pool}

theorem Consistent.of_fresh (fresh : state.Fresh) : state.Consistent where
  keyed := fresh.keyed
  pools name pool found := by
    rcases fresh.pools name pool found with ⟨ap, object, made⟩
    refine ⟨ap, pool, object, made, rfl, ?_⟩
    unfold AddressPool.pool at made
    split at made
    · rw [(Pool.new_eq_ok made).2.2.2.1]
      decide
    · simp at made
  blocks name ab found := by
    rw [fresh.blocks, AList.lookup_empty] at found
    simp at found
  distinct first second left right index found := by
    rw [fresh.blocks, AList.lookup_empty] at found
    simp at found

theorem PodBlock.mono (pod : state.PodBlock name ab) (pools : next.pools = state.pools)
    (cleaned : name ∉ next.cleaned → name ∉ state.cleaned)
    (kept : ∀ pool index, state.allocator.lookup ab.poolRef = some pool → ab.index = some index →
      ∃ pool', next.allocator.lookup ab.poolRef = some pool' ∧ pool'.size = pool.size ∧
        (name ∉ next.cleaned → pool.uses index = true → pool'.uses index = true)) :
    next.PodBlock name ab := by
  rcases pod with ⟨named, isPod, object, numbered, pool, index, found, own, inside, used⟩
  rcases kept pool index found own with ⟨pool', found', size, used'⟩
  refine ⟨named, isPod, ?_, numbered, pool', index, found', own, ?_, fun here => ?_⟩
  · rwa [pools]
  · rwa [size]
  · exact used' here (used (cleaned here))

theorem ServiceBlock.mono (service : state.ServiceBlock name ab)
    (pools : next.pools = state.pools) :
    next.ServiceBlock name ab := by
  rw [ServiceBlock, pools]
  exact service

section

variable (consistent : state.Consistent)

include consistent

theorem Consistent.of_memory (pools : next.pools = state.pools)
    (blocks : next.blocks = state.blocks) (cleaned : next.cleaned = state.cleaned)
    (memory : ∀ name pool, next.allocator.lookup name = some pool →
      ∃ ap fresh, next.pools.lookup name = some ap ∧ ap.pool = .ok fresh ∧ pool.size = fresh.size ∧
        pool.counter < 2 ^ 32) (kept : ∀ name pool, state.allocator.lookup name = some pool →
      ∃ pool', next.allocator.lookup name = some pool' ∧ pool'.size = pool.size ∧
        ∀ index, pool.uses index = true → pool'.uses index = true) : next.Consistent := by
  refine ⟨?_, memory, ?_, ?_⟩
  · rw [pools]
    exact consistent.keyed
  · intro name ab found
    rw [blocks] at found
    rcases consistent.blocks name ab found with service | pod
    · exact .inl (service.mono pools)
    refine .inr (pod.mono pools (cleaned ▸ id) fun pool index found own => ?_)
    rcases kept ab.poolRef pool found with ⟨pool', found', size, uses⟩
    exact ⟨pool', found', size, fun _ => uses index⟩
  · rw [blocks, cleaned]
    exact consistent.distinct

theorem Consistent.insert (ab : AddressBlock)
    (object : state.ServiceBlock ab.name ab ∨ state.PodBlock ab.name ab)
    (alone : ∀ name other index, state.blocks.lookup name = some other → name ≠ ab.name →
      name ∉ state.cleaned → other.poolRef = ab.poolRef → ab.index = some index →
      other.index ≠ some index)
    (created : List String) :
    Consistent { state with blocks := state.blocks.insert ab.name ab, created := created } := by
  refine ⟨consistent.keyed, consistent.pools, ?_, ?_⟩
  · intro name other found
    rw [Table.lookup_insert] at found
    split_ifs at found with same
    · rw [Option.some.injEq] at found
      subst found same
      exact object
    · exact consistent.blocks name other found
  intro first second left right index foundLeft foundRight here there ref ownLeft ownRight
  rw [Table.lookup_insert] at foundLeft foundRight
  split_ifs at foundLeft foundRight with isFirst isSecond isSecond
  · rw [isFirst, isSecond]
  · rw [Option.some.injEq] at foundLeft
    subst foundLeft
    exact absurd ownRight (alone second right index foundRight isSecond there ref.symm ownLeft)
  · rw [Option.some.injEq] at foundRight
    subst foundRight
    exact absurd ownLeft (alone first left index foundLeft isFirst here ref ownRight)
  · exact consistent.distinct first second left right index foundLeft foundRight here there ref
      ownLeft ownRight

theorem Consistent.erase (name : String) {cleaned : List String}
    (others : ∀ other, other ≠ name → other ∉ cleaned → other ∉ state.cleaned) :
    Consistent { state with blocks := state.blocks.erase name, cleaned := cleaned } := by
  refine ⟨consistent.keyed, consistent.pools, ?_, ?_⟩
  · intro other ab found
    rcases Table.lookup_erase_eq_some.mp found with ⟨different, stored⟩
    rcases consistent.blocks other ab stored with service | pod
    · exact .inl (service.mono rfl)
    exact .inr (pod.mono rfl (others other different) fun pool _ known _ =>
      ⟨pool, known, rfl, fun _ => id⟩)
  intro first second left right index foundLeft foundRight here there
  rcases Table.lookup_erase_eq_some.mp foundLeft with ⟨left', storedLeft⟩
  rcases Table.lookup_erase_eq_some.mp foundRight with ⟨right', storedRight⟩
  exact consistent.distinct first second left right index storedLeft storedRight
    (others first left' here) (others second right' there)

variable {br : BlockRequest} {cidr : IpNet}

theorem Consistent.registerPool {fresh : Pool}
    (object : state.pools.lookup name = some ap) (made : ap.pool = .ok fresh)
    (zero : fresh.counter = 0) : (state.registerPool name fresh).Consistent := by
  unfold BlockController.registerPool
  split_ifs with unknown
  · refine consistent.of_memory rfl rfl rfl ?_ ?_
    · intro other pool found
      rw [Table.lookup_insert] at found
      split_ifs at found with same
      · rw [Option.some.injEq] at found
        subst found same
        exact ⟨ap, fresh, object, made, rfl, by omega⟩
      · exact consistent.pools other pool found
    intro other pool found
    refine ⟨pool, ?_, rfl, fun _ used => used⟩
    rw [Table.lookup_insert, if_neg ?_, found]
    rintro rfl
    rw [found] at unknown
    simp at unknown
  · exact consistent

theorem Consistent.serviceBlock
    (object : state.pools.lookup ap.name = some ap) (service : ap.type = .service) :
    Consistent { state with blocks := state.blocks.insert ap.name (serviceBlock ap) } := by
  refine consistent.insert (BlockController.serviceBlock ap) (.inl ?_) ?_ state.created
  · exact ⟨rfl, rfl, service, rfl, ap, object, service⟩
  · intro name other index _ _ _ _ own
    exact absurd own (by simp [BlockController.serviceBlock])

end

theorem pool_eq_new (found : ap.cidr = some cidr) :
    ap.pool = Pool.new cidr (ap.blockPrefixLen cidr) := by
  rw [AddressPool.pool, found]

theorem Consistent.reconcileServicePool (consistent : state.Consistent)
    (object : state.pools.lookup ap.name = some ap) (service : ap.type = .service) :
    (reconcileServicePool .succeed ap state).2.Consistent := by
  unfold BlockController.reconcileServicePool
  cases net : ap.cidr with
  | none => exact consistent
  | some cidr =>
    cases found : state.blocks.lookup ap.name with
    | some ab => simpa [bind_apply, lift, Outcome.ofOption, getBlock,
        BlockAnswers.succeed, found, pure_apply] using consistent
    | none =>
      have created := consistent.serviceBlock object service
      cases made : (Pool.new cidr (ap.blockPrefixLen cidr) : Outcome ControllerError Pool) with
      | ok fresh =>
        have registered := created.registerPool object
          ((pool_eq_new net).trans made) (Pool.new_eq_ok made).2.2.2.1
        simpa [bind_apply, lift, Outcome.ofOption, getBlock, createBlock,
          BlockAnswers.succeed, found, made, Effect.modify, BlockController.serviceBlock] using
          registered
      | error cause | panic =>
        simpa [bind_apply, lift, Outcome.ofOption, getBlock, createBlock,
          BlockAnswers.succeed, found, made, BlockController.serviceBlock] using created

theorem Consistent.reconcilePodPool (consistent : state.Consistent)
    (object : state.pools.lookup ap.name = some ap) : (reconcilePodPool ap state).2.Consistent := by
  unfold BlockController.reconcilePodPool
  cases net : ap.cidr with
  | none => exact consistent
  | some cidr =>
    rw [Outcome.ofOption, lift_ok_bind]
    split_ifs with short
    · exact consistent
    rw [bind_apply, Effect.read]
    dsimp only
    split_ifs with known
    · exact consistent
    cases made : (Pool.new cidr (ap.blockPrefixLen cidr) : Outcome ControllerError Pool) with
    | ok fresh =>
      exact consistent.registerPool object ((pool_eq_new net).trans made)
        (Pool.new_eq_ok made).2.2.2.1
    | error cause | panic => exact consistent

theorem Consistent.reconcilePool (consistent : state.Consistent)
    (object : state.pools.lookup ap.name = some ap) :
    (BlockController.reconcilePool .succeed ap state).2.Consistent := by
  unfold BlockController.reconcilePool
  cases type : ap.type with
  | service => exact consistent.reconcileServicePool object type
  | pod => exact consistent.reconcilePodPool object

theorem requestedPool_eq_ok {answers : BlockAnswers}
    (requested : state.requestedPool answers br = .ok (ap, cidr)) :
    state.pools.lookup br.pool = some ap ∧ ap.type = .pod := by
  unfold requestedPool at requested
  cases found : state.pools.lookup br.pool with
  | none =>
    rw [found] at requested
    simp at requested
  | some object =>
    rw [found] at requested
    dsimp only at requested
    split_ifs at requested with failed other
    split at requested
    · simp at requested
    split_ifs at requested
    rcases requested with ⟨rfl, -⟩
    exact ⟨rfl, not_not.mp other⟩

section

variable (consistent : state.Consistent)

include consistent

theorem Consistent.alike {next : BlockController} (alike : state.Alike next) : next.Consistent := by
  refine consistent.of_memory alike.pools alike.blocks alike.cleaned ?_ ?_
  · intro name pool found
    rw [alike.lookup] at found
    rw [alike.pools]
    exact consistent.pools name pool found
  · intro name pool found
    exact ⟨pool, (alike.lookup name).trans found, rfl, fun _ used => used⟩

variable {next : Pool}

theorem Consistent.withPool
    (found : state.allocator.lookup name = some pool) (size : next.size = pool.size)
    (counter : next.counter < 2 ^ 32)
    (uses : ∀ index, pool.uses index = true → next.uses index = true) :
    (state.withPool name next).Consistent := by
  refine consistent.of_memory rfl rfl rfl ?_ ?_
  · intro other current lookup
    rw [BlockController.withPool, Table.lookup_insert] at lookup
    split_ifs at lookup with same
    · rw [Option.some.injEq] at lookup
      subst lookup same
      rcases consistent.pools other pool found with ⟨ap, fresh, object, made, sameSize, -⟩
      exact ⟨ap, fresh, object, made, size.trans sameSize, counter⟩
    · exact consistent.pools other current lookup
  intro other current lookup
  rw [BlockController.withPool, Table.lookup_insert]
  split_ifs with same
  · subst same
    rw [found, Option.some.injEq] at lookup
    subst lookup
    exact ⟨next, rfl, size, uses⟩
  · exact ⟨current, lookup, rfl, fun _ used => used⟩

theorem Consistent.request (br : BlockRequest) :
    (reconcileRequest .succeed br state).2.Consistent := by
  by_cases idle : ∀ ap cidr pool index, ¬state.Taking .succeed br ap cidr pool index
  · exact consistent.alike (reconcileRequest_idle idle)
  push Not at idle
  rcases idle with ⟨ap, cidr, pool, index, taking⟩
  rcases requestedPool_eq_ok taking.requested with ⟨object, isPod⟩
  rw [← consistent.keyed _ _ object] at object
  rcases consistent.pools _ pool taking.found with ⟨-, -, -, -, -, small⟩
  rcases reconcileRequest_taking taking with
    ⟨next, sameCidr, sameBlockSize, uses, counter, done, stopped⟩
  have size : next.size = pool.size := by
    rw [Pool.size, Pool.size, sameCidr, sameBlockSize]
  have count : next.counter < 2 ^ 32 := by
    rw [counter]
    split_ifs with fits
    · exact fits
    · exact small
  have more : ∀ other, pool.uses other = true → next.uses other = true := by
    intro other used
    rw [uses]
    split_ifs
    · rfl
    · exact used
  have taken := consistent.withPool taking.found size count more
  by_cases completes : state.Completes .succeed ap cidr pool index
  · rcases done completes with ⟨block, final⟩
    rcases Pool.free_of_minimum taking.free with ⟨inside, unused⟩
    rw [final]
    refine taken.insert (blockObject ap br (blockName ap.name pool.counter) index block)
      (.inr ?_) ?_
      (state.created ++ [br.uid])
    · refine ⟨rfl, rfl, ⟨ap, object, isPod⟩, ⟨pool.counter, small, rfl⟩, next, index, ?_, rfl, ?_,
        ?_⟩
      · exact AList.lookup_insert _
      · rwa [size]
      · intro _
        rw [uses, if_pos rfl]
    -- The index was free, and the blocks of all other objects are in use.
    intro name other index' found _ kept ref own here
    rw [blockObject, Option.some.injEq] at own
    subst own
    rcases consistent.blocks name other found with service | pod
    · rw [service.2.2.2.1] at here
      simp at here
    rcases pod.2.2.2.2 with ⟨current, index', lookup, ownIndex, -, used⟩
    rw [here, Option.some.injEq] at ownIndex
    subst ownIndex
    rw [show other.poolRef = ap.name from ref, taking.found, Option.some.injEq] at lookup
    subst lookup
    exact Bool.false_ne_true (unused.symm.trans (used kept))
  · rw [stopped completes]
    exact taken

theorem Consistent.release {index : ℕ}
    (found : state.blocks.lookup name = some ab) (here : name ∉ state.cleaned)
    (own : ab.index = some index)
    (lookup : state.allocator.lookup ab.poolRef = some pool) (size : next.size = pool.size)
    (counter : next.counter = pool.counter)
    (uses : ∀ other, next.uses other = if other = index then false else pool.uses other) :
    Consistent { state.withPool ab.poolRef next with cleaned := name :: state.cleaned } := by
  refine ⟨consistent.keyed, ?_, ?_, ?_⟩
  · intro other current found
    rw [BlockController.withPool, Table.lookup_insert] at found
    split_ifs at found with same
    · rw [Option.some.injEq] at found
      subst found same
      rcases consistent.pools _ pool lookup with ⟨ap, fresh, object, made, sameSize, small⟩
      exact ⟨ap, fresh, object, made, size.trans sameSize, counter ▸ small⟩
    · exact consistent.pools other current found
  · intro other object present
    rcases consistent.blocks other object present with service | pod
    · exact .inl (service.mono rfl)
    refine .inr (pod.mono rfl (fun kept => (not_or.mp (List.mem_cons.not.mp kept)).2)
      fun current index' known own' => ?_)
    rw [BlockController.withPool, Table.lookup_insert]
    split_ifs with same
    · rw [same, lookup, Option.some.injEq] at known
      subst known
      refine ⟨next, rfl, size, fun kept used => ?_⟩
      rcases not_or.mp (List.mem_cons.not.mp kept) with ⟨different, there⟩
      rw [uses, if_neg ?_, used]
      rintro rfl
      exact different (consistent.distinct other name object ab index' present found there here
        same own' own)
    · exact ⟨current, known, rfl, fun _ => id⟩
  · intro first second left right index' foundLeft foundRight left' right'
    exact consistent.distinct first second left right index' foundLeft foundRight
      (not_or.mp (List.mem_cons.not.mp left')).2 (not_or.mp (List.mem_cons.not.mp right')).2

theorem Consistent.letGo (name : String) : (state.letGo name).Consistent := by
  unfold BlockController.letGo
  split_ifs
  · refine consistent.erase name fun other different kept => ?_
    simpa [different] using kept
  · exact consistent

theorem Consistent.cleanupBlock (name : String) (released held : Bool) :
    (state.cleanupBlock name released held).Consistent := by
  unfold BlockController.cleanupBlock
  by_cases here : name ∈ state.cleaned
  · rwa [if_pos here]
  rw [if_neg here]
  cases found : state.blocks.lookup name with
  | none => exact consistent
  | some ab =>
    dsimp only
    rcases consistent.blocks name ab found with service | pod
    · rw [service.2.2.1]
      dsimp only
      split_ifs
      · exact consistent.erase name fun _ _ => id
      · exact consistent
    rcases pod with ⟨-, isPod, -, -, pool, index, lookup, own, inside, -⟩
    rcases Pool.release_of_lt inside with ⟨next, ran, sameCidr, sameBlockSize, counter, uses⟩
    have size : next.size = pool.size := by
      rw [Pool.size, Pool.size, sameCidr, sameBlockSize]
    have cleaned : BlockController.cleanupPod ab state =
        (.ok ⟨⟩, state.withPool ab.poolRef next) := by
      rw [BlockController.cleanupPod, own]
      rw [lookup]
      dsimp only
      rw [ran]
      rfl
    rw [isPod]
    rw [cleaned]
    have marked := consistent.release found here own lookup size counter uses
    dsimp only
    split_ifs
    · exact marked
    · exact marked.erase name fun other different kept =>
        List.mem_cons.not.mpr (not_or.mpr ⟨different, kept⟩)

theorem Consistent.apply (event : BlockEvent) : (state.apply event).Consistent := by
  cases event with
  | reconcilePool name =>
    dsimp only [BlockController.apply]
    cases object : state.pools.lookup name with
    | none => exact consistent
    | some ap =>
      rw [← consistent.keyed name ap object] at object
      exact consistent.reconcilePool object
  | request br => exact consistent.request br
  | cleanup name released held => exact consistent.cleanupBlock name released held
  | letGo name => exact consistent.letGo name

end

theorem Fresh.consistent (fresh : state.Fresh) (events : List BlockEvent) :
    (events.foldl BlockController.apply state).Consistent :=
  List.foldlRecOn events BlockController.apply (Consistent.of_fresh fresh) fun _ consistent event
    _ =>
    consistent.apply event

structure Lists (state : BlockController) (poolList : List AddressPool)
    (blockList : List AddressBlock) : Prop where
  pools : ∀ ap, ap ∈ poolList ↔ ∃ name, state.pools.lookup name = some ap
  blocks : ∀ ab, ab ∈ blockList ↔ ∃ name, state.blocks.lookup name = some ab

/-- The recovery returns, the same blocks of the pod pools are in use, and their next blocks get new
names. -/
def Restores (state : BlockController) (poolList : List AddressPool)
    (blockList : List AddressBlock) : Prop :=
  ∃ after, recoverOrCreate poolList blockList = .ok after ∧
    ∀ name ap, state.pools.lookup name = some ap → ap.type = .pod →
      ∃ pool, after.lookup name = some pool ∧ (∀ index, pool.uses index = state.uses name index) ∧
        state.blocks.lookup (blockName name pool.counter) = none

/-- The pools can be made, no service block has a name that ends in a number, no object of a pod
block is left, and no block of a pod pool is in use. -/
structure Recoverable (state : BlockController) : Prop where
  pods : ∀ name ab, state.blocks.lookup name = some ab → ab.type ≠ .pod
  pools : ∀ name ap, state.pools.lookup name = some ap → ∃ fresh, ap.pool = .ok fresh
  services : ∀ name ab, state.blocks.lookup name = some ab → ab.type = .service →
    blockNumber name = none
  unused : ∀ name ap index, state.pools.lookup name = some ap → ap.type = .pod →
    state.uses name index = false

variable {poolList : List AddressPool} {blockList : List AddressBlock}
  {pools after : AList fun _ : String => Pool}

section

variable (consistent : state.Consistent) (lists : state.Lists poolList blockList)

include consistent lists

theorem Consistent.inserted (returned : poolList.foldlM Recovery.insertPool ∅ = .ok pools)
    (object : state.pools.lookup name = some ap) :
    ∃ fresh, ap.pool = .ok fresh ∧ pools.lookup name = some fresh := by
  have inserted := Recovery.insertPools_inserted returned
  rcases inserted.known ap ((lists.pools ap).mpr ⟨name, object⟩) with ⟨fresh, found⟩
  rw [consistent.keyed name ap object] at found
  rcases inserted.made name fresh found with ⟨other, listed, named, made⟩
  rcases (lists.pools other).mp listed with ⟨key, stored⟩
  have same : key = name := (consistent.keyed key other stored).symm.trans named
  rw [same, object, Option.some.injEq] at stored
  subst stored
  exact ⟨fresh, made, found⟩

theorem Consistent.fits (returned : poolList.foldlM Recovery.insertPool ∅ = .ok pools) :
    Recovery.Fits ⟨pools, ∅⟩ blockList := by
  intro ab listed
  rcases (lists.blocks ab).mp listed with ⟨name, found⟩
  rcases consistent.blocks name ab found with service | pod
  · rcases service with ⟨-, ref, -, none, ap, object, -⟩
    rcases consistent.inserted lists returned object with ⟨fresh, -, lookup⟩
    refine ⟨fresh, ref ▸ lookup, fun index own => ?_⟩
    rw [none] at own
    simp at own
  rcases pod with ⟨-, -, -, -, pool, index, known, own, inside, -⟩
  rcases consistent.pools ab.poolRef pool known with ⟨ap, fresh, object, made, size, -⟩
  rcases consistent.inserted lists returned object with ⟨fresh', made', lookup⟩
  rw [made, Outcome.ok.injEq] at made'
  subst made'
  refine ⟨fresh, lookup, fun index' own' => ?_⟩
  rw [own, Option.some.injEq] at own'
  rwa [← own', ← size]

theorem Consistent.rebuilt_pool (returned : recoverOrCreate poolList blockList = .ok after)
    (object : state.pools.lookup name = some ap) :
    ∃ pool, after.lookup name = some pool ∧
      (∀ index, pool.uses index = true ↔ ∃ ab ∈ blockList, Recovery.Marks ab name index) ∧
      ((∃ ab ∈ blockList, ab.poolRef = name ∧ blockNumber ab.name = some pool.counter) ∨
        pool.counter = 0 ∧ ∀ ab ∈ blockList, ab.poolRef = name → blockNumber ab.name = none) := by
  rcases Outcome.bind_eq_ok.mp returned with ⟨pools, made, returned⟩
  rcases Outcome.bind_eq_ok.mp returned with ⟨recovery, ran, returned⟩
  rw [Outcome.ok.injEq] at returned
  subst returned
  have rebuilt := Recovery.recoverBlocks_rebuilt (consistent.fits lists made) ran
  rcases consistent.inserted lists made object with ⟨fresh, madeFresh, lookup⟩
  have unused : fresh.counter = 0 ∧ ∀ index, fresh.uses index = false := by
    unfold AddressPool.pool at madeFresh
    split at madeFresh
    · exact (Pool.new_eq_ok madeFresh).2.2.2
    · simp at madeFresh
  rcases rebuilt.pools name fresh lookup with ⟨pool, found, -, counter, uses⟩
  refine ⟨{ pool with counter := (recovery.counters.lookup name).getD pool.counter }, ?_, ?_, ?_⟩
  · rw [Recovery.lookup_setCounters, found, Option.map_some]
  · intro index
    have marks := uses index
    rw [unused.2 index, or_iff_right Bool.false_ne_true] at marks
    exact marks
  · cases counted : recovery.counters.lookup name with
    | some number =>
      rcases rebuilt.attained name number counted with initial | attained
      · simp at initial
      · exact .inl attained
    | none =>
      refine .inr ⟨counter.trans unused.1, fun ab listed ref => ?_⟩
      by_contra numbered
      exact rebuilt.counted ab listed numbered (ref ▸ counted)

theorem Consistent.recover_returns : (∃ after, recoverOrCreate poolList blockList = .ok after) ↔
      (∀ name ap, state.pools.lookup name = some ap → ∃ fresh, ap.pool = .ok fresh) ∧
        ∀ name ab, state.blocks.lookup name = some ab → ab.type = .service →
          blockNumber name = none := by
  constructor
  · rintro ⟨after, returned⟩
    rcases Outcome.bind_eq_ok.mp returned with ⟨pools, made, returned⟩
    rcases Outcome.bind_eq_ok.mp returned with ⟨recovery, ran, -⟩
    have rebuilt := Recovery.recoverBlocks_rebuilt (consistent.fits lists made) ran
    refine ⟨fun name ap object => ?_, fun name ab found isService => ?_⟩
    · exact (Recovery.insertPools_inserted made).valid ap ((lists.pools ap).mpr ⟨name, object⟩)
    rcases consistent.blocks name ab found with service | pod
    · by_contra numbered
      rw [← service.1] at numbered
      exact rebuilt.indexed ab ((lists.blocks ab).mpr ⟨name, found⟩) numbered service.2.2.2.1
    · rw [pod.2.1] at isService
      simp at isService
  · rintro ⟨valid, unnumbered⟩
    have made : ∀ ap ∈ poolList, ∃ fresh, ap.pool = .ok fresh := by
      intro ap listed
      rcases (lists.pools ap).mp listed with ⟨name, object⟩
      exact valid name ap object
    rcases Recovery.insertPools_returns made with ⟨pools, returned⟩
    have indexed : ∀ ab ∈ blockList, blockNumber ab.name ≠ none → ab.index ≠ none := by
      intro ab listed numbered
      rcases (lists.blocks ab).mp listed with ⟨name, found⟩
      rcases consistent.blocks name ab found with service | pod
      · rw [service.1] at numbered
        exact absurd (unnumbered name ab found service.2.2.1) numbered
      rcases pod.2.2.2.2 with ⟨_, index, -, own, -⟩
      rw [own]
      simp
    rcases Recovery.recoverBlocks_returns (consistent.fits lists returned) indexed with
      ⟨recovery, ran, -⟩
    refine ⟨_, Outcome.bind_eq_ok.mpr ⟨pools, returned,
      Outcome.bind_eq_ok.mpr ⟨recovery, ran, rfl⟩⟩⟩

end

theorem Recoverable.service (recoverable : state.Recoverable) (consistent : state.Consistent)
    {ab : AddressBlock} (found : state.blocks.lookup name = some ab) :
    state.ServiceBlock name ab ∧ blockNumber name = none := by
  rcases consistent.blocks name ab found with service | pod
  · exact ⟨service, recoverable.services name ab found service.2.2.1⟩
  exact absurd pod.2.1 (recoverable.pods name ab found)

theorem Consistent.restores_of_recoverable (consistent : state.Consistent)
    (lists : state.Lists poolList blockList) (recoverable : state.Recoverable) :
    state.Restores poolList blockList := by
  have returns := (consistent.recover_returns lists).mpr ⟨recoverable.pools, recoverable.services⟩
  rcases returns with ⟨after, returned⟩
  refine ⟨after, returned, fun name ap object isPod => ?_⟩
  have unnumbered : ∀ ab ∈ blockList, blockNumber ab.name = none := by
    intro ab listed
    rcases (lists.blocks ab).mp listed with ⟨key, found⟩
    rcases recoverable.service consistent found with ⟨service, none⟩
    rw [service.1, none]
  rcases consistent.rebuilt_pool lists returned object with ⟨pool, lookup, uses, counter⟩
  refine ⟨pool, lookup, fun index => ?_, ?_⟩
  · rw [recoverable.unused name ap index object isPod, ← Bool.not_eq_true, uses]
    rintro ⟨ab, listed, marks⟩
    exact marks.1 (unnumbered ab listed)
  rcases counter with ⟨ab, listed, -, number⟩ | ⟨zero, -⟩
  · rw [unnumbered ab listed] at number
    simp at number
  rw [zero]
  cases found : state.blocks.lookup (blockName name 0) with
  | none => rfl
  | some ab =>
    have none := (recoverable.service consistent found).2
    rw [blockNumber_blockName name (by decide)] at none
    simp at none

theorem Consistent.recoverable_of_restores (consistent : state.Consistent)
    (lists : state.Lists poolList blockList) (restores : state.Restores poolList blockList) :
    state.Recoverable := by
  rcases restores with ⟨after, returned, restored⟩
  rcases (consistent.recover_returns lists).mp ⟨after, returned⟩ with ⟨valid, unnumbered⟩
  -- the counter of a pool with a block is the number of a block that is there
  have unlisted : ∀ name ap, state.pools.lookup name = some ap → ap.type = .pod →
      ∀ ab ∈ blockList, ab.poolRef = name → blockNumber ab.name = none := by
    intro name ap object isPod
    rcases restored name ap object isPod with ⟨pool, lookup, -, free⟩
    rcases consistent.rebuilt_pool lists returned object with ⟨pool', lookup', -, counter⟩
    rw [lookup, Option.some.injEq] at lookup'
    subst lookup'
    rcases counter with ⟨ab, listed, ref, number⟩ | ⟨-, none⟩
    swap
    · exact none
    rcases (lists.blocks ab).mp listed with ⟨key, found⟩
    rcases consistent.blocks key ab found with service | pod
    · rcases service with ⟨-, ref', -, -, ap', object', isService⟩
      rw [← ref', ref, object, Option.some.injEq] at object'
      rw [object', isService] at isPod
      simp at isPod
    rcases pod with ⟨named, -, -, ⟨count, small, key_eq⟩, -⟩
    rw [named, key_eq, blockNumber_blockName _ small, Option.some.injEq] at number
    rw [key_eq, number, ref, free] at found
    simp at found
  refine ⟨fun name ab found isPod => ?_, valid, unnumbered, fun name ap index object isPod => ?_⟩
  · rcases consistent.blocks name ab found with service | pod
    · rw [service.2.2.1] at isPod
      cases isPod
    rcases pod with ⟨named, -, ⟨ap, object, ofPod⟩, ⟨count, small, numbered⟩, -⟩
    have none := unlisted ab.poolRef ap object ofPod ab ((lists.blocks ab).mpr ⟨name, found⟩) rfl
    rw [named, numbered, blockNumber_blockName _ small] at none
    cases none
  · rcases restored name ap object isPod with ⟨pool, lookup, same, -⟩
    rcases consistent.rebuilt_pool lists returned object with ⟨pool', lookup', uses, -⟩
    rw [lookup, Option.some.injEq] at lookup'
    subst lookup'
    rw [← same, ← Bool.not_eq_true, uses]
    rintro ⟨holder, listed, marks⟩
    exact marks.1 (unlisted name ap object isPod holder listed marks.2.1)

theorem mem_values {α : Type} (table : AList fun _ : String => α) (value : α) :
    value ∈ table.entries.map Sigma.snd ↔ ∃ name, table.lookup name = some value := by
  constructor
  · intro member
    rcases List.mem_map.mp member with ⟨entry, stored, rfl⟩
    exact ⟨entry.1, AList.mem_lookup_iff.mpr stored⟩
  · rintro ⟨name, found⟩
    exact List.mem_map.mpr ⟨⟨name, value⟩, AList.mem_lookup_iff.mp found, rfl⟩

theorem lists_entries (state : BlockController) :
    state.Lists (state.pools.entries.map Sigma.snd) (state.blocks.entries.map Sigma.snd) :=
  ⟨mem_values state.pools, mem_values state.blocks⟩

/-- After any run from a cluster without blocks, a restart brings the pools back as they were and
with new names for new blocks exactly if the pools can be made, no service block has a name that
ends in a number, no object of a pod block is left, and no block of a pod pool is in use. -/
theorem restores_iff {state : BlockController} (fresh : state.Fresh) (events : List BlockEvent)
    {poolList : List AddressPool} {blockList : List AddressBlock}
    (lists : (events.foldl apply state).Lists poolList blockList) :
    (events.foldl apply state).Restores poolList blockList ↔
      (events.foldl apply state).Recoverable :=
  ⟨(fresh.consistent events).recoverable_of_restores lists,
    (fresh.consistent events).restores_of_recoverable lists⟩

def sampleCluster : BlockController where
  pools := (AList.singleton "pod" samplePodPool).insert "lan"
    ⟨"lan", some sampleNet, .service, none, none⟩
  blocks := ∅
  allocator := ∅
  created := []

theorem fresh_sampleCluster : sampleCluster.Fresh where
  keyed name ap found := by
    have all : ∀ entry ∈ sampleCluster.pools.entries, entry.2.name = entry.1 := by decide
    exact all ⟨name, ap⟩ (AList.mem_lookup_iff.mp found)
  blocks := rfl
  cleaned := rfl
  pools name pool found := by
    rw [sampleCluster, AList.lookup_empty] at found
    simp at found

def sampleRun : List BlockEvent :=
  [.reconcilePool "pod", .reconcilePool "lan", .request (sampleBlockRequest "a"),
    .cleanup "pod-0" true true,
    .letGo "pod-0"]

theorem restores_after_cleanup : (sampleRun.foldl apply sampleCluster).Restores
      ((sampleRun.foldl apply sampleCluster).pools.entries.map Sigma.snd)
      ((sampleRun.foldl apply sampleCluster).blocks.entries.map Sigma.snd) := by
  refine (restores_iff fresh_sampleCluster _ (lists_entries _)).mpr ⟨?_, ?_, ?_, ?_⟩
  · intro name ab found
    have all : ∀ entry ∈ (sampleRun.foldl apply sampleCluster).blocks.entries,
        entry.2.type ≠ .pod := by decide
    exact all ⟨name, ab⟩ (AList.mem_lookup_iff.mp found)
  · intro name ap object
    have all : ∀ entry ∈ (sampleRun.foldl apply sampleCluster).pools.entries,
        entry.2.pool.isOk = true := by decide
    exact Outcome.isOk_iff.mp (all ⟨name, ap⟩ (AList.mem_lookup_iff.mp object))
  · intro name ab found _
    have all : ∀ entry ∈ (sampleRun.foldl apply sampleCluster).blocks.entries,
        blockNumber entry.1 = none := by decide
    exact all ⟨name, ab⟩ (AList.mem_lookup_iff.mp found)
  · intro name ap index _ _
    have all : ∀ entry ∈ (sampleRun.foldl apply sampleCluster).allocator.entries,
        (entry.2.allocator.inner.map BitVec.toNat).sum = 0 := by decide
    cases found : (sampleRun.foldl apply sampleCluster).allocator.lookup name with
    | none => rw [uses, found, Option.any_none]
    | some pool =>
      rw [uses_of_lookup found]
      exact (Words.sum_eq_zero_iff (by decide) _).mp
        (all ⟨name, pool⟩ (AList.mem_lookup_iff.mp found)) index

/-- With one block in use, the next block gets the name of that block. -/
theorem not_restores_of_request : sampleCluster.Fresh ∧
    ¬([.reconcilePool "pod", .request (sampleBlockRequest "a")].foldl apply sampleCluster).Restores
      (([.reconcilePool "pod", .request (sampleBlockRequest "a")].foldl apply
        sampleCluster).pools.entries.map Sigma.snd)
      (([.reconcilePool "pod", .request (sampleBlockRequest "a")].foldl apply
        sampleCluster).blocks.entries.map Sigma.snd) := by
  refine ⟨fresh_sampleCluster, fun restores => ?_⟩
  have recoverable := (fresh_sampleCluster.consistent _).recoverable_of_restores (lists_entries _)
    restores
  have unused := recoverable.unused "pod" samplePodPool 0 (by decide) rfl
  exact absurd unused (by decide)

/-- After any run from a cluster without blocks, a pod block that the controller has not cleaned up
has an index that is in use in its pool, and it is the only such block of the pool with this
index. -/
theorem run_pod_index {state : BlockController} (fresh : state.Fresh) (events : List BlockEvent)
    {name : String} {ab : AddressBlock}
    (found : (events.foldl apply state).blocks.lookup name = some ab) (isPod : ab.type = .pod)
    (kept : name ∉ (events.foldl apply state).cleaned) : ∃ index, ab.index = some index ∧
    (events.foldl apply state).uses ab.poolRef index = true ∧
      ∀ other block, (events.foldl apply state).blocks.lookup other = some block →
        other ∉ (events.foldl apply state).cleaned → block.poolRef = ab.poolRef →
          block.index = some index → other = name := by
  have consistent := fresh.consistent events
  rcases consistent.blocks name ab found with service | pod
  · rw [service.2.2.1] at isPod
    cases isPod
  rcases pod.2.2.2.2 with ⟨pool, index, lookup, own, -, used⟩
  refine ⟨index, own, (uses_of_lookup lookup index).trans (used kept),
    fun other block found' there ref own' => ?_⟩
  exact consistent.distinct other name block ab index found' found there kept ref own' own

theorem run_pod_index_request : ∃ index, ([.reconcilePool "pod",
    .request (sampleBlockRequest "a")].foldl apply sampleCluster).uses "pod" index = true := by
  rcases run_pod_index fresh_sampleCluster [.reconcilePool "pod", .request (sampleBlockRequest "a")]
    (show AList.lookup "pod-0" _ = some ⟨"pod-0", _, .pod, "pod", _, _, _⟩ from rfl) rfl
    (by decide) with ⟨index, -, used, -⟩
  exact ⟨index, used⟩

end BlockController

end Sart
