import Sart.Agent.PodSafety

/-!
# Pods and their pools

A pod gets an address from a block of its pool where the block is found among the registered
ones.  A call that waits takes the first notice, which may be of a block of another pool.

The last part is about the default pool, from which a pod gets its address if neither the pod nor
its namespace names a pool.
-/

namespace Sart

open Sart.Lib

def AllocatorSet.Keyed (set : AllocatorSet) : Prop :=
  ∀ name block, set.get name = some block → block.name = name

namespace Node

inductive Grants (node : Node) : NodeEvent → PodInfo → String → PodAllocation → Prop
  | add {call : PodCall} {requested : Bool} {pool : String} {alloc : PodAllocation} {next : Node}
      (idle : node.waiting = none) (called : node.allocators.getPool call = .ok pool)
      (ran : Node.add call requested node = (.ok ⟨⟩, next)) (done : next.waiting = none)
      (stored : next.allocation.lookup call.info.key = some alloc) :
      Grants node (.add call requested) call.info pool alloc
  | resume {deleted links : Bool} {info : PodInfo} {pool : String} {alloc : PodAllocation}
      {next : Node}
      (waits : node.waiting = some (info, pool))
      (ran : Node.resume deleted links node = (.ok ⟨⟩, next)) (done : next.waiting = none)
      (stored : next.allocation.lookup info.key = some alloc) :
      Grants node (.resume deleted links) info pool alloc

def OwnPool (node : Node) (event : NodeEvent) : Prop :=
  ∀ info pool alloc, Grants node event info pool alloc →
    ∃ block, node.allocators.get alloc.block = some block ∧ block.poolName = pool ∧
      block.allocator.cidr.contains alloc.addr = true

/-- The condition on a step: the block of the notice that a waiting call takes is of its pool, if
the call can take an address of it. -/
def Matching (node : Node) : NodeEvent → Prop
  | .resume deleted links => ∀ waiting ∈ node.waiting, ∀ name ∈ node.notices.head?,
      ∀ block ∈ node.allocators.get name, deleted = true → links = true →
        block.allocator.isFull = false → block.poolName = waiting.2
  | _ => True

instance (node : Node) : (event : NodeEvent) → Decidable (node.Matching event)
  | .resume deleted links => inferInstanceAs (Decidable (∀ waiting ∈ node.waiting,
      ∀ name ∈ node.notices.head?, ∀ block ∈ node.allocators.get name, deleted = true →
        links = true → block.allocator.isFull = false → block.poolName = waiting.2))
  | .add .. | .cancel | .del .. | .reconcile .. | .cleanup _ | .gcCheck _ | .gcDelete .. =>
    isTrue trivial

variable {node : Node} {set : AllocatorSet} {wraps : Bool} {name : String} {block : Block}

theorem keyed_setAllocator (keyed : set.Keyed) (found : set.get name = some block)
    (allocator : Allocator) : (set.setAllocator name block allocator).Keyed := by
  intro other current lookup
  rw [AllocatorSet.get_setAllocator] at lookup
  split_ifs at lookup with same
  · rw [Option.some.injEq] at lookup
    subst lookup same
    exact keyed other block found
  · exact keyed other current lookup

section

variable (keyed : node.allocators.Keyed)

include keyed

theorem keyed_del (call : PodCall) (deleted : Bool) :
    (Node.del wraps call deleted node).2.allocators.Keyed := by
  rcases del_cases wraps call deleted node with
    ⟨outcome, ran⟩ | ⟨alloc, block, -, found, -, ⟨-, ran⟩ | ⟨outcome, ran | ⟨-, ran⟩⟩⟩ <;>
    rw [ran]
  · exact keyed
  all_goals exact keyed_setAllocator keyed found _

theorem keyed_cleanupBlock (ab : AddressBlock) :
    (Node.cleanupBlock wraps ab node).2.allocators.Keyed := by
  rcases cleanupBlock_cases wraps ab node with ⟨outcome, ran⟩ | ⟨block, -, -, ran⟩ <;> rw [ran]
  · exact keyed
  · intro name block found
    exact keyed name block (Table.lookup_erase_eq_some.mp found).2

theorem keyed_reconcileBlock (ab : AddressBlock) (answers : Bool) :
    (Node.reconcileBlock ab answers node).2.allocators.Keyed := by
  rcases reconcileBlock_cases ab answers node with
    ⟨autoAssign, -, run⟩ | ⟨cidr, block, autoAssign, -, -, made, -, run⟩ <;> rw [run]
  · exact keyed
  intro name other found
  rw [show (node.addBlock ab block autoAssign).allocators.get name = _ from
    Table.lookup_insert _ _ _ _] at found
  split_ifs at found with same
  · rw [Option.some.injEq] at found
    subst found same
    exact Block.name_of_new made
  · exact keyed name other found

theorem keyed_apply (event : NodeEvent) : (node.apply wraps event).allocators.Keyed := by
  cases event with
  | add call requested =>
    dsimp only [Node.apply]
    split_ifs
    · exact keyed
    rcases add_cases call requested node with
      ⟨cause, run⟩ | ⟨pool, -, run⟩ | ⟨pool, name, block, addr, -, free, -, run⟩ <;> rw [run]
    · exact keyed
    · exact keyed
    · exact keyed_setAllocator keyed (firstFree_eq_some free).2 _
  | resume deleted links =>
    dsimp only [Node.apply]
    rcases resume_cases deleted links node with
      ⟨-, run⟩ | ⟨info, pool, name, rest, -, -, ⟨cause, run⟩ |
        ⟨block, addr, found, -, -, -, run⟩⟩ <;> rw [run]
    · exact keyed
    · exact keyed
    · exact keyed_setAllocator keyed found _
  | cancel => exact keyed
  | del call deleted =>
    dsimp only [Node.apply]
    split_ifs
    · exact keyed
    · exact keyed_del keyed call deleted
  | reconcile ab answers => exact keyed_reconcileBlock keyed ab answers
  | cleanup ab => exact keyed_cleanupBlock keyed ab
  | gcCheck listed =>
    rcases gcCheck_final wraps listed node with ⟨markers, deleting, ran⟩
    exact show (node.gcCheck wraps listed).allocators.Keyed from ran ▸ keyed
  | gcDelete name deleted =>
    rcases gcDelete_final name deleted node with ⟨markers, deleting, lost, ran⟩
    exact show (node.gcDelete name deleted).allocators.Keyed from ran ▸ keyed

end

theorem poolName_of_firstFree (keyed : set.Keyed) {pool : String}
    (free : set.firstFree pool = some (name, block)) : block.poolName = pool := by
  rcases firstFree_eq_some free with ⟨member, found⟩
  rw [AllocatorSet.blockNames, (List.perm_insertionSort _ _).mem_iff] at member
  rcases List.mem_map.mp member with ⟨entry, listed, named⟩
  rcases List.mem_filter.mp listed with ⟨stored, ofPool⟩
  have known : set.get entry.1 = some entry.2 := AList.mem_lookup_iff.mpr stored
  rw [← keyed entry.1 entry.2 known, named, found, Option.some.injEq] at known
  rw [known]
  exact of_decide_eq_true ofPool

theorem lookup_taken (node : Node) (info : PodInfo) (name : String) (block : Block)
    (addr : IpAddr) :
    (node.taken info name block addr).allocation.lookup info.key =
      some ⟨info.containerId, name, addr, block.allocator.cidr.prefixLen⟩ :=
  AList.lookup_insert _

theorem ownPool_add (keyed : node.allocators.Keyed) (call : PodCall) (requested : Bool) :
    node.OwnPool (.add call requested) := by
  rintro info pool alloc ⟨idle, called, ran, done, stored⟩
  rcases add_cases call requested node with
    ⟨cause, run⟩ | ⟨pool', -, run⟩ | ⟨pool', name, block, addr, called', free, isFree, run⟩ <;>
    rw [run] at ran
  · simp at ran
  · simp only [Prod.mk.injEq, true_and] at ran
    rw [← ran] at done
    simp at done
  · rw [Prod.mk.injEq] at ran
    rw [← ran.2, lookup_taken, Option.some.injEq] at stored
    rw [called, Outcome.ok.injEq] at called'
    subst called' stored
    exact ⟨block, (firstFree_eq_some free).2, poolName_of_firstFree keyed free, isFree.1⟩

theorem ownPool_resume_iff (deleted links : Bool) :
    node.OwnPool (.resume deleted links) ↔ node.Matching (.resume deleted links) := by
  constructor
  · rintro own ⟨info, pool⟩ waits name head block found rfl rfl room
    rcases notices : node.notices with _ | ⟨first, rest⟩
    · rw [notices] at head
      simp at head
    rw [notices, List.head?_cons, Option.mem_def, Option.some.injEq] at head
    subst head
    have through := @resume_of_notice pool first block true node info rest waits notices found room
    rcases through with ⟨addr, -, ran⟩
    rcases own info pool _ (.resume waits ran rfl (lookup_taken _ _ _ _ _)) with
      ⟨holder, known, ofPool, -⟩
    rw [Option.mem_def.mp found, Option.some.injEq] at known
    rw [known]
    exact ofPool
  · intro matching info pool alloc grants
    cases grants with
    | resume waits ran done stored =>
      rcases resume_cases deleted links node with
        ⟨-, run⟩ | ⟨info', pool', name, rest, waits', notices, ⟨cause, run⟩ |
          ⟨block, addr, found, isFree, isDeleted, room, run⟩⟩ <;> rw [run] at ran
      · simp only [Prod.mk.injEq, true_and] at ran
        rw [← ran, waits] at done
        simp at done
      · simp at ran
      · rw [Prod.mk.injEq] at ran
        rw [waits, Option.some.injEq, Prod.mk.injEq] at waits'
        rcases waits' with ⟨rfl, rfl⟩
        rw [← ran.2, lookup_taken, Option.some.injEq] at stored
        subst stored
        have linked : links = true := by
          cases links with
          | true => rfl
          | false => simp [linksDone] at ran
        have head : name ∈ node.notices.head? := by rw [notices, List.head?_cons]; rfl
        exact ⟨block, found, matching _ waits name head block found isDeleted linked room, isFree.1⟩

theorem ownPool_iff (keyed : node.allocators.Keyed) (event : NodeEvent) :
    node.OwnPool event ↔ node.Matching event := by
  cases event with
  | add call requested => exact iff_of_true (ownPool_add keyed call requested) trivial
  | resume deleted links => exact ownPool_resume_iff deleted links
  | cancel | del call deleted | reconcile ab answers | cleanup ab | gcCheck listed
  | gcDelete name deleted =>
    exact iff_of_true (by rintro _ _ _ ⟨⟩) trivial

/-- All addresses that are given away in a run are from blocks of the pods' pools exactly if the
notices that waiting calls take are of blocks of their pools, where they can take an address. -/
theorem ownPool_iff_matching {wraps : Bool} {node : Node} (keyed : node.allocators.Keyed)
    (events : List NodeEvent) :
    AllSteps (apply wraps) OwnPool node events ↔ AllSteps (apply wraps) Matching node events :=
  allSteps_congr (fun node => node.allocators.Keyed) (fun _ event keyed => keyed_apply keyed event)
    (fun _ event keyed => ownPool_iff keyed event) keyed

theorem keyed_initial : initial.allocators.Keyed := by
  intro name block found
  exact absurd found (by simp [initial, AllocatorSet.get, AllocatorSet.empty])

theorem ownPool_of_own_block :
    AllSteps (apply true) OwnPool initial
      [.add (samplePod "a") true, .reconcile sampleNodeBlock true, .resume true true] :=
  (ownPool_iff_matching keyed_initial _).mpr (by decide)

/-- The notice of a block of another pool is there before the pod comes. -/
theorem not_ownPool_of_other_notice :
    ¬AllSteps (apply true) OwnPool initial
      [.reconcile { sampleNodeBlock with poolRef := "other" } true, .add (samplePod "a") true,
        .resume true true] := by
  intro all
  have matching := (ownPool_resume_iff true true).mp all.2.2.1
  exact absurd matching (by decide)

/-! ### The default pool

The default pool is the pool of a registered block.  When a block is removed, its name is compared
with the name of the pool, so that the default pool outlives its last block. -/

def HasBlock (node : Node) (pool : String) : Prop :=
  ∃ name block, node.allocators.get name = some block ∧ block.poolName = pool

/-- The default pool has a block; and once it has none, a new block of another pool that is to be
the default one is accepted, and pods without an annotation get this pool. -/
structure DefaultValid (node : Node) : Prop where
  registered : ∀ pool, node.allocators.autoAssign = some pool → node.HasBlock pool
  replaced : (∀ pool, node.allocators.autoAssign = some pool → ¬node.HasBlock pool) →
    ∀ ab cidr block, ab.type = .pod → ab.cidr = some cidr → ab.nodeRef.isSome →
      ab.autoAssign = true → node.allocators.get ab.name = none →
      Block.new ab.name ab.poolRef cidr = .ok block →
      (reconcileBlock ab true node).1 = .ok ⟨⟩ ∧ ∀ call : PodCall, call.poolAnnotation = none →
        call.namespaceAnswer = some none →
          (reconcileBlock ab true node).2.allocators.getPool call = .ok ab.poolRef

/-- A reconcile that makes the pool of a registered block the default one finds a block of the pool,
and a cleanup that takes a block of it leaves another one, or the block has the name of the pool. -/
def KeepsDefault (node : Node) : NodeEvent → Prop
  | .reconcile ab _ => node.allocators.get ab.name ≠ none → ab.autoAssign = true →
    node.allocators.autoAssign = none → node.HasBlock ab.poolRef
  | .cleanup ab => ∀ block, node.allocators.get ab.name = some block →
    node.allocators.autoAssign = some block.poolName → ab.name = block.poolName ∨
      ∃ name other, name ≠ ab.name ∧ node.allocators.get name = some other ∧
        other.poolName = block.poolName
  | _ => False

variable {event : NodeEvent}

theorem defaultValid_of_registered
    (registered : ∀ pool, node.allocators.autoAssign = some pool → node.HasBlock pool) :
    node.DefaultValid := by
  refine ⟨registered, fun gone ab cidr block isPod text onNode auto new made => ?_⟩
  have idle : node.allocators.autoAssign = none :=
    Option.eq_none_iff_forall_ne_some.mpr fun pool isDefault =>
      gone pool isDefault (registered pool isDefault)
  have ran : reconcileBlock ab true node = (.ok ⟨⟩, node.addBlock ab block (some ab.poolRef)) := by
    have named : ab.nodeRef ≠ none := Option.isSome_iff_ne_none.mp onNode
    simp [reconcileBlock, registerBlock, isPod, text, named, new, made, auto, idle]
  rw [ran]
  exact ⟨rfl, fun call own given => by simp [AllocatorSet.getPool, own, given, addBlock]⟩

theorem registered_apply (condition : node.KeepsDefault event)
    (registered : ∀ pool, node.allocators.autoAssign = some pool → node.HasBlock pool) :
    ∀ pool, (node.apply wraps event).allocators.autoAssign = some pool →
      (node.apply wraps event).HasBlock pool := by
  intro pool isDefault
  cases event with
  | reconcile ab answers =>
    dsimp only [Node.apply] at isDefault ⊢
    rcases reconcileBlock_cases ab answers node with
      ⟨_, switched, ran⟩ | ⟨cidr, block, _, -, new, made, named, ran⟩ <;> rw [ran] at isDefault ⊢
    · rcases switched with rfl | rfl | ⟨rfl, idle, auto, known⟩
      · exact registered pool isDefault
      · cases isDefault
      · cases isDefault
        exact condition known auto idle
    have get := fun name => Table.lookup_insert node.allocators.blocks ab.name block name
    rcases named with rfl | rfl
    · rcases registered pool isDefault with ⟨name, other, stored, same⟩
      have different : name ≠ ab.name := by
        rintro rfl
        simp [new] at stored
      exact ⟨name, other, (get name).trans (by rw [if_neg different]; exact stored), same⟩
    · cases isDefault
      exact ⟨ab.name, block, (get ab.name).trans (if_pos rfl), (Block.new_eq_ok made).2.1⟩
  | cleanup ab =>
    dsimp only [Node.apply] at isDefault ⊢
    rcases cleanupBlock_cases wraps ab node with ⟨outcome, ran⟩ | ⟨block, known, -, ran⟩ <;>
      rw [ran] at isDefault ⊢
    · exact registered pool isDefault
    · simp only [removeBlock, AllocatorSet.remove] at isDefault
      split_ifs at isDefault with here
      have kept : ∀ name other, name ≠ ab.name → node.allocators.get name = some other →
          other.poolName = pool → (node.removeBlock ab.name).HasBlock pool :=
        fun name other different stored same =>
          ⟨name, other, (AList.lookup_erase_ne different).trans stored, same⟩
      rcases registered pool isDefault with ⟨name, other, stored, same⟩
      by_cases gone : name = ab.name
      · subst gone
        rw [known, Option.some.injEq] at stored
        subst stored same
        rcases condition block known isDefault with named | ⟨name, other, different, stored, same⟩
        · exact absurd (named ▸ isDefault) here
        · exact kept name other different stored same
      · exact kept name other gone stored same
  | add | resume | cancel | del | gcCheck | gcDelete => exact condition.elim

/-- In every run of reconciles and cleanups that meet the condition the default pool is not
stale. -/
theorem run_defaultValid (wraps : Bool) (idle : node.allocators.autoAssign = none)
    {events : List NodeEvent} (steps : AllSteps (apply wraps) KeepsDefault node events) :
    (events.foldl (apply wraps) node).DefaultValid :=
  defaultValid_of_registered (foldl_invariant
    (fun node => ∀ pool, node.allocators.autoAssign = some pool → node.HasBlock pool)
    (fun _ _ registered condition => registered_apply condition registered)
    (fun pool isDefault => by simp [idle] at isDefault) steps)

def sampleDefaultBlock (name : String) : AddressBlock :=
  { sampleNodeBlock with name := name, autoAssign := true }

theorem run_defaultValid_of_named :
    ([.reconcile (sampleDefaultBlock "pod") true, .cleanup (sampleDefaultBlock "pod")].foldl
      (apply true) initial).DefaultValid := by
  refine run_defaultValid true rfl ⟨fun known => absurd rfl known, fun block known _ => ?_, trivial⟩
  cases known
  exact .inl rfl

/-- The last block of the default pool is removed. -/
theorem run_not_defaultValid :
    ¬([.reconcile (sampleDefaultBlock "block") true, .cleanup (sampleDefaultBlock "block")].foldl
      (apply true) initial).DefaultValid := by
  intro valid
  rcases valid.registered "pod" (by decide) with ⟨name, block, stored, -⟩
  have empty : ([.reconcile (sampleDefaultBlock "block") true,
    .cleanup (sampleDefaultBlock "block")].foldl (apply true) initial).allocators.blocks =
      ∅ := by rfl
  rw [AllocatorSet.get, empty] at stored
  cases stored

end Node

end Sart
