import Sart.Controller.Objects
import Sart.Ipam.Manager
import Sart.Lib.Effect

/-!
# The CNI server of a node

A pod gets an address of the first block of its pool that is not full; without one the
server asks for a new block and waits for the notice of a block, whichever that is.

The server handles one call at a time.  The set of allocators is shared with the
reconciler of blocks and with the garbage collector.
-/

namespace Sart

open Sart.Lib

inductive CniError where
  | kube
  | netlink
  | alreadyConfigured (pod : String)
  | defaultPoolNotFound
  | blockNotFound (block : String)
  | invalidAddress
  | ipam (error : IpamError)
  deriving DecidableEq

structure PodInfo where
  containerId : String
  podNamespace : String
  name : String
  deriving DecidableEq

def PodInfo.key (info : PodInfo) : String := info.podNamespace ++ "/" ++ info.name

/-- The address a pod has got, and the block it is from.  The prefix length is the one of the
block. -/
structure PodAllocation where
  containerId : String
  block : String
  addr : IpAddr
  prefixLen : ℕ
  deriving DecidableEq

/-- A call for a pod and what the API answers to it: whether the pod is found, its annotation, the
one of its namespace, and the pools.  A missing answer is a failure.  The last field tells whether
the links of the container can be set up or cleaned up. -/
structure PodCall where
  info : PodInfo
  podFound : Bool
  poolAnnotation : Option String
  namespaceAnswer : Option (Option String)
  poolsAnswer : Option (List AddressPool)
  links : Bool

namespace AllocatorSet

def getPool (set : AllocatorSet) (call : PodCall) : Outcome CniError String :=
  match call.poolAnnotation with
  | some pool => .ok pool
  | none =>
    match call.namespaceAnswer with
    | none => .error .kube
    | some (some pool) => .ok pool
    | some none =>
      match set.autoAssign with
      | some pool => .ok pool
      | none =>
        match call.poolsAnswer with
        | none => .error .kube
        | some pools =>
          match pools.find? fun ap => ap.autoAssign.getD false && ap.type = .pod with
          | some ap => .ok ap.name
          | none => .error .defaultPoolNotFound

def blockNames (set : AllocatorSet) (pool : String) : List String :=
  ((set.blocks.entries.filter fun entry => entry.2.poolName = pool).map
    fun entry => entry.2.name).insertionSort (· ≤ ·)

def firstFree (set : AllocatorSet) (pool : String) : Option (String × Block) :=
  (set.blockNames pool).findSome? fun name =>
    match set.get name with
    | some block => if block.allocator.isFull then none else some (name, block)
    | none => none

def takeAddr (info : PodInfo) (name : String) (block : Block) :
    Effect AllocatorSet CniError PodAllocation := fun set =>
  match block.allocator.allocateNext with
  | .ok (addr, allocator) =>
    (.ok ⟨info.containerId, name, addr, block.allocator.cidr.prefixLen⟩,
      set.setAllocator name block allocator)
  | .error error => (.error (.ipam error), set)
  | .panic => (.panic, set)

def allocatePod (pool : String) (info : PodInfo) :
    Effect AllocatorSet CniError (Option PodAllocation) := fun set =>
  match set.firstFree pool with
  | none => (.ok none, set)
  | some (name, block) => (do
      let alloc ← takeAddr info name block
      pure (some alloc) : Effect AllocatorSet CniError (Option PodAllocation)) set

def allocateWithBlock (name : String) (info : PodInfo) :
    Effect AllocatorSet CniError PodAllocation := fun set =>
  match set.get name with
  | none => (.error (.blockNotFound name), set)
  | some block => takeAddr info name block set

def releaseAddr (wraps : Bool) (name : String) (addr : IpAddr) :
    Effect AllocatorSet CniError Bool := fun set =>
  match set.get name with
  | none => (.error (.blockNotFound name), set)
  | some block =>
    match block.allocator.release addr with
    | .ok allocator =>
      let next := set.setAllocator name block allocator
      match allocator.isEmpty wraps with
      | .ok empty => (.ok empty, next)
      | .error error => (.error (.ipam error), next)
      | .panic => (.panic, next)
    | .error error => (.error (.ipam error), set)
    | .panic => (.panic, set)

end AllocatorSet

def Block.Left (block : Block) (addr : IpAddr) (wraps : Bool)
    (empty : Outcome IpamError Bool) : Prop :=
  (block.allocator.mark addr false (block.allocator.allocated - 1)).isEmpty wraps = empty

inductive GcMarker where
  | unused
  | deleted
  deriving DecidableEq

/-- What runs on a node.  `waiting` is the call that waits for a block, with its pool, and `notices`
are the blocks registered since.  `markers` and `deleting` belong to the garbage collector.  `lost`
lists the pods whose block was deleted, with the block. -/
structure Node where
  allocators : AllocatorSet
  allocation : AList fun _ : String => PodAllocation
  waiting : Option (PodInfo × String)
  notices : List String
  markers : AList fun _ : String => GcMarker
  deleting : List String
  lost : List (String × String)

namespace Node

def onAllocators {ε α : Type} (effect : Effect AllocatorSet ε α) : Effect Node ε α := fun node =>
  let ran := effect node.allocators
  (ran.1, { node with allocators := ran.2 })

def holders (node : Node) (block : String) : List (String × String) :=
  (node.allocation.entries.filter fun entry => entry.2.block = block).map
    fun entry => (entry.1, block)

def deleteBlock (block : String) (node : Node) : Node :=
  { node with lost := node.lost ++ node.holders block }

def record (info : PodInfo) (alloc : PodAllocation) (node : Node) : Node :=
  { node with allocation := node.allocation.insert info.key alloc }

def linksDone (links : Bool) : Outcome CniError PUnit := if links then .ok ⟨⟩ else .error .netlink

/-- The first part of an ADD call.  The allocation is kept when the links cannot be set up. -/
def add (call : PodCall) (requested : Bool) : Effect Node CniError PUnit := fun node =>
  if !call.podFound then (.error .kube, node)
  else
    match node.allocators.getPool call with
    | .error error => (.error error, node)
    | .panic => (.panic, node)
    | .ok pool =>
      if (node.allocation.lookup call.info.key).isSome then
        (.error (.alreadyConfigured call.info.key), node)
      else
        match onAllocators (AllocatorSet.allocatePod pool call.info) node with
        | (.ok (some alloc), next) => (linksDone call.links, next.record call.info alloc)
        | (.ok none, next) =>
          if requested then (.ok ⟨⟩, { next with waiting := some (call.info, pool) })
          else (.error .kube, next)
        | (.error error, next) => (.error error, next)
        | (.panic, next) => (.panic, next)

/-- The waiting call goes on when there is a notice.  The request for a block is deleted first. -/
def resume (deleted links : Bool) : Effect Node CniError PUnit := fun node =>
  match node.waiting, node.notices with
  | some (info, _), block :: rest =>
    let woken := { node with waiting := none, notices := rest }
    if !deleted then (.error .kube, woken)
    else
      match onAllocators (AllocatorSet.allocateWithBlock block info) woken with
      | (.ok alloc, next) => (linksDone links, next.record info alloc)
      | (.error error, next) => (.error error, next)
      | (.panic, next) => (.panic, next)
  | _, _ => (.ok ⟨⟩, node)

def getAllocation (node : Node) (info : PodInfo) : Option PodAllocation :=
  (node.allocation.lookup info.key).filter fun alloc => alloc.containerId = info.containerId

/-- A DEL call.  A block that counts as empty is deleted at the end, if the API answers. -/
def del (wraps : Bool) (call : PodCall) (deleted : Bool) : Effect Node CniError PUnit := fun node =>
  if !call.podFound then (.error .kube, node)
  else
    match node.allocators.getPool call with
    | .error .defaultPoolNotFound => (.ok ⟨⟩, node)
    | .error error => (.error error, node)
    | .panic => (.panic, node)
    | .ok _ =>
      match node.getAllocation call.info with
      | none => (.ok ⟨⟩, node)
      | some alloc =>
        match onAllocators (AllocatorSet.releaseAddr wraps alloc.block alloc.addr) node with
        | (.ok empty, next) =>
          let forgotten := { next with allocation := next.allocation.erase call.info.key }
          if !call.links then (.error .netlink, forgotten)
          else if empty && deleted then (.ok ⟨⟩, forgotten.deleteBlock alloc.block)
          else (.ok ⟨⟩, forgotten)
        | (.error _, next) => (.ok ⟨⟩, next)
        | (.panic, next) => (.panic, next)

variable {pool name : String} {block : Block} {addr : IpAddr}

theorem firstFree_eq_some {set : AllocatorSet} (found : set.firstFree pool = some (name, block)) :
    name ∈ set.blockNames pool ∧ set.get name = some block := by
  rcases List.exists_of_findSome?_eq_some found with ⟨other, member, here⟩
  cases lookup : set.get other with
  | none =>
    rw [lookup] at here
    simp at here
  | some current =>
    rw [lookup] at here
    dsimp only at here
    split_ifs at here
    rcases here with ⟨rfl, rfl⟩
    exact ⟨member, lookup⟩

def taken (node : Node) (info : PodInfo) (name : String) (block : Block) (addr : IpAddr) : Node :=
  record info ⟨info.containerId, name, addr, block.allocator.cidr.prefixLen⟩
    { node with
      allocators := node.allocators.setAllocator name block
        (block.allocator.mark addr true (block.allocator.allocated + 1)) }

def Free (block : Block) (addr : IpAddr) : Prop :=
  block.allocator.cidr.contains addr = true ∧ block.allocator.holds addr = false

theorem takeAddr_cases (set : AllocatorSet) (info : PodInfo) (name : String) (block : Block) :
    (∃ addr, Free block addr ∧ block.allocator.isFull = false ∧
      AllocatorSet.takeAddr info name block set =
        (.ok ⟨info.containerId, name, addr, block.allocator.cidr.prefixLen⟩,
          set.setAllocator name block
            (block.allocator.mark addr true (block.allocator.allocated + 1)))) ∨
      block.allocator.isFull = true ∧
        AllocatorSet.takeAddr info name block set = (.error (.ipam .full), set) := by
  unfold AllocatorSet.takeAddr
  rcases block.allocator.allocateNext_cases with
      ⟨addr, inside, free, room, next⟩ | ⟨noRoom, full, -⟩
  · rw [next]
    exact .inl ⟨addr, ⟨inside, free⟩, room, rfl⟩
  · rw [full]
    exact .inr ⟨noRoom, rfl⟩

theorem add_cases (call : PodCall) (requested : Bool) (node : Node) :
    (∃ cause, add call requested node = (.error cause, node)) ∨
      (∃ pool, node.allocators.getPool call = .ok pool ∧ add call requested node =
        (.ok ⟨⟩, { node with waiting := some (call.info, pool) })) ∨
      ∃ pool name block addr, node.allocators.getPool call = .ok pool ∧
        node.allocators.firstFree pool = some (name, block) ∧ Free block addr ∧
        add call requested node = (linksDone call.links, node.taken call.info name block addr) := by
  unfold add
  cases call.podFound with
  | false => exact .inl ⟨.kube, rfl⟩
  | true =>
    cases called : node.allocators.getPool call with
    | error cause => exact .inl ⟨cause, rfl⟩
    | panic =>
      unfold AllocatorSet.getPool at called
      repeat' split at called
      all_goals simp at called
    | ok pool =>
      dsimp only
      by_cases known : (node.allocation.lookup call.info.key).isSome = true
      · rw [if_pos known]
        exact .inl ⟨_, rfl⟩
      rw [if_neg known]
      unfold onAllocators AllocatorSet.allocatePod
      cases free : node.allocators.firstFree pool with
      | none =>
        cases requested with
        | false => exact .inl ⟨.kube, rfl⟩
        | true => exact .inr (.inl ⟨pool, rfl, rfl⟩)
      | some found =>
        rcases found with ⟨name, block⟩
        dsimp only
        rw [Effect.bind_apply]
        rcases takeAddr_cases node.allocators call.info name block with
          ⟨addr, isFree, -, took⟩ | ⟨-, full⟩
        · rw [took]
          exact .inr (.inr ⟨pool, name, block, addr, rfl, free, isFree, rfl⟩)
        · rw [full]
          exact .inl ⟨_, rfl⟩

def woken (node : Node) (rest : List String) : Node :=
    { node with waiting := none, notices := rest }

theorem resume_cases (deleted links : Bool) (node : Node) :
    ((node.waiting = none ∨ node.notices = []) ∧ resume deleted links node = (.ok ⟨⟩, node)) ∨
      ∃ info pool name rest, node.waiting = some (info, pool) ∧ node.notices = name :: rest ∧
        ((∃ cause, resume deleted links node = (.error cause, node.woken rest)) ∨
          ∃ block addr, node.allocators.get name = some block ∧ Free block addr ∧ deleted = true ∧
            block.allocator.isFull = false ∧
            resume deleted links node = (linksDone links,
              (node.woken rest).taken info name block addr)) := by
  unfold resume
  cases node.waiting with
  | none => exact .inl ⟨.inl rfl, rfl⟩
  | some waiting =>
    rcases waiting with ⟨info, pool⟩
    cases node.notices with
    | nil => exact .inl ⟨.inr rfl, rfl⟩
    | cons name rest =>
      refine .inr ⟨info, pool, name, rest, rfl, rfl, ?_⟩
      cases deleted with
      | false => exact .inl ⟨.kube, rfl⟩
      | true =>
        dsimp only
        unfold onAllocators AllocatorSet.allocateWithBlock
        cases found : node.allocators.get name with
        | none => exact .inl ⟨_, rfl⟩
        | some block =>
          dsimp only
          rcases takeAddr_cases node.allocators info name block with
            ⟨addr, isFree, room, took⟩ | ⟨-, full⟩
          · rw [took]
            exact .inr ⟨block, addr, rfl, isFree, rfl, room, rfl⟩
          · rw [full]
            exact .inl ⟨_, rfl⟩

theorem resume_of_notice {links : Bool} {node : Node} {info : PodInfo} {rest : List String}
    (waits : node.waiting = some (info, pool)) (notices : node.notices = name :: rest)
    (found : node.allocators.get name = some block) (room : block.allocator.isFull = false) :
    ∃ addr, Free block addr ∧
      resume true links node = (linksDone links, (node.woken rest).taken info name block addr) := by
  rcases takeAddr_cases node.allocators info name block with ⟨addr, isFree, -, took⟩ | ⟨full, -⟩
  · refine ⟨addr, isFree, ?_⟩
    unfold resume onAllocators AllocatorSet.allocateWithBlock
    rw [waits, notices]
    dsimp only
    rw [if_neg (by simp), found]
    dsimp only
    rw [took]
    rfl
  · rw [room] at full
    exact absurd full Bool.false_ne_true

def released (node : Node) (alloc : PodAllocation) (block : Block) : Node :=
  { node with
    allocators := node.allocators.setAllocator alloc.block block
      (block.allocator.mark alloc.addr false (block.allocator.allocated - 1)) }

def forget (node : Node) (pod : String) : Node :=
  { node with allocation := node.allocation.erase pod }

def Releasable (node : Node) (alloc : PodAllocation) : Prop :=
  ∃ block, node.allocators.get alloc.block = some block ∧
    block.allocator.cidr.contains alloc.addr = true ∧ block.allocator.allocated ≠ 0

theorem releaseAddr_cases (wraps : Bool) (node : Node) (alloc : PodAllocation) :
    (¬node.Releasable alloc ∧ ∃ cause,
      onAllocators (AllocatorSet.releaseAddr wraps alloc.block alloc.addr) node =
        (.error cause, node)) ∨
    ∃ block, node.allocators.get alloc.block = some block ∧
      block.allocator.cidr.contains alloc.addr = true ∧ block.allocator.allocated ≠ 0 ∧
      ∃ outcome, onAllocators (AllocatorSet.releaseAddr wraps alloc.block alloc.addr) node =
        (outcome, node.released alloc block) ∧
        (block.Left alloc.addr wraps .panic ∧ outcome = .panic ∨
          ∃ empty, block.Left alloc.addr wraps (.ok empty) ∧ outcome = .ok empty) := by
  unfold onAllocators AllocatorSet.releaseAddr
  cases found : node.allocators.get alloc.block with
  | none => exact .inl ⟨fun ⟨block, known, _⟩ => by simp [found] at known, _, rfl⟩
  | some block =>
    dsimp only
    by_cases inside : block.allocator.cidr.contains alloc.addr = true
    · rw [Allocator.release_eq inside]
      by_cases zero : block.allocator.allocated = 0
      · rw [if_pos zero]
        refine .inl ⟨fun ⟨other, known, _, counted⟩ => counted ?_, _, rfl⟩
        rwa [← Option.some.inj (found.symm.trans known)]
      rw [if_neg zero]
      refine .inr ⟨block, rfl, inside, zero, ?_⟩
      simp only [Block.Left, Allocator.isEmpty, BitSet.isEmpty]
      split_ifs
      · exact ⟨_, rfl, .inr ⟨_, rfl, rfl⟩⟩
      · exact ⟨_, rfl, .inr ⟨_, rfl, rfl⟩⟩
      · exact ⟨_, rfl, .inl ⟨rfl, rfl⟩⟩
    rcases Allocator.release_outside inside with ⟨cause, refused⟩
    rw [refused]
    refine .inl ⟨fun ⟨other, known, within, _⟩ => inside ?_, _, rfl⟩
    rwa [Option.some.inj (found.symm.trans known)]

theorem del_cases (wraps : Bool) (call : PodCall) (deleted : Bool) (node : Node) :
    (∃ outcome, Node.del wraps call deleted node = (outcome, node)) ∨
    ∃ alloc block, node.getAllocation call.info = some alloc ∧
      node.allocators.get alloc.block = some block ∧
      block.allocator.cidr.contains alloc.addr = true ∧
      (block.Left alloc.addr wraps .panic ∧
        Node.del wraps call deleted node = (.panic, node.released alloc block) ∨
      ∃ outcome, Node.del wraps call deleted node =
        (outcome, (node.released alloc block).forget call.info.key) ∨
        block.Left alloc.addr wraps (.ok true) ∧ Node.del wraps call deleted node =
          (outcome, ((node.released alloc block).forget call.info.key).deleteBlock
            alloc.block)) := by
  unfold Node.del
  cases call.podFound with
  | false => exact .inl ⟨_, rfl⟩
  | true =>
    rw [if_neg (by simp)]
    split
    · exact .inl ⟨_, rfl⟩
    · exact .inl ⟨_, rfl⟩
    · exact .inl ⟨_, rfl⟩
    cases own : node.getAllocation call.info with
    | none => exact .inl ⟨_, rfl⟩
    | some alloc =>
      dsimp only
      rcases releaseAddr_cases wraps node alloc with
        ⟨-, cause, refused⟩ |
          ⟨block, found, inside, -, _, ran, ⟨left, rfl⟩ | ⟨empty, left, rfl⟩⟩
      · rw [refused]
        exact .inl ⟨_, rfl⟩
      · rw [ran]
        exact .inr ⟨alloc, block, rfl, found, inside, .inl ⟨left, rfl⟩⟩
      · rw [ran]
        refine .inr ⟨alloc, block, rfl, found, inside, .inr ?_⟩
        dsimp only
        split_ifs with links delete
        · exact ⟨_, .inl rfl⟩
        · rw [Bool.and_eq_true] at delete
          exact ⟨_, .inr ⟨delete.1 ▸ left, rfl⟩⟩
        · exact ⟨_, .inl rfl⟩

end Node

end Sart
