import Sart.Controller.BlockCidr
import Sart.Ipam.Pool
import Sart.Lib.Table

/-!
# Blocks of the controller

The controller takes the next free index of a pod pool, computes the network of the block,
and creates an object for it; the index is written into the status by a second call.
Taking the index is not undone when a later step fails or finds the object to exist.
-/

namespace Sart

open Sart.Lib Sart.Lib.Effect

/-- The objects of the API and the pools in memory.  `created` lists the requests for which a
block was created, and `cleaned` the blocks that the controller has cleaned up and an agent still
holds. -/
structure BlockController where
  pools : AList fun _ : String => AddressPool
  blocks : AList fun _ : String => AddressBlock
  allocator : AList fun _ : String => Pool
  created : List String
  cleaned : List String := []

structure BlockAnswers where
  getPool : Bool
  getBlock : Bool
  create : Bool
  patchStatus : Bool

def BlockAnswers.succeed : BlockAnswers := ⟨true, true, true, true⟩

def blockName (pool : String) (count : ℕ) : String := pool ++ "-" ++ count.repr

def AddressPool.blockPrefixLen (ap : AddressPool) (cidr : IpNet) : ℕ :=
    ap.blockSize.getD cidr.prefixLen

namespace BlockController

def getBlock (answer : Bool) (name : String) :
    Effect BlockController ControllerError (Option AddressBlock) := fun state =>
  if answer then (.ok (state.blocks.lookup name), state) else (.error .kube, state)

def createBlock (answer : Bool) (ab : AddressBlock) :
    Effect BlockController ControllerError PUnit := fun state =>
  if answer ∧ state.blocks.lookup ab.name = none then
    (.ok ⟨⟩, { state with blocks := state.blocks.insert ab.name { ab with index := none } })
  else (.error .kube, state)

def patchStatus (answer : Bool) (ab : AddressBlock) :
    Effect BlockController ControllerError PUnit := fun state =>
  match state.blocks.lookup ab.name with
  | some stored =>
    if answer then
      (.ok ⟨⟩,
        { state with blocks := state.blocks.insert ab.name { stored with index := ab.index } })
    else (.error .kube, state)
  | none => (.error .kube, state)

def requestedPool (state : BlockController) (answers : BlockAnswers) (br : BlockRequest) :
    Outcome ControllerError (AddressPool × IpNet) :=
  match state.pools.lookup br.pool with
  | none => .error .kube
  | some ap =>
    if !answers.getPool then .error .kube
    else if ap.type ≠ .pod then .error .invalidAddressType
    else
      match ap.cidr with
      | none => .error .invalidCIDR
      | some cidr =>
        if ap.blockPrefixLen cidr < cidr.prefixLen then .panic else .ok (ap, cidr)

def takeBlock (name : String) : Effect BlockController ControllerError (ℕ × String) := fun state =>
  match state.allocator.lookup name with
  | none => (.error .invalidPool, state)
  | some pool =>
    let ran := Pool.allocate (blockName name pool.counter) pool
    let next := { state with allocator := state.allocator.insert name ran.2 }
    match ran.1 with
    | .ok index => (.ok (index, blockName name pool.counter), next)
    | .error error => (.error (.ipam error), next)
    | .panic => (.panic, next)

def blockObject (ap : AddressPool) (br : BlockRequest) (name : String) (index : ℕ) (cidr : IpNet) :
    AddressBlock where
  name := name
  cidr := some cidr
  type := .pod
  poolRef := ap.name
  nodeRef := some br.node
  autoAssign := ap.autoAssign.getD false
  index := some index

def submitBlock (answers : BlockAnswers) (br : BlockRequest) (ab : AddressBlock) :
    Effect BlockController ControllerError PUnit := do
  match ← getBlock answers.getBlock ab.name with
  | some _ => pure ⟨⟩
  | none => do
      createBlock answers.create ab
      Effect.modify fun state => { state with created := state.created ++ [br.uid] }
      patchStatus answers.patchStatus ab

def reconcileRequest (answers : BlockAnswers) (br : BlockRequest) :
    Effect BlockController ControllerError PUnit := fun state =>
  match state.requestedPool answers br with
  | .ok (ap, cidr) =>
    match takeBlock ap.name state with
    | (.ok (index, name), taken) =>
      match blockCidr cidr ap.blockSize index with
      | .ok block => submitBlock answers br (blockObject ap br name index block) taken
      | .error error => (.error error, taken)
      | .panic => (.panic, taken)
    | (.error error, taken) => (.error error, taken)
    | (.panic, taken) => (.panic, taken)
  | .error error => (.error error, state)
  | .panic => (.panic, state)

def registerPool (name : String) (pool : Pool) (state : BlockController) : BlockController :=
  if (state.allocator.lookup name).isNone then
    { state with allocator := state.allocator.insert name pool }
  else state

def serviceBlock (ap : AddressPool) : AddressBlock where
  name := ap.name
  cidr := ap.cidr
  type := ap.type
  poolRef := ap.name
  nodeRef := none
  autoAssign := ap.autoAssign.getD false
  index := none

def reconcileServicePool (answers : BlockAnswers) (ap : AddressPool) :
    Effect BlockController ControllerError PUnit := do
  let cidr ← lift (Outcome.ofOption .invalidCIDR ap.cidr)
  match ← getBlock answers.getBlock ap.name with
  | some _ => pure ⟨⟩
  | none => do
      createBlock answers.create (serviceBlock ap)
      let pool ← lift (Pool.new cidr (ap.blockPrefixLen cidr))
      Effect.modify (registerPool ap.name pool)

def reconcilePodPool (ap : AddressPool) : Effect BlockController ControllerError PUnit := do
  let cidr ← lift (Outcome.ofOption .invalidCIDR ap.cidr)
  if ap.blockPrefixLen cidr < cidr.prefixLen then lift .panic
  else do
    let known ← Effect.read fun state : BlockController => (state.allocator.lookup ap.name).isSome
    if known then pure ⟨⟩
    else do
      let pool ← lift (Pool.new cidr (ap.blockPrefixLen cidr))
      Effect.modify (registerPool ap.name pool)

def reconcilePool (answers : BlockAnswers) (ap : AddressPool) :
    Effect BlockController ControllerError PUnit :=
  match ap.type with
  | .service => reconcileServicePool answers ap
  | .pod => reconcilePodPool ap

def cleanupPod (ab : AddressBlock) : Effect BlockController ControllerError PUnit := fun state =>
  match ab.index with
  | none => (.error .addressBlockIndexNotSet, state)
  | some index =>
    match state.allocator.lookup ab.poolRef with
    | none => (.ok ⟨⟩, state)
    | some pool =>
      match pool.release index with
      | .ok next => (.ok ⟨⟩, { state with allocator := state.allocator.insert ab.poolRef next })
      | .error error => (.error (.ipam error), state)
      | .panic => (.panic, state)

def uses (state : BlockController) (pool : String) (index : ℕ) : Bool :=
  (state.allocator.lookup pool).any fun pool => pool.uses index

def knows (state : BlockController) (pool : String) : Bool := (state.allocator.lookup pool).isSome

def withPool (state : BlockController) (name : String) (pool : Pool) : BlockController :=
  { state with allocator := state.allocator.insert name pool }

variable {state : BlockController} {answers : BlockAnswers} {br : BlockRequest} {ap : AddressPool}
  {ab : AddressBlock} {pool next : Pool} {name : String} {cidr : IpNet}

theorem uses_of_lookup (found : state.allocator.lookup name = some pool) (index : ℕ) :
    state.uses name index = pool.uses index := by
  rw [uses, found, Option.any_some]

theorem uses_withPool (state : BlockController) (name : String) (pool : Pool) (other : String)
    (index : ℕ) : (state.withPool name pool).uses other index =
      if other = name then pool.uses index else state.uses other index := by
  rw [uses, withPool, Table.lookup_insert]
  split_ifs with same
  · rw [Option.any_some]
  · rfl

theorem knows_withPool (found : state.knows name = true) (pool : Pool) (other : String) :
    (state.withPool name pool).knows other = state.knows other := by
  rw [knows, withPool, Table.lookup_insert]
  split_ifs with same
  · subst same
    exact found.symm
  · rfl

def withBlock (state : BlockController) (answers : BlockAnswers) (br : BlockRequest)
    (ab : AddressBlock) : BlockController :=
  { state with
    blocks := state.blocks.insert ab.name
      { ab with index := if answers.patchStatus then ab.index else none }
    created := state.created ++ [br.uid] }

theorem submitBlock_final (state : BlockController) (answers : BlockAnswers) (br : BlockRequest)
    (ab : AddressBlock) : (submitBlock answers br ab state).2 =
      if answers.getBlock ∧ state.blocks.lookup ab.name = none ∧ answers.create then
        state.withBlock answers br ab
      else state := by
  rcases answers with ⟨-, getBlock | getBlock, create, patchStatus⟩
  · rfl
  rw [submitBlock, bind_apply]
  cases found : state.blocks.lookup ab.name with
  | some stored => simp [BlockController.getBlock, found, pure_apply]
  | none =>
    cases create with
    | false => simp [BlockController.getBlock, found, bind_apply, createBlock]
    | true =>
      cases patchStatus <;>
        simp [BlockController.getBlock, found, bind_apply, createBlock, Effect.modify,
          BlockController.patchStatus, withBlock, AList.lookup_insert, AList.insert_insert]

end BlockController

end Sart
