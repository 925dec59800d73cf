import Sart.Agent.Cni

/-!
# Blocks on a node

The agent registers the blocks of its node and tells the CNI server about each new one.
A block is removed when its object is deleted, unless it still holds addresses.

The garbage collector looks at all blocks from time to time.  A block that it finds
empty twice is deleted.  It looks with the lock held, and deletes without it.
-/

namespace Sart

open Sart.Lib

inductive AgentError where
  | kube
  | invalidCIDR
  | missingFields
  | autoAssignAlreadyExists
  | notEmpty
  | ipam (error : IpamError)
  deriving DecidableEq

namespace Node

def switchPool (ab : AddressBlock) (node : Node) : Outcome AgentError PUnit × Node :=
  if ab.autoAssign then
    match node.allocators.autoAssign with
    | some pool =>
      if pool ≠ ab.poolRef then (.error .autoAssignAlreadyExists, node) else (.ok ⟨⟩, node)
    | none =>
      (.ok ⟨⟩, { node with allocators := { node.allocators with autoAssign := some ab.poolRef } })
  else if node.allocators.autoAssign = some ab.poolRef then
    (.ok ⟨⟩, { node with allocators := { node.allocators with autoAssign := none } })
  else (.ok ⟨⟩, node)

def addBlock (ab : AddressBlock) (block : Block) (autoAssign : Option String) (node : Node) :
    Node :=
  { node with
    allocators := ⟨node.allocators.blocks.insert ab.name block, autoAssign⟩
    notices := node.notices ++ [ab.name] }

def registerBlock (ab : AddressBlock) (cidr : IpNet) (node : Node) :
    Outcome AgentError PUnit × Node :=
  match Block.new ab.name ab.poolRef cidr with
  | .error error => (.error (.ipam error), node)
  | .panic => (.panic, node)
  | .ok block =>
    if ab.autoAssign then
      match node.allocators.autoAssign with
      | some pool =>
        if pool ≠ ab.poolRef then (.error .autoAssignAlreadyExists, node)
        else (.ok ⟨⟩, node.addBlock ab block (some pool))
      | none => (.ok ⟨⟩, node.addBlock ab block (some ab.poolRef))
    else (.ok ⟨⟩, node.addBlock ab block node.allocators.autoAssign)

/-- The advertisement of the block is looked up first; what is written about it in the end does not
concern the addresses. -/
def reconcileBlock (ab : AddressBlock) (answers : Bool) : Effect Node AgentError PUnit :=
    fun node =>
  if ab.type ≠ .pod then (.ok ⟨⟩, node)
  else
    match ab.cidr with
    | none => (.error .invalidCIDR, node)
    | some cidr =>
      if ab.nodeRef.isNone then (.error .missingFields, node)
      else if !answers then (.error .kube, node)
      else
        match node.allocators.get ab.name with
        | some _ => switchPool ab node
        | none => registerBlock ab cidr node

def removeBlock (name : String) (node : Node) : Node :=
  { node with
    allocators := node.allocators.remove name
    lost := node.lost ++ node.holders name }

def cleanupBlock (wraps : Bool) (ab : AddressBlock) : Effect Node AgentError PUnit := fun node =>
  if ab.type ≠ .pod then (.ok ⟨⟩, node)
  else
    match node.allocators.get ab.name with
    | none => (.ok ⟨⟩, node)
    | some block =>
      match block.allocator.isEmpty wraps with
      | .ok true => (.ok ⟨⟩, node.removeBlock ab.name)
      | .ok false => (.error .notEmpty, node)
      | .error error => (.error (.ipam error), node)
      | .panic => (.panic, node)

structure GcFound where
  unused : AList fun _ : String => GcMarker
  used : List String

def gcMark (markers : AList fun _ : String => GcMarker) (found : GcFound) (name : String) :
    GcFound :=
  match markers.lookup name with
  | some .unused => { found with unused := found.unused.insert name .deleted }
  | some .deleted => found
  | none => { found with unused := found.unused.insert name .unused }

def gcLook (wraps : Bool) (markers : AList fun _ : String => GcMarker) (found : GcFound)
    (name : String) (block : Block) : Outcome IpamError GcFound := do
  let empty ← block.allocator.isEmpty wraps
  if empty then .ok (gcMark markers found name)
  else .ok { found with used := name :: found.used }

/-- The blocks that the API listed are looked at first, then those that are registered. -/
def gcFind (wraps : Bool) (node : Node) (listed : List String) : Outcome IpamError GcFound := do
  let found ← listed.foldlM (fun found name =>
    match node.allocators.get name with
    | some block => gcLook wraps node.markers found block.name block
    | none => .ok (gcMark node.markers found name)) ⟨∅, []⟩
  node.allocators.blocks.entries.foldlM
    (fun found entry => gcLook wraps node.markers found entry.1 entry.2) found

def gcMarkers (markers : AList fun _ : String => GcMarker) (found : GcFound) :
    AList fun _ : String => GcMarker :=
  found.used.foldl (fun markers name => markers.erase name)
    (found.unused.entries.foldl (fun markers entry => markers.insert entry.1 entry.2) markers)

/-- A look at all blocks, with the lock held.  The collector looks again when it has deleted what
it found. -/
def gcCheck (wraps : Bool) (listed : List String) (node : Node) : Node :=
  if node.deleting ≠ [] then node
  else
    match gcFind wraps node listed with
    | .ok found =>
      let markers := gcMarkers node.markers found
      { node with
        markers := markers
        deleting := (markers.entries.filter fun entry => entry.2 = .deleted).map Sigma.fst }
    | _ => node

def gcDelete (name : String) (deleted : Bool) (node : Node) : Node :=
  if name ∈ node.deleting then
    let next := { node with deleting := node.deleting.erase name }
    if deleted then { next.deleteBlock name with markers := next.markers.erase name } else next
  else node

variable {node : Node} {wraps : Bool} {name : String}

/-- What a reconcile makes of the default pool: it leaves it, gives it up, or names the pool of a
block that was registered before. -/
def Switched (ab : AddressBlock) (node : Node) (autoAssign : Option String) : Prop :=
  autoAssign = node.allocators.autoAssign ∨ autoAssign = none ∨
    autoAssign = some ab.poolRef ∧ node.allocators.autoAssign = none ∧ ab.autoAssign = true ∧
      node.allocators.get ab.name ≠ none

theorem switchPool_final {ab : AddressBlock} {node : Node}
    (known : node.allocators.get ab.name ≠ none) :
    ∃ autoAssign, Switched ab node autoAssign ∧ (switchPool ab node).2 =
      { node with allocators := ⟨node.allocators.blocks, autoAssign⟩ } := by
  unfold switchPool
  by_cases auto : ab.autoAssign = true
  · rw [if_pos auto]
    split
    · split_ifs
      all_goals exact ⟨node.allocators.autoAssign, .inl rfl, rfl⟩
    · rename_i idle
      exact ⟨some ab.poolRef, .inr (.inr ⟨rfl, idle, auto, known⟩), rfl⟩
  rw [if_neg auto]
  split_ifs
  · exact ⟨none, .inr (.inl rfl), rfl⟩
  · exact ⟨node.allocators.autoAssign, .inl rfl, rfl⟩

theorem reconcileBlock_cases (ab : AddressBlock) (answers : Bool) (node : Node) :
    (∃ autoAssign, Switched ab node autoAssign ∧ (reconcileBlock ab answers node).2 =
      { node with allocators := ⟨node.allocators.blocks, autoAssign⟩ }) ∨
    ∃ cidr block autoAssign, ab.cidr = some cidr ∧ node.allocators.get ab.name = none ∧
      Block.new ab.name ab.poolRef cidr = .ok block ∧
      (autoAssign = node.allocators.autoAssign ∨ autoAssign = some ab.poolRef) ∧
      (reconcileBlock ab answers node).2 = node.addBlock ab block autoAssign := by
  have idle : ∃ autoAssign, Switched ab node autoAssign ∧
      node = { node with allocators := ⟨node.allocators.blocks, autoAssign⟩ } :=
    ⟨node.allocators.autoAssign, .inl rfl, rfl⟩
  unfold reconcileBlock
  by_cases other : ab.type ≠ .pod
  · rw [if_pos other]
    exact .inl idle
  rw [if_neg other]
  cases net : ab.cidr with
  | none => exact .inl idle
  | some cidr =>
    dsimp only
    by_cases noNode : ab.nodeRef.isNone = true
    · rw [if_pos noNode]
      exact .inl idle
    rw [if_neg noNode]
    by_cases failed : (!answers) = true
    · rw [if_pos failed]
      exact .inl idle
    rw [if_neg failed]
    cases found : node.allocators.get ab.name with
    | some known => exact .inl (switchPool_final (by simp [found]))
    | none =>
      unfold registerBlock
      cases made : Block.new ab.name ab.poolRef cidr with
      | error cause | panic => exact .inl idle
      | ok block =>
        dsimp only
        by_cases auto : ab.autoAssign = true
        · rw [if_pos auto]
          split
          · split_ifs
            · exact .inl idle
            · rename_i named _
              exact .inr ⟨cidr, block, _, rfl, rfl, made, .inl named.symm, rfl⟩
          · exact .inr ⟨cidr, block, _, rfl, rfl, made, .inr rfl, rfl⟩
        · rw [if_neg auto]
          exact .inr ⟨cidr, block, _, rfl, rfl, made, .inl rfl, rfl⟩

theorem cleanupBlock_cases (wraps : Bool) (ab : AddressBlock) (node : Node) :
    (∃ outcome, Node.cleanupBlock wraps ab node = (outcome, node)) ∨
    ∃ block, node.allocators.get ab.name = some block ∧ block.allocator.isEmpty wraps = .ok true ∧
      Node.cleanupBlock wraps ab node = (.ok ⟨⟩, node.removeBlock ab.name) := by
  unfold Node.cleanupBlock
  split_ifs
  · exact .inl ⟨_, rfl⟩
  cases node.allocators.get ab.name with
  | none => exact .inl ⟨_, rfl⟩
  | some block =>
    dsimp only
    split
    · rename_i counted
      exact .inr ⟨block, rfl, counted, rfl⟩
    all_goals exact .inl ⟨_, rfl⟩

theorem gcCheck_final (wraps : Bool) (listed : List String) (node : Node) :
    ∃ markers deleting, node.gcCheck wraps listed =
      { node with markers := markers, deleting := deleting } := by
  unfold Node.gcCheck
  split_ifs
  · exact ⟨_, _, rfl⟩
  split
  all_goals exact ⟨_, _, rfl⟩

theorem gcDelete_final (name : String) (deleted : Bool) (node : Node) :
    ∃ markers deleting lost, node.gcDelete name deleted =
      { node with markers := markers, deleting := deleting, lost := lost } := by
  unfold Node.gcDelete
  by_cases member : name ∈ node.deleting
  · rw [if_pos member]
    cases deleted with
    | true | false => exact ⟨_, _, _, rfl⟩
  · rw [if_neg member]
    exact ⟨_, _, _, rfl⟩

variable {listed : List String} {block : Block}

theorem used_of_gcFind {found : GcFound} (ran : gcFind wraps node listed = .ok found)
    (known : node.allocators.get name = some block) (unused : name ∉ found.used) :
    block.allocator.isEmpty wraps = .ok true := by
  rcases Outcome.bind_eq_ok.mp ran with ⟨first, -, ran⟩
  have all := Outcome.foldlM_invariant
    (fun done (found : GcFound) => ∀ entry ∈ done,
      (entry : Sigma fun _ : String => Block).2.allocator.isEmpty wraps = .ok true ∨
        entry.1 ∈ found.used) (by simp) ?_ ran
  · rcases all ⟨name, block⟩ (AList.mem_lookup_iff.mp known) with empty | used
    · exact empty
    · exact absurd used unused
  intro done entry state next _ before look entry' member
  rw [gcLook, Outcome.bind_eq_ok] at look
  rcases look with ⟨empty, looked, look⟩
  have grows : ∀ other ∈ state.used, other ∈ next.used := by
    intro other member
    split_ifs at look <;> rw [Outcome.ok.injEq] at look <;> subst look
    · unfold gcMark
      split
      all_goals exact member
    · exact List.mem_cons_of_mem _ member
  rcases List.mem_append.mp member with earlier | now
  · exact (before entry' earlier).imp_right (grows entry'.1)
  rw [List.mem_singleton.mp now]
  cases empty with
  | true => exact .inl looked
  | false =>
    rw [if_neg (by simp), Outcome.ok.injEq] at look
    subst look
    exact .inr List.mem_cons_self

theorem empty_of_mem_deleting (idle : node.deleting = [])
    (member : name ∈ (node.gcCheck wraps listed).deleting)
    (known : node.allocators.get name = some block) :
    block.allocator.isEmpty wraps = .ok true := by
  unfold gcCheck at member
  rw [if_neg (not_not.mpr idle)] at member
  cases ran : gcFind wraps node listed with
  | ok found =>
    rw [ran] at member
    rcases List.mem_map.mp member with ⟨entry, stored, rfl⟩
    have marked := AList.mem_lookup_iff.mpr (List.mem_filter.mp stored).1
    rw [gcMarkers, Option.mem_def, Table.lookup_foldl_erase] at marked
    split_ifs at marked with used
    exact used_of_gcFind ran known used
  | error cause | panic =>
    rw [ran, idle] at member
    simp at member

end Node

inductive NodeEvent where
  | add (call : PodCall) (requested : Bool)
  | resume (deleted links : Bool)
  | cancel
  | del (call : PodCall) (deleted : Bool)
  | reconcile (ab : AddressBlock) (answers : Bool)
  | cleanup (ab : AddressBlock)
  | gcCheck (listed : List String)
  | gcDelete (name : String) (deleted : Bool)

def Node.apply (wraps : Bool) (node : Node) : NodeEvent → Node
  | .add call requested => if node.waiting.isSome then node else (Node.add call requested node).2
  | .resume deleted links => (Node.resume deleted links node).2
  | .cancel => { node with waiting := none }
  | .del call deleted => if node.waiting.isSome then node else (Node.del wraps call deleted node).2
  | .reconcile ab answers => (Node.reconcileBlock ab answers node).2
  | .cleanup ab => (Node.cleanupBlock wraps ab node).2
  | .gcCheck listed => node.gcCheck wraps listed
  | .gcDelete name deleted => node.gcDelete name deleted

end Sart
