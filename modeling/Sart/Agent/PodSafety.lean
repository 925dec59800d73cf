import Sart.Agent.NodeBlocks
import Sart.Controller.BlockCidr
import Sart.Lib.Run

/-!
# Pods keep their addresses

A pod that has an address is the only one that has it, and its block stays, while calls, the
reconciler of blocks and the garbage collector run beside each other.

There are two ways to lose a block: the sum of the words of its bit set overflows, or a pod
gets an address of it between the looks of the collector and the deletion.
-/

namespace Sart

open Sart.Lib

namespace Node

/-- No two pods have one address, every pod has an address that its block has given away, and no
pod has lost its block. -/
structure PodsSafe (node : Node) : Prop where
  distinct : ∀ first second left right, node.allocation.lookup first = some left →
    node.allocation.lookup second = some right → first ≠ second → left.addr ≠ right.addr
  held : ∀ pod alloc, node.allocation.lookup pod = some alloc →
    ∃ block, node.allocators.get alloc.block = some block ∧ block.allocator.holds alloc.addr = true
  lost : node.lost = []

/-- Safe, with disjoint blocks, and no pod has an address of a block that is about to be deleted. -/
structure Sound (node : Node) : Prop extends PodsSafe node where
  disjoint : node.allocators.Disjoint
  spared : ∀ name ∈ node.deleting, ∀ pod alloc, node.allocation.lookup pod = some alloc →
    alloc.block ≠ name

structure Started (node : Node) : Prop where
  disjoint : node.allocators.Disjoint
  allocation : node.allocation = ∅
  deleting : node.deleting = []
  lost : node.lost = []

theorem Started.sound {node : Node} (started : node.Started) : node.Sound := by
  have none : ∀ pod, node.allocation.lookup pod = none := by
    intro pod
    rw [started.allocation, AList.lookup_empty]
  refine ⟨⟨?_, ?_, started.lost⟩, started.disjoint, ?_⟩
  · intro first second left right found
    rw [none] at found
    simp at found
  · intro pod alloc found
    rw [none] at found
    simp at found
  · intro name member
    rw [started.deleting] at member
    simp at member

def marked (node : Node) (name : String) (block : Block) (addr : IpAddr) (value : Bool)
    (allocated : ℕ) : AllocatorSet :=
  node.allocators.setAllocator name block (block.allocator.mark addr value allocated)

/-- What a step does to the blocks and the pods: nothing, give a free address to a pod, take the
address of a pod back, register a block, or remove an empty one. -/
inductive Change (node next : Node) : Prop
  | stay (blocks : ∀ name, next.allocators.get name = node.allocators.get name)
      (pods : next.allocation = node.allocation)
      (deleting : ∀ name ∈ next.deleting, name ∈ node.deleting ∨
        ∀ block, node.allocators.get name = some block → ∀ addr, block.allocator.holds addr = false)
  | take {info : PodInfo} {name : String} {block : Block} {addr : IpAddr} {prefixLen allocated : ℕ}
      (found : node.allocators.get name = some block) (free : Free block addr)
      (spared : name ∉ node.deleting)
      (blocks : next.allocators = node.marked name block addr true allocated)
      (pods : next.allocation =
        node.allocation.insert info.key ⟨info.containerId, name, addr, prefixLen⟩)
      (deleting : next.deleting = node.deleting)
  | release {pod : String} {alloc : PodAllocation} {block : Block} {allocated : ℕ}
      (stored : node.allocation.lookup pod = some alloc)
      (found : node.allocators.get alloc.block = some block)
      (inside : block.allocator.cidr.contains alloc.addr = true)
      (blocks : next.allocators = node.marked alloc.block block alloc.addr false allocated)
      (pods : next.allocation = node.allocation.erase pod)
      (deleting : next.deleting = node.deleting)
  | register {name : String} {block : Block} (new : node.allocators.get name = none)
      (apart : ∀ other current, node.allocators.get other = some current →
        block.allocator.cidr.Apart current.allocator.cidr)
      (blocks : ∀ other, next.allocators.get other =
        if other = name then some block else node.allocators.get other)
      (pods : next.allocation = node.allocation) (deleting : next.deleting = node.deleting)
  | remove {name : String}
      (vacant : ∀ block, node.allocators.get name = some block →
        ∀ addr, block.allocator.holds addr = false)
      (blocks : ∀ other, next.allocators.get other =
        if other = name then none else node.allocators.get other)
      (pods : next.allocation = node.allocation) (deleting : next.deleting = node.deleting)

variable {node next : Node} {name : String} {block : Block} {addr : IpAddr}

theorem get_marked (node : Node) (name : String) (block : Block) (addr : IpAddr) (value : Bool)
    (allocated : ℕ) (other : String) : (node.marked name block addr value allocated).get other =
      if other = name then
        some { block with allocator := block.allocator.mark addr value allocated }
      else node.allocators.get other :=
  AllocatorSet.get_setAllocator _ _ _ _ _

variable {holder : String} {given : IpAddr}

theorem ne_of_free (disjoint : node.allocators.Disjoint) {held : Block}
    (known : node.allocators.get holder = some held) (holds : held.allocator.holds given = true)
    (found : node.allocators.get name = some block) (free : Free block addr) : given ≠ addr := by
  rintro rfl
  by_cases same : holder = name
  · rw [same, found, Option.some.injEq] at known
    subst known
    rw [free.2] at holds
    exact Bool.false_ne_true holds
  · exact disjoint _ _ _ _ known found same given ⟨Allocator.contains_of_holds holds, free.1⟩

theorem held_marked {held : Block} {value : Bool} (known : node.allocators.get holder = some held)
    (holds : held.allocator.holds given = true) (found : node.allocators.get name = some block)
    (inside : block.allocator.cidr.contains addr = true) (kept : given = addr → value = true)
    (allocated : ℕ) :
    ∃ current, (node.marked name block addr value allocated).get holder = some current ∧
      current.allocator.holds given = true := by
  rw [get_marked]
  split_ifs with same
  · rw [same, found, Option.some.injEq] at known
    subst known
    refine ⟨_, rfl, ?_⟩
    rw [Allocator.holds_mark inside]
    split_ifs with isAddr
    · exact kept isAddr
    · exact holds
  · exact ⟨held, known, holds⟩

theorem disjoint_of_cidr (disjoint : node.allocators.Disjoint) {set : AllocatorSet}
    (cidr : ∀ other current, set.get other = some current →
      ∃ old, node.allocators.get other = some old ∧ current.allocator.cidr = old.allocator.cidr) :
    set.Disjoint := by
  intro first second left right foundLeft foundRight different addr
  rcases cidr first left foundLeft with ⟨oldLeft, wasLeft, sameLeft⟩
  rcases cidr second right foundRight with ⟨oldRight, wasRight, sameRight⟩
  rw [sameLeft, sameRight]
  exact disjoint first second oldLeft oldRight wasLeft wasRight different addr

theorem disjoint_marked (disjoint : node.allocators.Disjoint)
    (found : node.allocators.get name = some block) (value : Bool) (allocated : ℕ) :
    (node.marked name block addr value allocated).Disjoint := by
  refine disjoint_of_cidr disjoint fun other current lookup => ?_
  rw [get_marked] at lookup
  split_ifs at lookup with same
  · rw [Option.some.injEq] at lookup
    subst lookup
    exact ⟨block, same ▸ found, rfl⟩
  · exact ⟨current, lookup, rfl⟩

theorem Change.disjoint (change : Change node next) (disjoint : node.allocators.Disjoint) :
    next.allocators.Disjoint := by
  cases change with
  | stay blocks =>
    refine disjoint_of_cidr disjoint fun other current lookup => ?_
    rw [blocks] at lookup
    exact ⟨current, lookup, rfl⟩
  | take found free spared blocks =>
    rw [blocks]
    exact disjoint_marked disjoint found true _
  | release stored found inside blocks =>
    rw [blocks]
    exact disjoint_marked disjoint found false _
  | register new apart blocks =>
    intro first second left right foundLeft foundRight different addr common
    rw [blocks] at foundLeft foundRight
    split_ifs at foundLeft foundRight with isFirst isSecond isSecond
    · exact different (isFirst.trans isSecond.symm)
    · rw [Option.some.injEq] at foundLeft
      subst foundLeft
      exact apart second right foundRight addr common
    · rw [Option.some.injEq] at foundRight
      subst foundRight
      exact apart first left foundLeft addr common.symm
    · exact disjoint first second left right foundLeft foundRight different addr common
  | remove vacant blocks =>
    refine disjoint_of_cidr disjoint fun other current lookup => ?_
    rw [blocks] at lookup
    split_ifs at lookup
    exact ⟨current, lookup, rfl⟩

theorem Change.held (change : Change node next) {held : Block}
    (known : node.allocators.get holder = some held) (holds : held.allocator.holds given = true)
    (kept : ∀ pod alloc, node.allocation.lookup pod = some alloc → next.allocation.lookup pod =
      none →
      given ≠ alloc.addr) :
    ∃ current, next.allocators.get holder = some current ∧
      current.allocator.holds given = true := by
  cases change with
  | stay blocks => exact ⟨held, (blocks holder).trans known, holds⟩
  | take found free spared blocks =>
    rw [blocks]
    exact held_marked known holds found free.1 (fun _ => rfl) _
  | @release pod alloc block allocated stored found inside blocks pods =>
    rw [blocks]
    refine held_marked known holds found inside (fun same => absurd same ?_) _
    refine kept pod alloc stored ?_
    rw [pods, AList.lookup_erase]
  | register new apart blocks =>
    refine ⟨held, ?_, holds⟩
    rw [blocks, if_neg ?_, known]
    rintro rfl
    rw [known] at new
    simp at new
  | remove vacant blocks =>
    refine ⟨held, ?_, holds⟩
    rw [blocks, if_neg ?_, known]
    rintro rfl
    rw [vacant held known] at holds
    exact Bool.false_ne_true holds

theorem Change.pods (change : Change node next) {pod : String} {alloc : PodAllocation}
    (stored : next.allocation.lookup pod = some alloc) :
    node.allocation.lookup pod = some alloc ∨
      (∃ block, node.allocators.get alloc.block = some block ∧ Free block alloc.addr) ∧
        (∃ current, next.allocators.get alloc.block = some current ∧
          current.allocator.holds alloc.addr = true) ∧
        alloc.block ∉ next.deleting ∧
        ∀ other current, next.allocation.lookup other = some current → other ≠ pod →
          node.allocation.lookup other = some current := by
  cases change with
  | stay blocks pods | register new apart blocks pods | remove vacant blocks pods =>
    rw [pods] at stored
    exact .inl stored
  | take found free spared blocks pods deleting =>
    rw [pods, Table.lookup_insert] at stored
    split_ifs at stored with same
    · rw [Option.some.injEq] at stored
      subst stored same
      refine .inr ⟨⟨_, found, free⟩, ?_, ?_, ?_⟩
      · rw [blocks, get_marked, if_pos rfl]
        refine ⟨_, rfl, ?_⟩
        rw [Allocator.holds_mark free.1, if_pos rfl]
      · rwa [deleting]
      · intro other current lookup different
        rwa [pods, AList.lookup_insert_ne different] at lookup
    · exact .inl stored
  | release stored' found inside blocks pods =>
    rw [pods] at stored
    exact .inl (Table.lookup_erase_eq_some.mp stored).2

theorem Change.deleting_cases (change : Change node next) (member : name ∈ next.deleting) :
    name ∈ node.deleting ∨ ∀ block, node.allocators.get name = some block →
      ∀ addr, block.allocator.holds addr = false := by
  cases change with
  | stay blocks pods deleting => exact deleting name member
  | take found free spared blocks pods deleting
  | release stored found inside blocks pods deleting | register new apart blocks pods deleting
  | remove vacant blocks pods deleting =>
    exact .inl (deleting ▸ member)

theorem Sound.change (sound : node.Sound) (change : Change node next)
    (lost : next.lost = node.lost) :
    next.Sound := by
  have old : ∀ pod alloc, node.allocation.lookup pod = some alloc →
      next.allocation.lookup pod = some alloc → ∃ current,
        next.allocators.get alloc.block = some current ∧
          current.allocator.holds alloc.addr = true := by
    intro pod alloc was stored
    rcases sound.held pod alloc was with ⟨held, known, holds⟩
    refine change.held known holds fun other current lookup gone => ?_
    refine sound.distinct pod other alloc current was lookup ?_
    rintro rfl
    rw [stored] at gone
    simp at gone
  refine ⟨⟨?_, ?_, lost.trans sound.lost⟩, change.disjoint sound.disjoint, ?_⟩
  · -- One of the two pods is old, and an old pod has no free address.
    have apart : ∀ first second left right, node.allocation.lookup first = some left →
        next.allocation.lookup second = some right → first ≠ second → left.addr ≠ right.addr := by
      intro first second left right was stored different
      rcases change.pods stored with wasSecond | ⟨⟨block, found, free⟩, -, -, -⟩
      · exact sound.distinct first second left right was wasSecond different
      · rcases sound.held first left was with ⟨held, known, holds⟩
        exact ne_of_free sound.disjoint known holds found free
    intro first second left right foundLeft foundRight different
    rcases change.pods foundLeft with was | ⟨-, -, -, others⟩
    · exact apart first second left right was foundRight different
    · have was := others second right foundRight (Ne.symm different)
      exact (apart second first right left was foundLeft (Ne.symm different)).symm
  · intro pod alloc stored
    rcases change.pods stored with was | ⟨-, holds, -, -⟩
    · exact old pod alloc was stored
    · exact holds
  · intro name member pod alloc stored
    rcases change.pods stored with was | ⟨-, -, spared, -⟩
    · rcases change.deleting_cases member with before | vacant
      · exact sound.spared name before pod alloc was
      rintro rfl
      rcases sound.held pod alloc was with ⟨held, known, holds⟩
      rw [vacant held known] at holds
      exact Bool.false_ne_true holds
    · rintro rfl
      exact spared member

variable {wraps : Bool}

structure Step (node next : Node) : Prop where
  change : Change node next
  lost : next.lost = node.lost

theorem Sound.step (sound : node.Sound) (step : Step node next) : next.Sound :=
  sound.change step.change step.lost

theorem Step.stay (blocks : next.allocators.blocks = node.allocators.blocks)
    (pods : next.allocation = node.allocation)
    (deleting : ∀ name ∈ next.deleting, name ∈ node.deleting) (lost : next.lost = node.lost) :
    Step node next := by
  refine ⟨.stay (fun name => ?_) pods fun name member => .inl (deleting name member), lost⟩
  rw [AllocatorSet.get, blocks, AllocatorSet.get]

theorem Step.refl (node : Node) : Step node node := .stay rfl rfl (fun _ member => member) rfl

theorem Sound.holders_eq_nil {name : String} (sound : node.Sound)
    (vacant : ∀ block, node.allocators.get name = some block →
      ∀ addr, block.allocator.holds addr = false) : node.holders name = [] := by
  rw [holders, List.map_eq_nil_iff, List.filter_eq_nil_iff]
  intro entry member isHolder
  rw [decide_eq_true_eq] at isHolder
  rcases sound.held entry.1 entry.2 (AList.mem_lookup_iff.mpr member) with ⟨block, lookup, held⟩
  rw [isHolder] at lookup
  rw [vacant block lookup] at held
  exact Bool.false_ne_true held

theorem step_add (call : PodCall) (requested : Bool)
    (careful : (node.allocators.getPool call).Forall fun pool =>
      ∀ free ∈ node.allocators.firstFree pool, free.1 ∉ node.deleting) :
    Step node (Node.add call requested node).2 := by
  rcases add_cases call requested node with
    ⟨cause, run⟩ | ⟨pool, -, run⟩ | ⟨pool, name, block, addr, called, free, isFree, run⟩ <;>
      rw [run]
  · exact .refl node
  · exact .stay rfl rfl (fun _ member => member) rfl
  · rw [called] at careful
    exact ⟨.take (firstFree_eq_some free).2 isFree (careful _ free) rfl rfl rfl, rfl⟩

theorem step_resume (deleted links : Bool)
    (careful : ∀ name ∈ node.notices.head?, name ∉ node.deleting) :
    Step node (Node.resume deleted links node).2 := by
  rcases resume_cases deleted links node with
    ⟨-, run⟩ | ⟨info, pool, name, rest, -, notices, ⟨cause, run⟩ |
      ⟨block, addr, found, isFree, -, -, run⟩⟩ <;>
    rw [run]
  · exact .refl node
  · exact .stay rfl rfl (fun _ member => member) rfl
  · have spared := careful name (by rw [notices, List.head?_cons]; rfl)
    exact ⟨.take found isFree spared rfl rfl rfl, rfl⟩

theorem Sound.step_del (sound : node.Sound) (call : PodCall) (deleted : Bool)
    (careful : ∀ alloc ∈ node.getAllocation call.info,
      ∀ block ∈ node.allocators.get alloc.block, block.allocator.NoOverflow) :
    Step node (Node.del wraps call deleted node).2 := by
  rcases del_cases wraps call deleted node with
    ⟨outcome, ran⟩ | ⟨alloc, block, own, found, inside, ⟨left, -⟩ | ⟨outcome, ran | ⟨left, ran⟩⟩⟩
  · rw [ran]
    exact .refl node
  all_goals
    have fits := (careful alloc own block found).release alloc.addr (block.allocator.allocated - 1)
    rcases fits.isEmpty wraps with ⟨empty, returned, vacant⟩
    have stored : node.allocation.lookup call.info.key = some alloc := by
      rw [getAllocation, Option.filter_eq_some_iff] at own
      exact own.1
    have released : ∀ lost, Change node { (node.released alloc block).forget call.info.key with
      lost := lost } := fun lost => .release stored found inside rfl rfl rfl
  · rw [show _ = Outcome.panic from left] at returned
    simp at returned
  · rw [ran]
    exact ⟨released _, rfl⟩
  · -- The block counts as empty, so no pod is left in it.
    rw [show _ = Outcome.ok true from left, Outcome.ok.injEq] at returned
    have next := sound.change (released node.lost) rfl
    rw [ran]
    refine ⟨released _, ?_⟩
    refine (congrArg (node.lost ++ ·) (next.holders_eq_nil fun current lookup => ?_)).trans
      (List.append_nil _)
    have here := (AllocatorSet.get_setAllocator _ _ _ _ _).symm.trans lookup
    rw [if_pos rfl, Option.some.injEq] at here
    subst here
    exact vacant returned.symm

theorem step_reconcileBlock (ab : AddressBlock) (answers : Bool)
    (apart : ∀ cidr ∈ ab.cidr, node.allocators.get ab.name = none →
      ∀ name other, node.allocators.get name = some other → cidr.Apart other.allocator.cidr) :
    Step node (Node.reconcileBlock ab answers node).2 := by
  rcases reconcileBlock_cases ab answers node with
    ⟨autoAssign, -, run⟩ | ⟨cidr, block, autoAssign, net, new, made, -, run⟩ <;> rw [run]
  · exact .stay rfl rfl (fun _ member => member) rfl
  refine ⟨.register new ?_ (fun other => Table.lookup_insert _ _ _ _) rfl rfl, rfl⟩
  rw [(Block.new_eq_ok made).1]
  exact apart cidr net new

theorem Sound.step_cleanupBlock (sound : node.Sound) (ab : AddressBlock)
    (careful : ∀ block ∈ node.allocators.get ab.name, block.allocator.NoOverflow) :
    Step node (Node.cleanupBlock wraps ab node).2 := by
  rcases cleanupBlock_cases wraps ab node with ⟨outcome, ran⟩ | ⟨block, found, counted, ran⟩ <;>
    rw [ran]
  · exact .refl node
  · rcases (careful block found).isEmpty wraps with ⟨empty, returned, vacant⟩
    rw [counted, Outcome.ok.injEq] at returned
    have none : ∀ current, node.allocators.get ab.name = some current →
        ∀ addr, current.allocator.holds addr = false := by
      intro current lookup
      rw [found, Option.some.injEq] at lookup
      subst lookup
      exact vacant returned.symm
    refine ⟨.remove none (fun other => ?_) rfl rfl, ?_⟩
    · exact Table.lookup_erase _ _ _
    · exact (congrArg (node.lost ++ ·) (sound.holders_eq_nil none)).trans (List.append_nil _)

theorem step_gcCheck (listed : List String)
    (careful : ∀ entry ∈ node.allocators.blocks.entries, entry.2.allocator.NoOverflow) :
    Step node (node.gcCheck wraps listed) := by
  by_cases busy : node.deleting ≠ []
  · unfold Node.gcCheck
    rw [if_pos busy]
    exact .refl node
  rw [not_not] at busy
  rcases gcCheck_final wraps listed node with ⟨markers, deleting, ran⟩
  refine ⟨.stay (fun name => by rw [ran]) (by rw [ran]) fun name member => ?_, by rw [ran]⟩
  right
  intro block known
  have empty := empty_of_mem_deleting busy member known
  have fits := careful ⟨name, block⟩ (AList.mem_lookup_iff.mp known)
  rcases Allocator.NoOverflow.isEmpty fits wraps with ⟨isEmpty, returned, vacant⟩
  rw [empty, Outcome.ok.injEq] at returned
  exact vacant returned.symm

theorem Sound.step_gcDelete (sound : node.Sound) (name : String) (deleted : Bool) :
    Step node (node.gcDelete name deleted) := by
  unfold Node.gcDelete
  by_cases member : name ∈ node.deleting
  · have empty : node.holders name = [] := by
      rw [holders, List.map_eq_nil_iff, List.filter_eq_nil_iff]
      intro entry stored isHolder
      exact sound.spared name member entry.1 entry.2 (AList.mem_lookup_iff.mpr stored)
        (of_decide_eq_true isHolder)
    rw [if_pos member]
    cases deleted with
    | true =>
      refine .stay rfl rfl (fun other remains => List.mem_of_mem_erase remains) ?_
      exact (congrArg (node.lost ++ ·) empty).trans (List.append_nil _)
    | false => exact .stay rfl rfl (fun other remains => List.mem_of_mem_erase remains) rfl
  · rw [if_neg member]
    exact .refl node

end Node

def NodeEvent.Apart (node : Node) : NodeEvent → Prop
  | .reconcile ab _ => ∀ cidr ∈ ab.cidr, node.allocators.get ab.name = none →
      ∀ name other, node.allocators.get name = some other → cidr.Apart other.allocator.cidr
  | _ => True

/-- The condition on a step: where it is asked whether a block is empty, the sum of its words does
not overflow, and no address is taken from a block that the collector is about to delete. -/
def NodeEvent.Careful (node : Node) : NodeEvent → Prop
  | .add call _ => (node.allocators.getPool call).Forall fun pool =>
    ∀ free ∈ node.allocators.firstFree pool, free.1 ∉ node.deleting
  | .resume _ _ => ∀ name ∈ node.notices.head?, name ∉ node.deleting
  | .del call _ => ∀ alloc ∈ node.getAllocation call.info,
      ∀ block ∈ node.allocators.get alloc.block, block.allocator.NoOverflow
  | .cleanup ab => ∀ block ∈ node.allocators.get ab.name, block.allocator.NoOverflow
  | .gcCheck _ => ∀ entry ∈ node.allocators.blocks.entries, entry.2.allocator.NoOverflow
  | _ => True

instance (node : Node) (event : NodeEvent) : Decidable (event.Careful node) := by
  cases event <;> dsimp only [NodeEvent.Careful] <;> infer_instance

namespace Node

theorem Sound.step_apply {node : Node} {wraps : Bool} {event : NodeEvent} (sound : node.Sound)
    (apart : event.Apart node) (careful : event.Careful node) :
    Step node (node.apply wraps event) := by
  cases event with
  | add call requested =>
    dsimp only [Node.apply]
    split_ifs
    · exact .refl node
    · exact step_add call requested careful
  | resume deleted links => exact step_resume deleted links careful
  | cancel => exact .stay rfl rfl (fun _ member => member) rfl
  | del call deleted =>
    dsimp only [Node.apply]
    split_ifs
    · exact .refl node
    · exact sound.step_del call deleted careful
  | reconcile ab answers => exact step_reconcileBlock ab answers apart
  | cleanup ab => exact sound.step_cleanupBlock ab careful
  | gcCheck listed => exact step_gcCheck listed careful
  | gcDelete name deleted => exact sound.step_gcDelete name deleted

variable {wraps : Bool} {node : Node} {events : List NodeEvent}

theorem Started.sound_run (started : node.Started)
    (apart : AllSteps (apply wraps) (fun node event => event.Apart node) node events)
    (careful : AllSteps (apply wraps) (fun node event => event.Careful node) node events) :
    (events.foldl (apply wraps) node).Sound :=
  foldl_invariant Sound (fun _ _ sound both => sound.step (sound.step_apply both.1 both.2))
    started.sound (apart.and careful)

/-- In every run in which the sums do not overflow where they are taken, and no address is taken
from a block that the collector is about to delete, pods have addresses of their own and keep their
blocks. -/
theorem podsSafe_of_careful {wraps : Bool} {node : Node} {events : List NodeEvent}
    (started : node.Started)
    (apart : AllSteps (apply wraps) (fun node event => event.Apart node) node events)
    (careful : AllSteps (apply wraps) (fun node event => event.Careful node) node events) :
    (events.foldl (apply wraps) node).PodsSafe :=
  (started.sound_run apart careful).toPodsSafe

def initial : Node := ⟨.empty, ∅, none, [], ∅, [], []⟩

theorem started_initial : initial.Started := by
  refine ⟨?_, rfl, rfl, rfl⟩
  intro first second left right found
  exact absurd found (by simp [initial, AllocatorSet.get, AllocatorSet.empty])

def sampleNodeBlock : AddressBlock :=
  ⟨"block", some (.v4 (.ofLength 0x0a000000#32 30)), .pod, "pod", some "node", false, some 0⟩

def samplePod (name : String) : PodCall :=
  ⟨⟨name, "default", name⟩, true, some "pod", none, none, true⟩

theorem apart_sampleNodeBlock (answers : Bool) :
    (NodeEvent.reconcile sampleNodeBlock answers).Apart initial := by
  intro cidr _ _ name other found
  exact absurd found (by simp [initial, AllocatorSet.get, AllocatorSet.empty])

theorem podsSafe_of_two_pods :
    ([.reconcile sampleNodeBlock true, .add (samplePod "a") true, .gcCheck [],
      .add (samplePod "b") true,
      .del (samplePod "a") true, .gcCheck [], .cleanup sampleNodeBlock].foldl (apply true)
      initial).PodsSafe :=
  podsSafe_of_careful started_initial
    ⟨apart_sampleNodeBlock true, trivial, trivial, trivial, trivial, trivial, trivial, trivial⟩
    (by decide)

/-- The collector has found a block empty twice, and deletes it when a pod has got an address of
it. -/
theorem not_podsSafe_of_late_delete :
    initial.Started ∧
    AllSteps (apply true) (fun node event => event.Apart node) initial
      [.reconcile sampleNodeBlock true, .gcCheck [], .gcCheck [], .add (samplePod "a") true,
        .gcDelete "block" true] ∧
    ¬([.reconcile sampleNodeBlock true, .gcCheck [], .gcCheck [], .add (samplePod "a") true,
      .gcDelete "block" true].foldl (apply true) initial).PodsSafe := by
  refine ⟨started_initial,
    ⟨apart_sampleNodeBlock true, trivial, trivial, trivial, trivial, trivial⟩, fun safe => ?_⟩
  exact absurd safe.lost (by decide)

end Node

end Sart
