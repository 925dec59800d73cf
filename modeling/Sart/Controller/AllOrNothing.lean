import Sart.Controller.Allocation

/-!
# Failed allocations

The marks of a Service are applied one after the other up to the first one that is
refused, and nothing is undone.  So a failed allocation leaves the allocated addresses
alone exactly if no mark before the refused one changes anything.
-/

namespace Sart

open Sart.Lib Sart.Lib.Effect

def AllocatorSet.holds (set : AllocatorSet) (name : String) (addr : IpAddr) : Bool :=
  (set.get name).any fun block => block.allocator.holds addr

/-- What comes first in a list of marks: nothing, a refusal, or a change. -/
inductive Verdict where
  | quiet
  | refused
  | effective
  deriving DecidableEq

/-- Look for the first mark of a block that does something.  Releasing an address that is not
allocated changes the count only, which is the second argument. -/
def verdict (alloc : Allocator) : ℕ → List MarkedAllocation → Verdict
  | _, [] => .quiet
  | _, .notMarked _ :: _ => .refused
  | count, .allocated addr :: rest => if alloc.holds addr then
      verdict alloc count rest else .effective
  | _, .allocate (some addr) :: _ => if alloc.holds addr then .refused else .effective
  | _, .allocate none :: _ => if alloc.isFull then .refused else .effective
  | count, .release addr :: rest =>
    if count = 0 then .refused
    else if alloc.holds addr then .effective
    else verdict alloc (count - 1) rest

def firstVerdict (set : AllocatorSet) (marks : String → List MarkedAllocation) :
    List String → Verdict
  | [] => .quiet
  | name :: rest =>
    match set.get name with
    | none => firstVerdict set marks rest
    | some block =>
      match verdict block.allocator block.allocator.allocated (marks name) with
      | .quiet => firstVerdict set marks rest
      | other => other

variable {alloc : Allocator} {marks : List MarkedAllocation}

structure SameHolds (alloc state : Allocator) : Prop where
  cidr : state.cidr = alloc.cidr
  holds : ∀ addr, state.holds addr = alloc.holds addr

variable {state : Allocator}

theorem SameHolds.isFull (same : SameHolds alloc state) :
    state.isFull = alloc.isFull := by
  rcases alloc.allocateNext_cases with ⟨addr, inside, free, vacant, -⟩ | ⟨full, -, all⟩ <;>
    rcases state.allocateNext_cases with ⟨addr', inside', free', vacant', -⟩ | ⟨full', -, all'⟩
  · rw [vacant, vacant']
  · have held := all' addr (same.cidr ▸ inside)
    rw [same.holds, free] at held
    exact Bool.noConfusion held
  · have held := all addr' (same.cidr ▸ inside')
    rw [same.holds, held] at free'
    exact Bool.noConfusion free'
  · rw [full, full']

def Verdict.Ends (alloc : Allocator) (result : Outcome ControllerError (List IpAddr) × Allocator) :
    Verdict → Prop
  | .quiet => (∃ out, result.1 = .ok out) ∧ SameHolds alloc result.2
  | .refused => (∃ cause, result.1 = .error cause) ∧ SameHolds alloc result.2
  | .effective => ∃ addr, result.2.holds addr ≠ alloc.holds addr

theorem Verdict.Ends.cons {verdict : Verdict} {mark : MarkedAllocation}
    {rest : List MarkedAllocation} {next : Allocator} {values : List IpAddr}
    (ran : applyMark mark state = (.ok values, next))
    (ends : verdict.Ends alloc (collect applyMark rest next)) :
    verdict.Ends alloc (collect applyMark (mark :: rest) state) := by
  rw [collect_cons ran]
  rcases last : collect applyMark rest next with ⟨others | cause | _, final⟩ <;>
    rw [last] at ends
  · cases verdict with
    | quiet => exact ⟨⟨_, rfl⟩, ends.2⟩
    | refused => exact absurd ends.1 (by simp)
    | effective => exact ends
  · exact ends
  · exact ends

theorem SameHolds.mark (same : SameHolds alloc state) {addr : IpAddr}
    (inside : state.cidr.contains addr = true) (count : ℕ) :
    SameHolds alloc (state.mark addr (alloc.holds addr) count) := by
  refine ⟨same.cidr, fun other => ?_⟩
  rw [Allocator.holds_mark inside, same.holds]
  split_ifs with equal
  · rw [equal]
  · rfl

theorem verdict_ends (marks : List MarkedAllocation)
    (inside : ∀ mark ∈ marks, mark.Inside alloc.cidr)
    (lasting : marks.Pairwise MarkedAllocation.Lasts) (same : SameHolds alloc state) :
    (verdict alloc state.allocated marks).Ends alloc (collect applyMark marks state) := by
  induction marks generalizing state with
  | nil => exact ⟨⟨[], rfl⟩, same⟩
  | cons mark rest ih =>
    have here := inside mark List.mem_cons_self
    rw [← same.cidr] at here
    rcases List.pairwise_cons.mp lasting with ⟨later, lasting⟩
    have go : ∀ {next : Allocator}, SameHolds alloc next →
        (verdict alloc next.allocated rest).Ends alloc (collect applyMark rest next) :=
      ih (fun other member => inside other (List.mem_cons_of_mem _ member)) lasting
    have step := applyMark_applied state mark
    rcases ran : applyMark mark state with ⟨result, next⟩
    rw [ran] at step
    cases step with
    | @kept addr held =>
      have known : alloc.holds addr = true := same.holds addr ▸ held
      rw [verdict, if_pos known]
      exact (go same).cons ran
    | @added _ addr adds contained free =>
      have vacant : alloc.isFull ≠ true := by
        intro full
        rcases alloc.allocateNext_cases with ⟨_, _, _, notFull, _⟩ | ⟨_, _, all⟩
        · rw [full] at notFull
          exact Bool.noConfusion notFull
        · rw [same.holds, all addr (same.cidr ▸ contained)] at free
          exact Bool.noConfusion free
      have fresh : ¬alloc.holds addr = true := by
        rw [← same.holds, free]
        exact Bool.false_ne_true
      have effective : verdict alloc state.allocated (mark :: rest) = .effective := by
        rcases adds with rfl | rfl | rfl
        · rw [verdict, if_neg fresh]
        · rw [verdict, if_neg fresh]
        · rw [verdict, if_neg vacant]
      rw [effective]
      -- no later mark releases the address
      refine ⟨addr, ?_⟩
      rw [collect_cons_final ran, holds_after_add]
      · exact fun equal => fresh equal.symm
      · rw [Allocator.holds_mark contained, if_pos rfl]
      · rintro other member rfl
        exact (later _ member).2 addr rfl adds
    | @released addr contained counted =>
      rw [verdict, if_neg counted]
      by_cases held : alloc.holds addr = true
      · -- no later mark adds the address
        rw [if_pos held]
        refine ⟨addr, ?_⟩
        rw [collect_cons_final ran, free_after_release, held]
        · exact Bool.false_ne_true
        · rw [Allocator.holds_mark contained, if_pos rfl]
        · exact fun other member => (later other member).1 addr rfl
      rw [if_neg held]
      have kept := same.mark contained (state.allocated - 1)
      rw [Bool.eq_false_iff.mpr held] at kept
      exact (go kept).cons ran
    | @refused _ cause refusal =>
      have refused : verdict alloc state.allocated (mark :: rest) = .refused := by
        cases mark with
        | notMarked addr => rfl
        | allocated addr =>
          rw [MarkedAllocation.Refused] at refusal
          exact absurd here (by simp [MarkedAllocation.Inside, refusal])
        | allocate addr =>
          cases addr with
          | none => rw [verdict, if_pos (same.isFull ▸ refusal)]
          | some addr =>
            have held : alloc.holds addr = true := by
              rcases refusal with outside | held
              · exact absurd here (by simp [MarkedAllocation.Inside, outside])
              · rw [← same.holds, held]
            rw [verdict, if_pos held]
        | release addr =>
          rcases refusal with outside | uncounted
          · exact absurd here (by simp [MarkedAllocation.Inside, outside])
          · rw [verdict, if_pos uncounted]
      rw [refused, collect_cons_error ran]
      exact ⟨⟨cause, rfl⟩, same⟩

variable {set : AllocatorSet} {marks : String → List MarkedAllocation}

def SameSets (set state : AllocatorSet) : Prop :=
  ∀ name addr, state.holds name addr = set.holds name addr

variable {state : AllocatorSet} {name : String} {allocator : Allocator} {block : Block}

theorem holds_setAllocator (other : String) (addr : IpAddr) :
    (state.setAllocator name block allocator).holds other addr =
      if other = name then allocator.holds addr else state.holds other addr := by
  rw [AllocatorSet.holds, AllocatorSet.get_setAllocator]
  split_ifs
  · rfl
  · rfl

theorem SameSets.setAllocator (same : SameSets set state) (found : set.get name = some block)
    (held : SameHolds block.allocator allocator) :
    SameSets set (state.setAllocator name block allocator) := by
  intro other addr
  rw [holds_setAllocator]
  split_ifs with equal
  · subst equal
    rw [held.holds, AllocatorSet.holds, found, Option.any_some]
  · exact same other addr

def Verdict.EndsAll (set : AllocatorSet)
    (result : Outcome ControllerError (List IpAddr) × AllocatorSet) : Verdict → Prop
  | .quiet => (∃ out, result.1 = .ok out) ∧ SameSets set result.2
  | .refused => (∃ cause, result.1 = .error cause) ∧ SameSets set result.2
  | .effective => ∃ name addr, result.2.holds name addr ≠ set.holds name addr

theorem Verdict.EndsAll.cons {verdict : Verdict} {rest : List String}
    {body : String → Effect AllocatorSet ControllerError (List IpAddr)} {next : AllocatorSet}
    {values : List IpAddr} (ran : body name state = (.ok values, next))
    (ends : verdict.EndsAll set (collect body rest next)) :
    verdict.EndsAll set (collect body (name :: rest) state) := by
  rw [collect_cons ran]
  rcases last : collect body rest next with ⟨others | cause | _, final⟩ <;>
    rw [last] at ends
  · cases verdict with
    | quiet => exact ⟨⟨_, rfl⟩, ends.2⟩
    | refused => exact absurd ends.1 (by simp)
    | effective => exact ends
  · exact ends
  · exact ends

theorem firstVerdict_ends {names : List String} (distinct : names.Nodup)
    (inside : ∀ name ∈ names, ∀ block, set.get name = some block →
      ∀ mark ∈ marks name, mark.Inside block.allocator.cidr)
    (lasting : ∀ name, (marks name).Pairwise MarkedAllocation.Lasts) (same : SameSets set state)
    (untouched : ∀ name ∈ names, state.get name = set.get name) :
    (firstVerdict set marks names).EndsAll set
      (collect (updateBlock marks) names state) := by
  induction names generalizing state with
  | nil => exact ⟨⟨[], rfl⟩, same⟩
  | cons name rest ih =>
    rcases List.nodup_cons.mp distinct with ⟨absent, distinct⟩
    have go : ∀ {next : AllocatorSet}, SameSets set next →
        (∀ other ∈ rest, next.get other = set.get other) →
        (firstVerdict set marks rest).EndsAll set
          (collect (updateBlock marks) rest next) :=
      ih distinct fun other member => inside other (List.mem_cons_of_mem _ member)
    have here := untouched name List.mem_cons_self
    have others : ∀ other ∈ rest, state.get other = set.get other := fun other member =>
      untouched other (List.mem_cons_of_mem _ member)
    rw [firstVerdict]
    cases found : set.get name with
    | none =>
      rw [found] at here
      exact (go same others).cons (onBlock_of_none here)
    | some block =>
      rw [found] at here
      have run : updateBlock marks name state = _ := onBlock_of_get here
      have ends := verdict_ends (marks name) (inside name List.mem_cons_self block found)
        (lasting name) (⟨rfl, fun _ => rfl⟩ : SameHolds block.allocator block.allocator)
      rcases ran : collect applyMark (marks name) block.allocator with ⟨result, final⟩
      rw [ran] at ends
      dsimp only
      cases outcome : verdict block.allocator block.allocator.allocated (marks name) with
      | quiet =>
        rw [outcome] at ends
        rcases ends with ⟨⟨out, rfl⟩, held⟩
        rw [updateAllocations_ok ran] at run
        refine (go (same.setAllocator found held) ?_).cons run
        intro other member
        rw [AllocatorSet.get_setAllocator, if_neg, others other member]
        rintro rfl
        exact absent member
      | refused =>
        rw [outcome] at ends
        rcases ends with ⟨⟨cause, rfl⟩, held⟩
        rw [updateAllocations_error ran] at run
        rw [collect_cons_error run]
        exact ⟨⟨cause, rfl⟩, same.setAllocator found held⟩
      | effective =>
        rw [outcome] at ends
        rcases ends with ⟨addr, changed⟩
        refine ⟨name, addr, ?_⟩
        have last : (collect (updateBlock marks) (name :: rest) state).2.get name =
            some { block with allocator := final } := by
          refine (get_collect_onBlock_head absent).trans ?_
          rw [onBlock_of_get here, updateAllocations_final, ran,
            AllocatorSet.get_setAllocator, if_pos rfl]
        rw [AllocatorSet.holds, AllocatorSet.holds, last, found]
        exact changed

theorem Service.plan_inside {svc : Service} {set : AllocatorSet} {name : String} {block : Block}
    (found : set.get name = some block) :
    ∀ mark ∈ svc.plan set name, mark.Inside block.allocator.cidr := by
  rw [Service.plan, found]
  refine plannedMarks_inside (fun addr member => ?_) fun addr member => ?_
  all_goals exact (List.mem_filter.mp member).2

theorem Service.plan_lasts (svc : Service) (set : AllocatorSet) (name : String) :
    (svc.plan set name).Pairwise MarkedAllocation.Lasts := by
  rw [Service.plan]
  cases set.get name with
  | none | some block => exact plannedMarks_lasts _ _ _

/-- An allocation that fails leaves the allocated addresses of all blocks alone if and only if,
in the order of the blocks, no mark has an effect before one is refused. -/
theorem sameSets_iff_of_failed (order : HashOrder) (svc : Service) (set : AllocatorSet)
    (failed : ∃ cause, (allocateLbAddrs order svc set).1 = .error cause) :
    SameSets set (allocateLbAddrs order svc set).2 ↔
      firstVerdict set (svc.plan set) (markedBlocks order svc set) ≠ .effective := by
  rw [allocateLbAddrs_eq] at failed ⊢
  by_cases none : (desiredPools svc set).isNone = true
  · have empty : markedBlocks order svc set = [] := by
      rw [markedBlocks, buildDesiredAllocation, Option.isNone_iff_eq_none.mp none]
    rw [if_pos none, empty]
    exact ⟨fun _ => by simp [firstVerdict], fun _ _ _ => rfl⟩
  rw [if_neg none] at failed ⊢
  have ends := firstVerdict_ends (nodup_markedBlocks order svc set)
    (fun name _ block found => Service.plan_inside found) (svc.plan_lasts set)
    (fun _ _ => rfl : SameSets set set) fun _ _ => rfl
  cases first : firstVerdict set (svc.plan set) (markedBlocks order svc set) with
  | quiet =>
    rw [first] at ends
    rcases failed with ⟨cause, failed⟩
    rcases ends.1 with ⟨out, returned⟩
    rw [failed] at returned
    exact absurd returned (by simp)
  | refused =>
    rw [first] at ends
    exact iff_of_true ends.2 (by simp)
  | effective =>
    rw [first] at ends
    refine iff_of_false (fun same => ?_) (by simp)
    rcases ends with ⟨name, addr, changed⟩
    exact changed (same name addr)

def HashOrder.asStored : HashOrder := ⟨id, fun keys => List.Perm.refl keys⟩

theorem sameSets_of_taken :
    SameSets sampleTaken
      (allocateLbAddrs .asStored (sampleRequest [.v4 0x0A000001#32]) sampleTaken).2 := by
  refine (sameSets_iff_of_failed .asStored (sampleRequest [.v4 0x0A000001#32]) sampleTaken
    ⟨.ipam (.bitSet .alreadySet), ?_⟩).mpr ?_
  · decide
  · decide

/-- A request for a free address and the taken one fails, and the free one stays allocated. -/
theorem not_sameSets_of_partly_taken :
    (allocateLbAddrs .asStored (sampleRequest [.v4 0x0A000000#32, .v4 0x0A000001#32])
        sampleTaken).1 = .error (.ipam (.bitSet .alreadySet)) ∧
      ¬SameSets sampleTaken (allocateLbAddrs .asStored
        (sampleRequest [.v4 0x0A000000#32, .v4 0x0A000001#32]) sampleTaken).2 := by
  refine ⟨by decide, fun same => ?_⟩
  have kept := same "lan" (.v4 0x0A000000#32)
  revert kept
  decide

end Sart
