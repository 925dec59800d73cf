import Sart.Controller.Marks

/-!
# Allocating for a Service

A mark is applied to the allocator of its block: an address is kept, added or
released, or the mark is refused.  The marks of a block first add and then release,
and never the same address.  The blocks are independent of each other.
-/

namespace Sart

open Sart.Lib Sart.Lib.Effect

namespace MarkedAllocation

/-- The mark puts the address among those of the Service. -/
def Adds (mark : MarkedAllocation) (addr : IpAddr) : Prop :=
  mark = .allocated addr ∨ mark = .allocate (some addr) ∨ mark = .allocate none

def Inside (cidr : IpNet) : MarkedAllocation → Prop
  | .notMarked _ => False
  | .allocated addr => cidr.contains addr = true
  | .allocate (some addr) => cidr.contains addr = true
  | .allocate none => True
  | .release addr => cidr.contains addr = true

/-- The marks that the allocator answers with an error. -/
def Refused (alloc : Allocator) : MarkedAllocation → Prop
  | .notMarked _ => True
  | .allocated addr => alloc.cidr.contains addr = false
  | .allocate (some addr) => alloc.cidr.contains addr = false ∨ alloc.holds addr = true
  | .allocate none => alloc.isFull = true
  | .release addr => alloc.cidr.contains addr = false ∨ alloc.allocated = 0

end MarkedAllocation

/-- What a mark does to an allocator. -/
inductive Applied (alloc : Allocator) :
    MarkedAllocation → Outcome ControllerError (List IpAddr) × Allocator → Prop
  | kept {addr : IpAddr} (held : alloc.holds addr = true) :
      Applied alloc (.allocated addr) (.ok [addr], alloc)
  | added {mark : MarkedAllocation} {addr : IpAddr} (adds : mark.Adds addr)
      (inside : alloc.cidr.contains addr = true) (free : alloc.holds addr = false) :
      Applied alloc mark (.ok [addr], alloc.mark addr true (alloc.allocated + 1))
  | released {addr : IpAddr} (inside : alloc.cidr.contains addr = true)
      (counted : alloc.allocated ≠ 0) :
      Applied alloc (.release addr) (.ok [], alloc.mark addr false (alloc.allocated - 1))
  | refused {mark : MarkedAllocation} {cause : ControllerError} (refusal : mark.Refused alloc) :
      Applied alloc mark (.error cause, alloc)

variable {alloc final : Allocator} {marks : List MarkedAllocation} {out : List IpAddr}

theorem Allocator.perform_eq {α : Type} {operation : Allocator →
    Outcome IpamError (α × Allocator)} :
    Allocator.perform operation alloc =
      match operation alloc with
      | .ok (value, next) => (.ok value, next)
      | .error error => (.error (.ipam error), alloc)
      | .panic => (.panic, alloc) := rfl

theorem applyMark_applied (alloc : Allocator) (mark : MarkedAllocation) :
    Applied alloc mark (applyMark mark alloc) := by
  cases mark with
  | notMarked addr => exact .refused trivial
  | allocated addr =>
    rw [applyMark, Allocator.perform_eq, Allocator.isAllocated_eq, Outcome.ok_bind]
    by_cases held : alloc.holds addr = true
    · rw [if_pos held]
      exact .kept held
    rw [if_neg held]
    by_cases inside : alloc.cidr.contains addr = true
    · rw [Allocator.allocate_eq inside, if_neg (by simp)]
      exact .added (.inl rfl) inside (by simpa using held)
    rcases Allocator.allocate_outside true inside with ⟨cause, refused⟩
    rw [refused]
    exact .refused (by simpa [MarkedAllocation.Refused] using inside)
  | allocate addr =>
    cases addr with
    | none =>
      rcases alloc.allocateNext_cases with ⟨addr, inside, free, -, next⟩ | ⟨full, next, -⟩
      · rw [applyMark, Allocator.perform_eq, next]
        exact .added (.inr (.inr rfl)) inside free
      · rw [applyMark, Allocator.perform_eq, next]
        exact .refused full
    | some addr =>
      rw [applyMark, Allocator.perform_eq]
      by_cases inside : alloc.cidr.contains addr = true
      · by_cases held : alloc.holds addr = true
        · rw [Allocator.allocate_eq inside, if_pos ⟨rfl, held⟩]
          exact .refused (.inr held)
        · rw [Allocator.allocate_eq inside, if_neg (by simp [held])]
          exact .added (.inr (.inl rfl)) inside (by simpa using held)
      rcases Allocator.allocate_outside false inside with ⟨cause, refused⟩
      rw [refused]
      exact .refused (.inl (by simpa using inside))
  | release addr =>
    rw [applyMark, Allocator.perform_eq]
    by_cases inside : alloc.cidr.contains addr = true
    · by_cases counted : alloc.allocated = 0
      · rw [Allocator.release_eq inside, if_pos counted]
        exact .refused (.inr counted)
      · rw [Allocator.release_eq inside, if_neg counted]
        exact .released inside counted
    rcases Allocator.release_outside inside with ⟨cause, refused⟩
    rw [refused]
    exact .refused (.inl (by simpa using inside))

variable {mark : MarkedAllocation} {addr : IpAddr} {cidr : IpNet}

theorem applyMark_keeps_cidr : Keeps (fun alloc => alloc.cidr = cidr) (applyMark mark) := by
  refine Spec.of_final fun alloc same => ?_
  have step := applyMark_applied alloc mark
  revert step
  generalize applyMark mark alloc = result
  intro step
  cases step with
  | kept held => exact same
  | added adds inside free => exact same
  | released inside counted => exact same
  | refused refusal => exact same

theorem cidr_collect_applyMark (marks : List MarkedAllocation) (alloc : Allocator) :
    (collect applyMark marks alloc).2.cidr = alloc.cidr := by
  have keeps : Keeps (fun state : Allocator => state.cidr = alloc.cidr)
      (collect applyMark marks) :=
    Keeps.collect (fun _ => applyMark_keeps_cidr) marks
  exact keeps.final rfl

theorem applyMark_keeps_held (other : mark ≠ .release addr) :
    Keeps (fun alloc => alloc.holds addr = true) (applyMark mark) := by
  refine Spec.of_final fun alloc held => ?_
  have step := applyMark_applied alloc mark
  revert step
  generalize applyMark mark alloc = result
  intro step
  cases step with
  | kept _ => exact held
  | added adds inside free => rw [Allocator.holds_mark inside, held, ite_self]
  | @released released inside counted =>
    have different : addr ≠ released := by
      rintro rfl
      exact other rfl
    rw [Allocator.holds_mark inside, if_neg different, held]
  | refused refusal => exact held

theorem applyMark_keeps_free {released : IpAddr} :
    Keeps (fun alloc => alloc.holds addr = false) (applyMark (.release released)) := by
  refine Spec.of_final fun alloc free => ?_
  have step := applyMark_applied alloc (.release released)
  revert step
  generalize applyMark (.release released) alloc = result
  intro step
  cases step with
  | added adds inside free => simp [MarkedAllocation.Adds] at adds
  | released inside counted => rw [Allocator.holds_mark inside, free, ite_self]
  | refused refusal => exact free

/-- Releases come last, and none of them takes back what was added. -/
def MarkedAllocation.Lasts (mark later : MarkedAllocation) : Prop :=
  (∀ addr, mark = .release addr → ∃ other, later = .release other) ∧
    ∀ addr, later = .release addr → ¬mark.Adds addr

theorem plannedMarks_lasts (named : Bool) (current wanted : List IpAddr) :
    (plannedMarks named current wanted).Pairwise MarkedAllocation.Lasts := by
  have releases : ∀ addrs : List IpAddr,
      (addrs.map MarkedAllocation.release).Pairwise MarkedAllocation.Lasts := by
    intro addrs
    refine List.pairwise_map.mpr (List.pairwise_of_forall fun first second => ⟨?_, ?_⟩)
    · exact fun _ _ => ⟨second, rfl⟩
    · simp [MarkedAllocation.Adds]
  unfold plannedMarks
  split_ifs with named empty none
  · exact List.pairwise_singleton _ _
  · refine List.pairwise_map.mpr (List.pairwise_of_forall fun first second => ⟨?_, ?_⟩) <;> simp
  · refine List.pairwise_append.mpr ⟨?_, releases _, ?_⟩
    · refine List.pairwise_map.mpr (List.pairwise_of_forall fun first second => ⟨?_, ?_⟩)
      all_goals
        intro addr same
        split_ifs at same
    intro add isAdd release isRelease
    rcases List.mem_map.mp isAdd with ⟨added, inWanted, rfl⟩
    rcases List.mem_map.mp isRelease with ⟨released, inCurrent, rfl⟩
    have unwanted : released ∉ wanted := by simpa using (List.mem_filter.mp inCurrent).2
    refine ⟨fun addr same => ⟨released, rfl⟩, fun addr same => ?_⟩
    rw [MarkedAllocation.release.injEq] at same
    subst same
    have different : added ≠ released := by
      rintro rfl
      exact unwanted inWanted
    split_ifs <;> simp [MarkedAllocation.Adds, different]
  · exact releases _

theorem plannedMarks_inside {named : Bool} {current wanted : List IpAddr}
    (owned : ∀ addr ∈ current, cidr.contains addr = true)
    (want : ∀ addr ∈ wanted, cidr.contains addr = true) :
    ∀ mark ∈ plannedMarks named current wanted, mark.Inside cidr := by
  intro mark member
  unfold plannedMarks at member
  split_ifs at member with named empty none
  · rw [List.mem_singleton] at member
    subst member
    trivial
  · rcases List.mem_map.mp member with ⟨addr, inCurrent, rfl⟩
    exact owned addr inCurrent
  · rcases List.mem_append.mp member with member | member
    · rcases List.mem_map.mp member with ⟨addr, inWanted, rfl⟩
      split_ifs
      all_goals exact want addr inWanted
    · rcases List.mem_map.mp member with ⟨addr, inCurrent, rfl⟩
      exact owned addr (List.mem_filter.mp inCurrent).1
  · rcases List.mem_map.mp member with ⟨addr, inCurrent, rfl⟩
    exact owned addr inCurrent

variable {state : Allocator}

theorem holds_after_add (held : state.holds addr = true)
    (later : ∀ mark ∈ marks, mark ≠ .release addr) :
    (collect applyMark marks state).2.holds addr = true :=
  (Keeps.collect_of_mem fun mark member => applyMark_keeps_held (later mark member)).final held

theorem free_after_release (free : state.holds addr = false)
    (later : ∀ mark ∈ marks, ∃ other, mark = .release other) :
    (collect applyMark marks state).2.holds addr = false := by
  have keeps : Keeps (fun alloc => alloc.holds addr = false)
      (collect applyMark marks) := by
    refine Keeps.collect_of_mem fun mark member => ?_
    rcases later mark member with ⟨other, rfl⟩
    exact applyMark_keeps_free
  exact keeps.final free

/-- An address that is given was there before, or it was free inside the block. -/
theorem given_of_collect (lasting : marks.Pairwise MarkedAllocation.Lasts)
    (run : collect applyMark marks alloc = (.ok out, final)) :
    ∀ addr ∈ out, .allocated addr ∈ marks ∨
      alloc.holds addr = false ∧ alloc.cidr.contains addr = true ∧
        (.allocate (some addr) ∈ marks ∨ .allocate none ∈ marks) := by
  induction marks generalizing alloc out with
  | nil =>
    simp only [collect, pure_apply, Prod.mk.injEq, Outcome.ok.injEq] at run
    simp [← run.1]
  | cons mark rest ih =>
    rcases List.pairwise_cons.mp lasting with ⟨later, lasting⟩
    rcases collect_cons_ok run with ⟨values, others, next, ran, restRun, rfl⟩
    intro addr member
    have step := applyMark_applied alloc mark
    rw [ran] at step
    rcases List.mem_append.mp member with now | behind
    · cases step with
      | kept held =>
        rw [List.mem_singleton] at now
        exact .inl (now ▸ List.mem_cons_self)
      | added adds inside free =>
        rw [List.mem_singleton] at now
        subst now
        rcases adds with rfl | rfl | rfl
        · exact .inl List.mem_cons_self
        · exact .inr ⟨free, inside, .inl List.mem_cons_self⟩
        · exact .inr ⟨free, inside, .inr List.mem_cons_self⟩
      | released inside counted => exact absurd now List.not_mem_nil
    rcases ih lasting restRun addr behind with owned | ⟨free, inside, asked⟩
    · exact .inl (List.mem_cons_of_mem _ owned)
    have asked' : .allocate (some addr) ∈ mark :: rest ∨ .allocate none ∈ mark :: rest :=
      asked.imp (List.mem_cons_of_mem _) (List.mem_cons_of_mem _)
    cases step with
    | kept held => exact .inr ⟨free, inside, asked'⟩
    | added adds contained _ =>
      rw [Allocator.holds_mark contained] at free
      split_ifs at free
      exact .inr ⟨free, inside, asked'⟩
    | @released released contained counted =>
      -- behind a release there are only releases
      rcases asked with asked | asked
      all_goals
        rcases (later _ asked).1 released rfl with ⟨_, impossible⟩
        exact absurd impossible (by simp)

def MarkedAllocation.given : MarkedAllocation → List IpAddr
  | .allocated addr => [addr]
  | .allocate (some addr) => [addr]
  | _ => []

theorem out_eq_given (named : .allocate none ∉ marks)
    (run : collect applyMark marks alloc = (.ok out, final)) :
    out = marks.flatMap MarkedAllocation.given := by
  induction marks generalizing alloc out with
  | nil =>
    simp only [collect, pure_apply, Prod.mk.injEq, Outcome.ok.injEq] at run
    exact run.1.symm
  | cons mark rest ih =>
    rcases collect_cons_ok run with ⟨values, others, next, ran, restRun, rfl⟩
    rw [List.mem_cons, not_or] at named
    rw [List.flatMap_cons, ih named.2 restRun]
    have step := applyMark_applied alloc mark
    rw [ran] at step
    cases step with
    | kept held => rfl
    | added adds inside free =>
      rcases adds with rfl | rfl | rfl
      · rfl
      · rfl
      · exact absurd rfl named.1
    | released inside counted => rfl

/-- Every address that is given is held in the end. -/
theorem holds_of_collect (lasting : marks.Pairwise MarkedAllocation.Lasts)
    (run : collect applyMark marks alloc = (.ok out, final)) :
    ∀ addr ∈ out, final.holds addr = true := by
  induction marks generalizing alloc out with
  | nil =>
    simp only [collect, pure_apply, Prod.mk.injEq, Outcome.ok.injEq] at run
    simp [← run.1]
  | cons mark rest ih =>
    rcases List.pairwise_cons.mp lasting with ⟨later, lasting⟩
    rcases collect_cons_ok run with ⟨values, others, next, ran, restRun, rfl⟩
    intro addr member
    rcases List.mem_append.mp member with now | behind
    · have last : final = (collect applyMark rest next).2 := by rw [restRun]
      rw [last]
      have step := applyMark_applied alloc mark
      rw [ran] at step
      cases step with
      | kept held =>
        rw [List.mem_singleton] at now
        subst now
        refine holds_after_add held ?_
        rintro other inRest rfl
        exact (later _ inRest).2 _ rfl (.inl rfl)
      | added adds inside free =>
        rw [List.mem_singleton] at now
        subst now
        refine holds_after_add (by rw [Allocator.holds_mark inside, if_pos rfl]) ?_
        rintro other inRest rfl
        exact (later _ inRest).2 _ rfl adds
      | released inside counted => exact absurd now List.not_mem_nil
    · exact ih lasting restRun addr behind

section Blocks

variable {α : Type} {set final : AllocatorSet} {name other : String} {names : List String}
  {block : Block} {effect : Effect Allocator ControllerError (List α)}
  {effects : String → Effect Allocator ControllerError (List α)}

theorem onBlock_of_get (found : set.get name = some block) :
    AllocatorSet.onBlock name effect set =
      ((effect block.allocator).1, set.setAllocator name block (effect block.allocator).2) := by
  rw [AllocatorSet.onBlock, found]

theorem onBlock_of_none (absent : set.get name = none) :
    AllocatorSet.onBlock name effect set = (.ok [], set) := by
  rw [AllocatorSet.onBlock, absent]

theorem get_onBlock_ne (different : other ≠ name) :
    (AllocatorSet.onBlock name effect set).2.get other = set.get other := by
  cases found : set.get name with
  | none => rw [onBlock_of_none found]
  | some block => rw [onBlock_of_get found, AllocatorSet.get_setAllocator, if_neg different]

theorem get_collect_onBlock (absent : other ∉ names) :
    (collect (fun name => AllocatorSet.onBlock name (effects name)) names set).2.get other =
      set.get other := by
  have keeps : Keeps (fun state : AllocatorSet => state.get other = set.get other)
      (collect (fun name => AllocatorSet.onBlock name (effects name)) names) := by
    refine Keeps.collect_of_mem fun name member => Spec.of_final fun state same => ?_
    rw [get_onBlock_ne, same]
    rintro rfl
    exact absent member
  exact keeps.final rfl

theorem get_collect_onBlock_none (absent : set.get other = none) :
    (collect (fun name => AllocatorSet.onBlock name (effects name)) names set).2.get other =
      none := by
  have keeps : Keeps (fun state : AllocatorSet => state.get other = none)
      (collect (fun name => AllocatorSet.onBlock name (effects name)) names) := by
    refine Keeps.collect (fun name => Spec.of_final fun state none => ?_) names
    by_cases same : other = name
    · subst same
      rw [onBlock_of_none none, none]
    · rw [get_onBlock_ne same, none]
  exact keeps.final absent

theorem get_collect_onBlock_head (absent : name ∉ names) :
    (collect (fun name => AllocatorSet.onBlock name (effects name)) (name :: names) set).2.get
      name = (AllocatorSet.onBlock name (effects name) set).2.get name := by
  rw [collect, bind_apply]
  rcases AllocatorSet.onBlock name (effects name) set with ⟨values | cause | _, next⟩
  · have kept : (collect (fun name => AllocatorSet.onBlock name (effects name)) names
        next).2.get name = next.get name := get_collect_onBlock absent
    dsimp only
    rw [bind_apply, ← kept]
    rcases collect (fun name => AllocatorSet.onBlock name (effects name)) names next with
      ⟨others | cause | _, final⟩ <;> rfl
  · rfl
  · rfl

theorem autoAssign_onBlock :
    (AllocatorSet.onBlock name effect set).2.autoAssign = set.autoAssign := by
  cases found : set.get name with
  | none => rw [onBlock_of_none found]
  | some block => rw [onBlock_of_get found, AllocatorSet.setAllocator]

theorem autoAssign_collect_onBlock :
    (collect (fun name => AllocatorSet.onBlock name (effects name)) names set).2.autoAssign =
      set.autoAssign := by
  have keeps : Keeps (fun state : AllocatorSet => state.autoAssign = set.autoAssign)
      (collect (fun name => AllocatorSet.onBlock name (effects name)) names) := by
    refine Keeps.collect (fun name => Spec.of_final fun state same => ?_) names
    rw [autoAssign_onBlock, same]
  exact keeps.final rfl

end Blocks

/-- The blocks that the reconciliation visits, in the order of the map. -/
def markedBlocks (order : HashOrder) (svc : Service) (set : AllocatorSet) : List String :=
  match buildDesiredAllocation svc set with
  | .ok desired => order.visit (mergeMarkedAllocation (actualAllocation svc set) desired).keys
  | _ => []

variable (order : HashOrder) (svc : Service) (set : AllocatorSet)

theorem nodup_markedBlocks : (markedBlocks order svc set).Nodup := by
  unfold markedBlocks
  split
  · exact (order.perm _).nodup_iff.mpr (AList.keys_nodup _)
  · exact List.nodup_nil

def updateBlock (marks : String → List MarkedAllocation) (name : String) :
    Effect AllocatorSet ControllerError (List IpAddr) :=
  AllocatorSet.onBlock name (updateAllocations (marks name))

theorem allocateLbAddrs_eq :
    allocateLbAddrs order svc set =
      if (desiredPools svc set).isNone then (.error .noAllocatableAddress, set)
      else collect (updateBlock (svc.plan set)) (markedBlocks order svc set) set := by
  have start : allocateLbAddrs order svc set =
      (lift (buildDesiredAllocation svc set) >>= fun desired =>
        let merged := mergeMarkedAllocation (actualAllocation svc set) desired
        collect
          (fun name => AllocatorSet.onBlock name (updateAllocations ((merged.lookup name).getD [])))
          (order.visit merged.keys)) set := rfl
  rw [start]
  cases chosen : desiredPools svc set with
  | none =>
    have built : buildDesiredAllocation svc set = .error .noAllocatableAddress := by
      rw [buildDesiredAllocation, chosen]
    rw [built]
    rfl
  | some pools =>
    have built : ∃ desired, buildDesiredAllocation svc set = .ok desired := by
      rw [buildDesiredAllocation, chosen]
      cases svc.getRequiredLbAddrs with
      | none | some addrs => exact ⟨_, rfl⟩
    rcases built with ⟨desired, built⟩
    rw [markedBlocks, built, lift_ok_bind]
    simp only [getD_merged built, Option.isNone_some, Bool.false_eq_true, if_false]
    rfl

theorem updateAllocations_ok (ran : collect applyMark marks alloc = (.ok out, final)) :
    updateAllocations marks alloc = (.ok (sortAddrs out), final) := by
  rw [updateAllocations, bind_apply, ran]
  rfl

theorem updateAllocations_error {cause : ControllerError}
    (ran : collect applyMark marks alloc = (.error cause, final)) :
    updateAllocations marks alloc = (.error cause, final) := by
  rw [updateAllocations, bind_apply, ran]

theorem updateAllocations_final (marks : List MarkedAllocation) (alloc : Allocator) :
    (updateAllocations marks alloc).2 = (collect applyMark marks alloc).2 := by
  rw [updateAllocations, bind_apply]
  rcases collect applyMark marks alloc with ⟨out | cause | _, final⟩ <;> rfl

theorem updateAllocations_eq_ok (run : updateAllocations marks alloc = (.ok out, final)) :
    ∃ values, collect applyMark marks alloc = (.ok values, final) ∧
      out = sortAddrs values := by
  rcases bind_eq_ok.mp run with ⟨values, middle, ran, last⟩
  rcases last with ⟨rfl, rfl⟩
  exact ⟨values, ran, rfl⟩

def shareOf (marks : String → List MarkedAllocation) (set : AllocatorSet) (name : String) :
    List IpAddr :=
  match set.get name with
  | some block =>
    match collect applyMark (marks name) block.allocator with
    | (.ok values, _) => sortAddrs values
    | _ => []
  | none => []

variable {marks : String → List MarkedAllocation} {set final : AllocatorSet} {names : List String}

theorem updateBlock_ok {name : String} (run : updateBlock marks name set = (.ok out, final)) :
    out = shareOf marks set name ∧ ∀ block, set.get name = some block →
      ∃ values alloc, collect applyMark (marks name) block.allocator = (.ok values, alloc) ∧
        shareOf marks set name = sortAddrs values ∧
        final.get name = some { block with allocator := alloc } := by
  rw [updateBlock] at run
  cases found : set.get name with
  | none =>
    rw [onBlock_of_none found, Prod.mk.injEq, Outcome.ok.injEq] at run
    refine ⟨?_, by simp⟩
    rw [shareOf, found]
    exact run.1.symm
  | some block =>
    rw [onBlock_of_get found, Prod.mk.injEq] at run
    have ran : updateAllocations (marks name) block.allocator =
        (.ok out, (updateAllocations (marks name) block.allocator).2) := Prod.ext run.1 rfl
    rcases updateAllocations_eq_ok ran with ⟨values, collected, rfl⟩
    have share : shareOf marks set name = sortAddrs values := by
      simp only [shareOf, found, collected]
    refine ⟨share.symm, fun other same => ?_⟩
    rw [Option.some.injEq] at same
    subst same
    refine ⟨values, _, collected, share, ?_⟩
    rw [← run.2, AllocatorSet.get_setAllocator, if_pos rfl]

theorem collect_updateBlock_ok (distinct : names.Nodup)
    (run : collect (updateBlock marks) names set = (.ok out, final)) :
    out = names.flatMap (shareOf marks set) ∧
      ∀ name ∈ names, ∀ block, set.get name = some block →
        ∃ values alloc, collect applyMark (marks name) block.allocator =
            (.ok values, alloc) ∧ shareOf marks set name = sortAddrs values ∧
          final.get name = some { block with allocator := alloc } := by
  induction names generalizing set out with
  | nil =>
    simp only [collect, pure_apply, Prod.mk.injEq, Outcome.ok.injEq] at run
    simp [← run.1]
  | cons name rest ih =>
    rcases List.nodup_cons.mp distinct with ⟨absent, distinct⟩
    rcases collect_cons_ok run with ⟨values, others, next, ran, restRun, rfl⟩
    rcases updateBlock_ok ran with ⟨here, block⟩
    rcases ih distinct restRun with ⟨behind, blocks⟩
    have kept : ∀ other ∈ rest, next.get other = set.get other := by
      intro other member
      have same : (updateBlock marks name set).2.get other = set.get other := by
        refine get_onBlock_ne ?_
        rintro rfl
        exact absent member
      rwa [ran] at same
    have shares : ∀ other ∈ rest, shareOf marks next other = shareOf marks set other := by
      intro other member
      rw [shareOf, kept other member, shareOf]
    refine ⟨?_, ?_⟩
    · rw [List.flatMap_cons, here, behind]
      exact congrArg _ (List.flatMap_congr shares)
    intro other member stored found
    rcases List.mem_cons.mp member with rfl | inRest
    · rcases block stored found with ⟨values', alloc, collected, share, last⟩
      refine ⟨values', alloc, collected, share, ?_⟩
      have same : (collect (updateBlock marks) rest next).2.get other = next.get other :=
        get_collect_onBlock absent
      rw [restRun] at same
      rw [same, last]
    have found' := (kept other inRest).trans found
    rcases blocks other inRest stored found' with ⟨values', alloc, collected, share, last⟩
    exact ⟨values', alloc, collected, (shares other inRest).symm.trans share, last⟩

end Sart
