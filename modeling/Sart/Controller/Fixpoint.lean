import Sart.Controller.Release

/-!
# Reconciling a Service again

A second run finds nothing to allocate or to release.  It does compare the status with the
addresses block by block in the order of a hash map; with addresses of two blocks another
order makes it write the status again.
-/

namespace Sart

open Sart.Lib Sart.Lib.Effect

variable {order : HashOrder} {answers : ApiAnswers} {svc : Service} {cluster : Cluster}

def Cluster.handles (cluster : Cluster) (answers : ApiAnswers) (svc : Service) : Bool :=
  !cluster.allocators.blocks.entries.isEmpty && svc.externalTrafficPolicy.isSome &&
    answers.syncEndpointSlices

theorem reconcile_of_balancer (balancer : svc.isLoadbalancer = true) :
    Cluster.reconcile order answers svc cluster =
      (if cluster.allocators.blocks.entries.isEmpty then fail .noAllocatableBlock
      else if svc.externalTrafficPolicy.isNone then fail .invalidExternalTrafficPolicy
      else do
        Cluster.call answers.syncEndpointSlices
        Cluster.updateLbAddrs order answers svc : Effect Cluster ControllerError PUnit)
          cluster := by
  rw [Cluster.reconcile, balancer]
  rfl

theorem reconcile_unhandled (order : HashOrder) (balancer : svc.isLoadbalancer = true)
    (unhandled : cluster.handles answers svc = false) :
    ∃ cause, Cluster.reconcile order answers svc cluster = (.error cause, cluster) := by
  rw [reconcile_of_balancer balancer]
  split_ifs with empty policy
  · exact ⟨_, rfl⟩
  · exact ⟨_, rfl⟩
  · rw [Bool.not_eq_true, Option.isNone_eq_false_iff] at policy
    have unsynced : answers.syncEndpointSlices = false := by
      simpa [Cluster.handles, empty, policy] using unhandled
    rw [unsynced]
    exact ⟨_, rfl⟩

theorem reconcile_handled (balancer : svc.isLoadbalancer = true)
    (handled : cluster.handles answers svc = true) :
    Cluster.reconcile order answers svc cluster =
      Cluster.updateLbAddrs order answers svc cluster := by
  simp only [Cluster.handles, Bool.and_eq_true, Bool.not_eq_true'] at handled
  rcases handled with ⟨⟨filled, policy⟩, synced⟩
  rw [reconcile_of_balancer balancer, filled, Option.isNone_eq_false_iff.mpr policy, synced]
  rfl

variable {set : AllocatorSet}

theorem updateLbAddrs_ok {remained : List IpAddr}
    (allocated : allocateLbAddrs order svc cluster.allocators = (.ok remained, set)) :
    Cluster.updateLbAddrs order answers svc cluster =
      if svc.addrs = remained then (.ok ⟨⟩, { cluster with allocators := set })
      else if answers.replaceStatus then
        (if answers.annotateEndpointSlices then .ok ⟨⟩ else .error .kube,
          ⟨set, cluster.services.insert svc.name (svc.updateSvcLbAddrs remained),
            cluster.statusWrites + 1⟩)
      else (.error .kube, { cluster with allocators := set }) := by
  have ran : Cluster.onAllocators (allocateLbAddrs order svc) cluster =
      (.ok remained, { cluster with allocators := set }) := by
    rw [Cluster.onAllocators, allocated]
  rw [Cluster.updateLbAddrs, bind_apply, ran]
  dsimp only
  split_ifs with same answered annotated
  · rfl
  · rw [answered, annotated]
    rfl
  · rw [answered, Bool.eq_false_iff.mpr annotated]
    rfl
  · rw [Bool.eq_false_iff.mpr answered]
    rfl

theorem updateLbAddrs_failed (answers : ApiAnswers) {result : Outcome ControllerError (List IpAddr)}
    (allocated : allocateLbAddrs order svc cluster.allocators = (result, set))
    (failed : ∀ remained, result ≠ .ok remained) :
    (Cluster.updateLbAddrs order answers svc cluster).2 = { cluster with allocators := set } ∧
      ∀ value, (Cluster.updateLbAddrs order answers svc cluster).1 ≠ .ok value := by
  have ran : Cluster.onAllocators (allocateLbAddrs order svc) cluster =
      (result, { cluster with allocators := set }) := by
    rw [Cluster.onAllocators, allocated]
  rw [Cluster.updateLbAddrs, bind_apply, ran]
  rcases result with remained | cause | _
  · exact absurd rfl (failed remained)
  all_goals exact ⟨rfl, by simp⟩

instance : Std.Total fun left right : IpAddr => (compare left right).isLE = true where
  total left right := by
    have swapped : compare left right = (compare right left).swap := Std.OrientedOrd.eq_swap
    rw [swapped]
    cases compare right left <;> decide

instance : IsTrans IpAddr fun left right => (compare left right).isLE = true where
  trans _ _ _ := Std.TransOrd.isLE_trans

theorem sortAddrs_sortAddrs (addrs : List IpAddr) : sortAddrs (sortAddrs addrs) = sortAddrs addrs :=
  List.Pairwise.insertionSort_eq (List.pairwise_insertionSort _ addrs)

variable {addrs : List IpAddr} {final : Cluster}

theorem mem_sortAddrs {addr : IpAddr} :
    addr ∈ sortAddrs addrs ↔ addr ∈ addrs :=
  (List.perm_insertionSort _ addrs).mem_iff

theorem sortAddrs_ne_nil (several : addrs ≠ []) : sortAddrs addrs ≠ [] := by
  intro empty
  have same := List.perm_insertionSort (fun left right : IpAddr => (compare left right).isLE) addrs
  rw [show addrs.insertionSort _ = [] from empty] at same
  exact several same.nil_eq.symm

/-- The state of the allocators after the addresses of a Service were brought in line, with the
addresses it has of each block. -/
structure InLine (svc : Service) (set : AllocatorSet) (share : String → List IpAddr)
    (after : AllocatorSet) : Prop where
  autoAssign : after.autoAssign = set.autoAssign
  absent : ∀ {name}, set.get name = none → after.get name = none ∧ share name = []
  stored : ∀ {name block}, set.get name = some block → ∃ alloc,
    after.get name = some { block with allocator := alloc } ∧
      alloc.cidr = block.allocator.cidr ∧ ∀ addr ∈ share name, alloc.holds addr = true
  unnamed : ∀ {name}, svc.names set name = false → share name = []
  named : ∀ {name block}, set.get name = some block → svc.names set name = true →
    share name ≠ [] ∧ sortAddrs (share name) = share name ∧
      (svc.wanted block ≠ [] → share name = sortAddrs (svc.wanted block))

abbrev Service.given (svc : Service) (names : List String) (share : String → List IpAddr) :
    Service :=
  svc.updateSvcLbAddrs (names.flatMap share)

variable {after : AllocatorSet} {remained : List IpAddr}

section

variable (chosen : desiredPools svc set ≠ none)

include chosen

theorem buildDesiredAllocation_ok :
    ∃ desired, buildDesiredAllocation svc set = .ok desired := by
  rw [buildDesiredAllocation]
  rcases pools : desiredPools svc set with _ | pools
  · exact absurd pools chosen
  · cases svc.getRequiredLbAddrs with
    | none | some addrs => exact ⟨_, rfl⟩

variable {name : String} {block : Block}

theorem mem_markedBlocks (marked : svc.plan set name ≠ []) :
    name ∈ markedBlocks order svc set := by
  rcases buildDesiredAllocation_ok chosen with ⟨desired, built⟩
  simp only [markedBlocks, built]
  rw [(order.perm _).mem_iff, mem_keys_iff]
  intro absent
  have empty := getD_merged built name
  rw [absent] at empty
  exact marked empty.symm

theorem shareOf_of_not_mem
    (unvisited : name ∉ markedBlocks order svc set) : shareOf (svc.plan set) set name = [] := by
  have empty : svc.plan set name = [] := by
    by_contra marked
    exact unvisited (mem_markedBlocks chosen marked)
  cases found : set.get name with
  | none => rw [shareOf, found]
  | some block =>
    simp only [shareOf, found, empty]
    rfl

theorem collect_plan (run : collect (updateBlock (svc.plan set)) (markedBlocks order svc set) set =
      (.ok remained, after)) (found : set.get name = some block) :
    ∃ values alloc, collect applyMark (svc.plan set name) block.allocator =
        (.ok values, alloc) ∧ shareOf (svc.plan set) set name = sortAddrs values ∧
      after.get name = some { block with allocator := alloc } := by
  by_cases visited : name ∈ markedBlocks order svc set
  · exact (collect_updateBlock_ok (nodup_markedBlocks order svc set) run).2 name visited block found
  have empty : svc.plan set name = [] := by
    by_contra marked
    exact visited (mem_markedBlocks chosen marked)
  have kept : (collect (updateBlock (svc.plan set)) (markedBlocks order svc set) set).2.get
      name = set.get name := get_collect_onBlock visited
  rw [run] at kept
  refine ⟨[], block.allocator, ?_, ?_, kept.trans found⟩
  · rw [empty]
    rfl
  · rw [shareOf_of_not_mem chosen visited]
    rfl

end

theorem given_map {mark : IpAddr → MarkedAllocation} (gives : ∀ addr, (mark addr).given = [addr])
    (addrs : List IpAddr) : (addrs.map mark).flatMap MarkedAllocation.given = addrs := by
  simp [List.flatMap_map, gives]

theorem given_map_release (addrs : List IpAddr) :
    (addrs.map MarkedAllocation.release).flatMap MarkedAllocation.given = [] := by
  simp [MarkedAllocation.given]

/-- The addresses of a block that a Service is to have: the wanted ones, or without those the ones
it has. -/
def Service.expected (svc : Service) (block : Block) : List IpAddr :=
  if svc.wanted block = [] then svc.current block else svc.wanted block

theorem values_of_named {values : List IpAddr} {alloc : Allocator}
    (run : collect applyMark (plannedMarks true (svc.current block) (svc.wanted block))
      block.allocator = (.ok values, alloc)) : (svc.expected block = [] ∧ ∃ addr, values = [addr]) ∨
      (svc.expected block ≠ [] ∧ values = svc.expected block) := by
  unfold Service.expected
  by_cases specific : svc.wanted block = []
  · rw [if_pos specific]
    by_cases fresh : svc.current block = []
    · rw [plannedMarks, if_pos rfl, if_pos specific, if_pos fresh] at run
      rcases collect_cons_ok run with ⟨given, others, next, ran, last, rfl⟩
      have step := applyMark_applied block.allocator (.allocate none)
      rw [ran] at step
      rw [out_eq_given (by simp) last]
      cases step with
      | @added _ addr adds inside free => exact .inl ⟨fresh, addr, rfl⟩
    rw [plannedMarks, if_pos rfl, if_pos specific, if_neg fresh] at run
    refine .inr ⟨fresh, ?_⟩
    rw [out_eq_given (by simp) run, given_map fun _ => rfl]
  rw [plannedMarks, if_pos rfl, if_neg specific] at run
  rw [if_neg specific]
  refine .inr ⟨specific, ?_⟩
  rw [out_eq_given ?_ run, List.flatMap_append, given_map_release, List.append_nil, given_map]
  · intro addr
    split_ifs <;> rfl
  simp only [List.mem_append, List.mem_map, not_or, not_exists, not_and]
  refine ⟨fun addr _ same => ?_, by simp⟩
  split_ifs at same
  simp at same

theorem inLine_of_run (chosen : desiredPools svc set ≠ none)
    (run : collect (updateBlock (svc.plan set)) (markedBlocks order svc set) set =
      (.ok remained, after)) : InLine svc set (shareOf (svc.plan set) set) after where
  autoAssign := by
    have kept : (collect (updateBlock (svc.plan set)) (markedBlocks order svc set)
        set).2.autoAssign = set.autoAssign := autoAssign_collect_onBlock
    rwa [run] at kept
  absent {name} none := by
    have gone : (collect (updateBlock (svc.plan set)) (markedBlocks order svc set) set).2.get
        name = Option.none := get_collect_onBlock_none none
    rw [run] at gone
    refine ⟨gone, ?_⟩
    rw [shareOf, none]
  stored {name block} found := by
    rcases collect_plan chosen run found with ⟨values, alloc, ran, share, last⟩
    refine ⟨alloc, last, ?_, fun addr member => ?_⟩
    · have kept := cidr_collect_applyMark (svc.plan set name) block.allocator
      rwa [ran] at kept
    · rw [share, mem_sortAddrs] at member
      exact holds_of_collect (svc.plan_lasts set name) ran addr member
  unnamed {name} other := by
    cases found : set.get name with
    | none => rw [shareOf, found]
    | some block =>
      rcases collect_plan chosen run found with ⟨values, alloc, ran, share, -⟩
      rw [Service.plan, found] at ran
      dsimp only at ran
      rw [other, plannedMarks, if_neg (by simp)] at ran
      rw [share, out_eq_given (by simp) ran, given_map_release]
      rfl
  named {name block} found named := by
    rcases collect_plan chosen run found with ⟨values, alloc, ran, share, last⟩
    rw [Service.plan, found] at ran
    rw [named] at ran
    rw [share]
    rcases values_of_named ran with ⟨nothing, addr, rfl⟩ | ⟨several, rfl⟩
    · refine ⟨by simp [sortAddrs], rfl, fun wanted => ?_⟩
      rw [Service.expected, if_neg wanted] at nothing
      exact absurd nothing wanted
    · refine ⟨sortAddrs_ne_nil several, sortAddrs_sortAddrs _, fun wanted => ?_⟩
      rw [Service.expected, if_neg wanted]

theorem collect_kept {alloc : Allocator} (held : ∀ addr ∈ addrs, alloc.holds addr = true) :
    collect applyMark (addrs.map .allocated) alloc = (.ok addrs, alloc) := by
  induction addrs with
  | nil => rfl
  | cons addr rest ih =>
    have here := held addr List.mem_cons_self
    have ran : applyMark (.allocated addr) alloc = (.ok [addr], alloc) := by
      rw [applyMark, Allocator.perform_eq, Allocator.isAllocated_eq, Outcome.ok_bind, if_pos here]
    rw [List.map_cons, collect_cons ran,
      ih fun other member => held other (List.mem_cons_of_mem _ member)]
    rfl

theorem flatMap_eq_of_single {α β : Type} [DecidableEq α] {items : List α} (distinct : items.Nodup)
    {item : α} {parts : α → List β} (others : ∀ other ∈ items, other ≠ item → parts other = []) :
    items.flatMap parts = if item ∈ items then parts item else [] := by
  induction items with
  | nil => rfl
  | cons first rest ih =>
    rcases List.nodup_cons.mp distinct with ⟨absent, distinct⟩
    rw [List.flatMap_cons, ih distinct fun other member =>
      others other (List.mem_cons_of_mem _ member)]
    by_cases same : first = item
    · subst same
      rw [if_neg absent, if_pos List.mem_cons_self, List.append_nil]
    · rw [others first List.mem_cons_self same, List.nil_append]
      simp [Ne.symm same]

variable {share : String → List IpAddr} {names : List String} {alloc : Allocator}

theorem addrs_updateSvcLbAddrs (svc : Service) (addrs : List IpAddr) :
    (svc.updateSvcLbAddrs addrs).addrs = addrs := by
  simp [Service.addrs, Service.getAllocatedLbAddrs, Service.updateSvcLbAddrs, List.filterMap_map]

theorem InLine.inside (line : InLine svc set share after) (found : set.get name = some block) :
    ∀ addr ∈ share name, block.allocator.cidr.contains addr = true := by
  intro addr member
  rcases line.stored found with ⟨alloc, -, cidr, held⟩
  rw [← cidr]
  exact Allocator.contains_of_holds (held addr member)

theorem InLine.handles_again {cluster final : Cluster} {answers : ApiAnswers}
    (line : InLine svc cluster.allocators share final.allocators)
    (handled : cluster.handles answers svc = true) (addrs : List IpAddr) (others : ApiAnswers) :
    final.handles others (svc.updateSvcLbAddrs addrs) = others.syncEndpointSlices := by
  simp only [Cluster.handles, Bool.and_eq_true, Bool.not_eq_true'] at handled
  rcases handled with ⟨⟨filled, policy⟩, -⟩
  have stillFilled : final.allocators.blocks.entries.isEmpty = false := by
    rcases entries : cluster.allocators.blocks.entries with _ | ⟨entry, rest⟩
    · rw [entries] at filled
      exact absurd filled (by simp)
    have found : cluster.allocators.get entry.1 = some entry.2 :=
      AList.mem_lookup_iff.mpr (entries ▸ List.mem_cons_self)
    rcases line.stored found with ⟨alloc, stored, -⟩
    have member := AList.mem_lookup_iff.mp stored
    rw [List.isEmpty_eq_false_iff]
    exact List.ne_nil_of_mem member
  have samePolicy : (svc.updateSvcLbAddrs addrs).externalTrafficPolicy.isSome = true := policy
  rw [Cluster.handles, stillFilled, samePolicy]
  rfl

theorem InLine.filter_share (line : InLine svc set share after) (disjoint : set.Disjoint)
    (distinct : names.Nodup) (all : name ∉ names → share name = [])
    (found : set.get name = some block) :
    (names.flatMap share).filter (fun addr => block.allocator.cidr.contains addr) = share name := by
  have others : ∀ other ∈ names, other ≠ name →
      (share other).filter (fun addr => block.allocator.cidr.contains addr) = [] := by
    intro other _ different
    refine List.filter_eq_nil_iff.mpr fun addr member contained => ?_
    cases foundOther : set.get other with
    | none =>
      rw [(line.absent foundOther).2] at member
      exact absurd member List.not_mem_nil
    | some left =>
      exact disjoint other name left block foundOther found different addr
        ⟨line.inside foundOther addr member, contained⟩
  have own : (share name).filter (fun addr => block.allocator.cidr.contains addr) = share name :=
    List.filter_eq_self.mpr (line.inside found)
  rw [List.filter_flatMap, flatMap_eq_of_single distinct others, own]
  split_ifs with visited
  · rfl
  · exact (all visited).symm

def keptAddrs (svc : Service) (block : Block) (share : List IpAddr) : List IpAddr :=
  if svc.wanted block = [] then share else svc.wanted block

section

variable (line : InLine svc set share after) (disjoint : set.Disjoint) (distinct : names.Nodup)
  (all : ∀ name, name ∉ names → share name = [])

include line disjoint distinct all

theorem InLine.plan_again (found : set.get name = some block)
    (stored : after.get name = some { block with allocator := alloc })
    (cidr : alloc.cidr = block.allocator.cidr) :
    (svc.given names share).plan after name =
      if svc.names set name then (keptAddrs svc block (share name)).map .allocated else [] := by
  have named : (svc.given names share).names after name =
      svc.names set name := by
    simp only [Service.names, desiredPools, line.autoAssign]
    rfl
  have current : (svc.given names share).current
      { block with allocator := alloc } = share name := by
    rw [Service.current, addrs_updateSvcLbAddrs]
    rw [cidr]
    exact line.filter_share disjoint distinct (all name) found
  have wanted : (svc.given names share).wanted
      { block with allocator := alloc } = svc.wanted block := by
    rw [Service.wanted, Service.wanted]
    rw [cidr]
    rfl
  rw [Service.plan, stored]
  dsimp only
  rw [named, current, wanted]
  by_cases takes : svc.names set name = true
  · rcases line.named found takes with ⟨several, -, specific⟩
    rw [if_pos takes, takes, plannedMarks, if_pos rfl, keptAddrs]
    by_cases any : svc.wanted block = []
    · rw [if_pos any, if_pos any, if_neg several]
    have keeps : (svc.wanted block).map (fun addr => if addr ∈ sortAddrs (svc.wanted block) then
        MarkedAllocation.allocated addr else .allocate (some addr)) =
        (svc.wanted block).map .allocated :=
      List.map_congr_left fun addr member => if_pos (mem_sortAddrs.mpr member)
    have frees : (sortAddrs (svc.wanted block)).filter (· ∉ svc.wanted block) = [] := by
      refine List.filter_eq_nil_iff.mpr fun addr member => ?_
      simpa using mem_sortAddrs.mp member
    rw [if_neg any, if_neg any, specific any, keeps, frees, List.map_nil, List.append_nil]
  · rw [if_neg takes, Bool.eq_false_iff.mpr takes, line.unnamed (Bool.eq_false_iff.mpr takes)]
    rfl

variable {state : AllocatorSet}

theorem InLine.updateBlock_again (same : state.get name = after.get name) :
    ∃ next, updateBlock ((svc.given names share).plan after) name state =
        (.ok (share name), next) ∧ ∀ other, next.get other = state.get other := by
  cases found : set.get name with
  | none =>
    rcases line.absent found with ⟨absent, empty⟩
    refine ⟨state, ?_, fun _ => rfl⟩
    rw [updateBlock, onBlock_of_none (same.trans absent), empty]
  | some block =>
    rcases line.stored found with ⟨alloc, stored, cidr, held⟩
    have here := same.trans stored
    have ran : updateAllocations ((svc.given names share).plan after name)
        alloc = (.ok (share name), alloc) := by
      rw [line.plan_again disjoint distinct all found stored cidr]
      by_cases takes : svc.names set name = true
      · rcases line.named found takes with ⟨-, sorted, specific⟩
        have kept : ∀ addr ∈ keptAddrs svc block (share name), alloc.holds addr = true := by
          intro addr member
          rw [keptAddrs] at member
          split_ifs at member with any
          · exact held addr member
          refine held addr ?_
          rw [specific any]
          exact mem_sortAddrs.mpr member
        rw [if_pos takes, updateAllocations_ok (collect_kept kept), keptAddrs]
        split_ifs with any
        · rw [sorted]
        · rw [specific any]
      · rw [if_neg takes, line.unnamed (Bool.eq_false_iff.mpr takes)]
        rfl
    refine ⟨state.setAllocator name { block with allocator := alloc } alloc, ?_, fun other => ?_⟩
    · rw [updateBlock, onBlock_of_get here, ran]
    rw [AllocatorSet.get_setAllocator]
    split_ifs with equal
    · rw [equal, here]
    · rfl

theorem InLine.collect_again (visited : List String)
    (same : ∀ name, state.get name = after.get name) :
    ∃ final, collect
        (updateBlock ((svc.given names share).plan after)) visited state =
        (.ok (visited.flatMap share), final) ∧ ∀ name, final.get name = after.get name := by
  induction visited generalizing state with
  | nil => exact ⟨state, rfl, same⟩
  | cons name rest ih =>
    rcases line.updateBlock_again disjoint distinct all (same name) with ⟨next, ran, kept⟩
    rcases ih fun other => (kept other).trans (same other) with ⟨final, run, last⟩
    refine ⟨final, ?_, last⟩
    rw [collect_cons ran, run, List.flatMap_cons]

theorem InLine.allocate_again (chosen : desiredPools svc set ≠ none) (order : HashOrder) :
    ∃ final, allocateLbAddrs order (svc.given names share) after =
        (.ok ((markedBlocks order (svc.given names share) after).flatMap share),
          final) ∧ ∀ name, final.get name = after.get name := by
  have pools : desiredPools (svc.given names share) after =
      desiredPools svc set := by
    simp only [desiredPools, line.autoAssign]
    rfl
  rw [allocateLbAddrs_eq, if_neg (by simpa [pools] using chosen)]
  exact line.collect_again disjoint distinct all _ fun _ => rfl

theorem InLine.mem_markedBlocks_again
    (chosen : desiredPools svc set ≠ none) (order : HashOrder) (found : set.get name = some block)
    (takes : svc.names set name = true) :
    name ∈ markedBlocks order (svc.given names share) after := by
  have pools : desiredPools (svc.given names share) after =
      desiredPools svc set := by
    simp only [desiredPools, line.autoAssign]
    rfl
  refine mem_markedBlocks (by rwa [pools]) ?_
  rcases line.stored found with ⟨alloc, stored, cidr, -⟩
  rw [line.plan_again disjoint distinct all found stored cidr, if_pos takes, keptAddrs]
  have several := (line.named found takes).1
  split_ifs with any
  · simpa using several
  · simpa using any

end

def Service.Uses (svc : Service) (set : AllocatorSet) (name : String) : Prop :=
  svc.names set name = true ∧ (set.get name).isSome = true

/-- Another run of the watcher changes nothing, whatever the order of its visits and the answers
of the API server are. -/
def Settled (svc : Service) (cluster : Cluster) : Prop :=
  ∀ order answers,
    (∀ name, (Cluster.reconcile order answers svc cluster).2.allocators.get name =
      cluster.allocators.get name) ∧
    (∀ name, (Cluster.reconcile order answers svc cluster).2.services.lookup name =
      cluster.services.lookup name) ∧
    (Cluster.reconcile order answers svc cluster).2.statusWrites = cluster.statusWrites ∧
    (answers.syncEndpointSlices = true →
      (Cluster.reconcile order answers svc cluster).1 = .ok ⟨⟩)

def HashOrder.first (name : String) : HashOrder where
  visit keys := if name ∈ keys then name :: keys.erase name else keys
  perm keys := by
    split_ifs with member
    · exact (List.perm_cons_erase member).symm
    · exact List.Perm.refl keys

theorem InLine.flatMap_eq (line : InLine svc set share after)
    (single : ∀ first second, svc.Uses set first → svc.Uses set second → first = second)
    {left right : List String} (distinctLeft : left.Nodup) (distinctRight : right.Nodup)
    (allLeft : ∀ name, svc.Uses set name → name ∈ left)
    (allRight : ∀ name, svc.Uses set name → name ∈ right) :
    left.flatMap share = right.flatMap share := by
  have unused : ∀ name, ¬svc.Uses set name → share name = [] := by
    intro name not
    by_cases takes : svc.names set name = true
    · refine (line.absent ?_).2
      simpa [Service.Uses, takes] using not
    · exact line.unnamed (Bool.eq_false_iff.mpr takes)
  by_cases any : ∃ name, svc.Uses set name
  · rcases any with ⟨name, uses⟩
    have others : ∀ other, other ≠ name → share other = [] := fun other different =>
      unused other fun usesOther => different (single other name usesOther uses)
    rw [flatMap_eq_of_single distinctLeft fun other _ => others other,
      flatMap_eq_of_single distinctRight fun other _ => others other,
      if_pos (allLeft name uses), if_pos (allRight name uses)]
  have empty : ∀ name, share name = [] := fun name => unused name fun uses => any ⟨name, uses⟩
  rw [List.flatMap_eq_nil_iff.mpr fun name _ => empty name,
    List.flatMap_eq_nil_iff.mpr fun name _ => empty name]

theorem InLine.flatMap_ne (line : InLine svc set share after) (disjoint : set.Disjoint)
    {first second : String} (usesFirst : svc.Uses set first) (usesSecond : svc.Uses set second)
    (different : first ≠ second) (left right : List String) :
    (first :: left).flatMap share ≠ (second :: right).flatMap share := by
  rcases Option.isSome_iff_exists.mp usesFirst.2 with ⟨firstBlock, foundFirst⟩
  rcases Option.isSome_iff_exists.mp usesSecond.2 with ⟨secondBlock, foundSecond⟩
  have severalFirst := (line.named foundFirst usesFirst.1).1
  have severalSecond := (line.named foundSecond usesSecond.1).1
  have insideFirst := line.inside foundFirst
  have insideSecond := line.inside foundSecond
  rcases firstShare : share first with _ | ⟨addr, others⟩
  · exact absurd firstShare severalFirst
  rcases secondShare : share second with _ | ⟨addr', others'⟩
  · exact absurd secondShare severalSecond
  rw [List.flatMap_cons, List.flatMap_cons, firstShare, secondShare]
  intro same
  rw [List.cons_append, List.cons_append, List.cons.injEq] at same
  refine disjoint first second firstBlock secondBlock foundFirst foundSecond different addr ⟨?_, ?_⟩
  · exact insideFirst addr (firstShare ▸ List.mem_cons_self)
  · rw [same.1]
    exact insideSecond addr' (secondShare ▸ List.mem_cons_self)

theorem markedBlocks_first {name : String} (visited : ∀ order, name ∈ markedBlocks order svc set) :
    ∃ rest, markedBlocks (.first name) svc set = name :: rest := by
  have member := visited .asStored
  unfold markedBlocks at member ⊢
  split at member
  · exact ⟨_, if_pos member⟩
  · exact absurd member List.not_mem_nil

theorem reconcile_wrote {order : HashOrder} (balancer : svc.isLoadbalancer = true)
    (run : Cluster.reconcile order answers svc cluster = (.ok ⟨⟩, final))
    (written : final.services.lookup svc.name = some (svc.updateSvcLbAddrs addrs))
    (wrote : final.statusWrites = cluster.statusWrites + 1) :
    cluster.handles answers svc = true ∧
      allocateLbAddrs order svc cluster.allocators = (.ok addrs, final.allocators) := by
  cases handled : cluster.handles answers svc with
  | false =>
    rcases reconcile_unhandled order balancer handled with ⟨cause, failed⟩
    rw [failed] at run
    exact absurd run (by simp)
  | true =>
    refine ⟨rfl, ?_⟩
    rw [reconcile_handled balancer handled] at run
    rcases allocated : allocateLbAddrs order svc cluster.allocators with ⟨remained | cause | _, set⟩
    · rw [updateLbAddrs_ok allocated] at run
      split_ifs at run with same answered annotated
      · rw [Prod.mk.injEq] at run
        rw [← run.2] at wrote
        exact absurd wrote (by simp)
      · rw [Prod.mk.injEq] at run
        rw [← run.2] at written
        rw [← run.2]
        rw [AList.lookup_insert, Option.some.injEq] at written
        have equal := congrArg Service.addrs written
        rw [addrs_updateSvcLbAddrs, addrs_updateSvcLbAddrs] at equal
        rw [equal]
      all_goals exact absurd run (by simp)
    all_goals
      have failed := (updateLbAddrs_failed answers allocated (by simp)).2 ⟨⟩
      rw [run] at failed
      exact absurd rfl failed

theorem settled_iff_orders {visits : HashOrder → List IpAddr} (balancer : svc.isLoadbalancer = true)
    (handled : ∀ answers, cluster.handles answers svc = answers.syncEndpointSlices)
    (allocates : ∀ order, ∃ final, allocateLbAddrs order svc cluster.allocators =
      (.ok (visits order), final) ∧ ∀ name, final.get name = cluster.allocators.get name) :
    Settled svc cluster ↔ ∀ order, visits order = svc.addrs := by
  constructor
  · intro settled order
    rcases allocates order with ⟨final, allocated, -⟩
    have kept := (settled order .all).2.2.1
    rw [reconcile_handled balancer (handled .all), updateLbAddrs_ok allocated] at kept
    by_contra different
    rw [if_neg (Ne.symm different)] at kept
    exact absurd kept (by simp [ApiAnswers.all])
  · intro same order answers
    cases synced : answers.syncEndpointSlices with
    | false =>
      rcases reconcile_unhandled order balancer ((handled answers).trans synced) with ⟨cause, run⟩
      rw [run]
      exact ⟨fun _ => rfl, fun _ => rfl, rfl, fun impossible => by simp at impossible⟩
    | true =>
      rcases allocates order with ⟨final, allocated, kept⟩
      rw [reconcile_handled balancer ((handled answers).trans synced),
        updateLbAddrs_ok allocated, if_pos (same order).symm]
      exact ⟨kept, fun _ => rfl, rfl, fun _ => rfl⟩

theorem InLine.settled {share : String → List IpAddr} {names : List String}
    (line : InLine svc cluster.allocators share final.allocators)
    (balancer : svc.isLoadbalancer = true) (handled : cluster.handles answers svc = true)
    (disjoint : cluster.allocators.Disjoint) (chosen : desiredPools svc cluster.allocators ≠ none)
    (distinct : names.Nodup) (all : ∀ name, name ∉ names → share name = []) :
    Settled (svc.given names share) final ↔
      ∀ first second, svc.Uses cluster.allocators first → svc.Uses cluster.allocators second →
        first = second := by
  have balancerAgain : (svc.given names share).isLoadbalancer = true := balancer
  rw [settled_iff_orders balancerAgain (line.handles_again handled (names.flatMap share))
    (line.allocate_again disjoint distinct all chosen), addrs_updateSvcLbAddrs]
  have again : ∀ order name, svc.Uses cluster.allocators name →
      name ∈ markedBlocks order (svc.given names share) final.allocators := by
    intro order name uses
    rcases Option.isSome_iff_exists.mp uses.2 with ⟨block, found⟩
    exact line.mem_markedBlocks_again disjoint distinct all chosen order found uses.1
  constructor
  · intro same first second usesFirst usesSecond
    by_contra different
    rcases markedBlocks_first fun order => again order first usesFirst with ⟨left, visitFirst⟩
    rcases markedBlocks_first fun order => again order second usesSecond with ⟨right, visitSecond⟩
    have equal := (same (.first first)).trans (same (.first second)).symm
    rw [visitFirst, visitSecond] at equal
    exact line.flatMap_ne disjoint usesFirst usesSecond different left right equal
  · intro single order
    refine line.flatMap_eq single (nodup_markedBlocks _ _ _) distinct (again order) ?_
    intro name uses
    by_contra unvisited
    rcases Option.isSome_iff_exists.mp uses.2 with ⟨block, found⟩
    exact (line.named found uses.1).1 (all name unvisited)

/-- A load balancer is settled once its status was written if and only if it takes addresses from
one block at most. -/
theorem settled_iff (order : HashOrder) (answers : ApiAnswers) (svc : Service)
    (cluster final : Cluster) (addrs : List IpAddr) (balancer : svc.isLoadbalancer = true)
    (disjoint : cluster.allocators.Disjoint)
    (run : Cluster.reconcile order answers svc cluster = (.ok ⟨⟩, final))
    (written : final.services.lookup svc.name = some (svc.updateSvcLbAddrs addrs))
    (wrote : final.statusWrites = cluster.statusWrites + 1) :
    Settled (svc.updateSvcLbAddrs addrs) final ↔
      ∀ first second, svc.Uses cluster.allocators first → svc.Uses cluster.allocators second →
        first = second := by
  rcases reconcile_wrote balancer run written wrote with ⟨handled, allocated⟩
  have chosen : desiredPools svc cluster.allocators ≠ none := by
    intro none
    rw [allocateLbAddrs_eq, none] at allocated
    exact absurd allocated (by simp)
  rw [allocateLbAddrs_eq, if_neg (by simpa using chosen)] at allocated
  have distinct := nodup_markedBlocks order svc cluster.allocators
  rw [(collect_updateBlock_ok distinct allocated).1]
  exact (inLine_of_run chosen allocated).settled balancer handled disjoint chosen distinct
    fun name => shareOf_of_not_mem chosen

theorem settled_of_one_block :
    Settled ((sampleRequest []).updateSvcLbAddrs [.v4 0x0A000000#32])
      (Cluster.reconcile .asStored .all (sampleRequest [])
        (sampleCluster (sampleRequest []))).2 := by
  have only : ∀ name block, (sampleCluster (sampleRequest [])).allocators.get name = some block →
      name = "lan" := by
    intro name block found
    by_contra other
    have absent : (sampleCluster (sampleRequest [])).allocators.get name = none :=
      AList.lookup_eq_none.mpr fun member => other (List.mem_singleton.mp member)
    rw [absent] at found
    exact absurd found (by simp)
  refine (settled_iff .asStored .all (sampleRequest []) (sampleCluster (sampleRequest [])) _
    [.v4 0x0A000000#32] rfl ?_ (Prod.ext (by decide) rfl) (by decide) (by decide)).mpr ?_
  · intro first second left right foundFirst foundSecond different
    exact absurd ((only first left foundFirst).trans (only second right foundSecond).symm) different
  intro first second usesFirst usesSecond
  rcases Option.isSome_iff_exists.mp usesFirst.2 with ⟨left, foundFirst⟩
  rcases Option.isSome_iff_exists.mp usesSecond.2 with ⟨right, foundSecond⟩
  exact (only first left foundFirst).trans (only second right foundSecond).symm

def sampleBlock (name : String) (first : Ipv4Addr) : Block :=
  ⟨name, name, ⟨.v4 (.ofLength first 30), .new _, 0⟩⟩

def sampleTwo : Cluster :=
  ⟨⟨((∅ : AList fun _ : String => Block).insert "lan" (sampleBlock "lan" 0x0A000000#32)).insert
    "dmz"
    (sampleBlock "dmz" 0x0A000100#32), none⟩, ∅, 0⟩

theorem sampleTwo_get {name : String} {block : Block}
    (found : sampleTwo.allocators.get name = some block) :
    name = "dmz" ∧ block = sampleBlock "dmz" 0x0A000100#32 ∨
      name = "lan" ∧ block = sampleBlock "lan" 0x0A000000#32 := by
  rw [AllocatorSet.get, sampleTwo, Table.lookup_insert, Table.lookup_insert, AList.lookup_empty]
    at found
  split_ifs at found with dmz lan
  · exact .inl ⟨dmz, (Option.some.inj found).symm⟩
  · exact .inr ⟨lan, (Option.some.inj found).symm⟩

theorem sampleTwo_disjoint : sampleTwo.allocators.Disjoint := by
  have apart : ∀ addr, ¬((sampleBlock "dmz" 0x0A000100#32).allocator.cidr.contains addr = true ∧
      (sampleBlock "lan" 0x0A000000#32).allocator.cidr.contains addr = true) := by
    rintro addr ⟨inDmz, inLan⟩
    rw [IpNet.contains, decide_eq_true_eq] at inDmz inLan
    have above : 167772416 ≤ addr.value := inDmz.2.1
    have below : addr.value < 167772164 := inLan.2.2
    omega
  rintro first second left right foundFirst foundSecond different addr ⟨inLeft, inRight⟩
  rcases sampleTwo_get foundFirst with ⟨rfl, rfl⟩ | ⟨rfl, rfl⟩ <;>
    rcases sampleTwo_get foundSecond with ⟨rfl, rfl⟩ | ⟨rfl, rfl⟩
  · exact different rfl
  · exact apart addr ⟨inLeft, inRight⟩
  · exact apart addr ⟨inRight, inLeft⟩
  · exact different rfl

def sampleBoth : Service := { sampleRequest [] with poolAnnotation := some ["lan", "dmz"] }

/-- A load balancer with addresses of two blocks is reconciled and its status is written; it is
written again when the blocks are visited in another order. -/
theorem not_settled_of_two_blocks :
    sampleTwo.allocators.Disjoint ∧
      (Cluster.reconcile .asStored .all sampleBoth sampleTwo).1 = .ok ⟨⟩ ∧
      (Cluster.reconcile .asStored .all sampleBoth sampleTwo).2.services.lookup "web" =
        some (sampleBoth.updateSvcLbAddrs [.v4 0x0A000000#32, .v4 0x0A000100#32]) ∧
      ¬Settled (sampleBoth.updateSvcLbAddrs [.v4 0x0A000000#32, .v4 0x0A000100#32])
        (Cluster.reconcile .asStored .all sampleBoth sampleTwo).2 := by
  refine ⟨sampleTwo_disjoint, by decide, by decide, fun settled => ?_⟩
  have kept := (settled (.first "dmz") .all).2.2.1
  revert kept
  decide

end Sart
