import Sart.Agent.CniRecovery
import Sart.Agent.PodSafety

/-!
# Pods after a restart of the agent

The addresses of the pods are marked again when the agent starts, and no later call hands
one of them out.  They stay marked when the pods go, too: a DEL call looks for the address in
the map of the allocations, which is empty after a restart.
-/

namespace Sart

open Sart.Lib

structure AddedPod where
  info : PodInfo
  pool : String
  block : String
  addr : IpAddr

namespace AddedPod

def link (pod : AddedPod) : ContainerLinkInfo :=
  ⟨pod.info.containerId, CONTAINER_INTERFACE_NAME, pod.pool⟩

structure Present (host : Host) (blocks : List AddressBlock) (pod : AddedPod) : Prop where
  link : host.links.lookup (hostSide pod.info.containerId) = some pod.link.toAlias
  route : host.addr (hostSide pod.info.containerId) = some pod.addr
  block : ∃ ab ∈ blocks, ab.name = pod.block ∧ ab.type = .pod ∧
    ∃ cidr, ab.cidr = some cidr ∧ cidr.contains pod.addr = true

def Readable (blocks : List AddressBlock) (pod : AddedPod) : Prop :=
  pod.link.Plain ∧ ∀ ab ∈ blocks, ab.name = pod.block → ab.poolRef = pod.pool

end AddedPod

namespace Node

def restarted (node : Node) (set : AllocatorSet) : Node := { node with allocators := set }

def MarkedOnce (node : Node) (name : String) (addr : IpAddr) : Prop :=
  ∀ other, (∃ block, node.allocators.get other = some block ∧ block.allocator.holds addr = true) ↔
    other = name

/-- What a restart is to preserve: the addresses of the pods are marked, no call hands one of them
out while its pod is there, and a DEL call that gets as far as the allocation releases it. -/
structure Restored (wraps : Bool) (node : Node) (pods : List AddedPod) : Prop where
  marked : ∀ pod ∈ pods, node.MarkedOnce pod.block pod.addr
  kept : ∀ pod ∈ pods, ∀ events : List NodeEvent,
    AllSteps (apply wraps) (fun node event => event.Apart node) node events →
    (∀ call deleted, .del call deleted ∈ events → call.info ≠ pod.info) →
    ∀ key alloc, (events.foldl (apply wraps) node).allocation.lookup key = some alloc →
      alloc.addr ≠ pod.addr
  released : ∀ pod ∈ pods, ∀ call deleted, call.info = pod.info → call.podFound = true →
    (node.allocators.getPool call).isOk = true →
    ∀ block, (Node.del wraps call deleted node).2.allocators.get pod.block = some block →
      block.allocator.holds pod.addr = false

structure Reserves (node : Node) (name : String) (addr : IpAddr) : Prop where
  marked : node.MarkedOnce name addr
  unused : ∀ pod alloc, node.allocation.lookup pod = some alloc → alloc.addr ≠ addr

variable {node next : Node} {name : String} {addr : IpAddr}

theorem markedOnce_of_disjoint (disjoint : node.allocators.Disjoint) {block : Block}
    (found : node.allocators.get name = some block) (held : block.allocator.holds addr = true) :
    node.MarkedOnce name addr := by
  intro other
  constructor
  · rintro ⟨holder, known, holds⟩
    by_contra different
    exact disjoint other name holder block known found different addr
      ⟨Allocator.contains_of_holds holds, Allocator.contains_of_holds held⟩
  · rintro rfl
    exact ⟨block, found, held⟩

theorem Reserves.step (reserves : node.Reserves name addr) (sound : node.Sound)
    (step : Step node next) : next.Reserves name addr := by
  rcases (reserves.marked name).mpr rfl with ⟨block, found, held⟩
  constructor
  · have kept := step.change.held found held fun pod alloc stored _ =>
        (reserves.unused pod alloc stored).symm
    rcases kept with ⟨current, known, holds⟩
    exact markedOnce_of_disjoint (step.change.disjoint sound.disjoint) known holds
  · intro pod alloc stored
    rcases step.change.pods stored with was | ⟨⟨other, known, free⟩, -⟩
    · exact reserves.unused pod alloc was
    · exact (ne_of_free sound.disjoint found held known free).symm

theorem Reserves.run {wraps : Bool} {events : List NodeEvent} (reserves : node.Reserves name addr)
    (sound : node.Sound)
    (apart : AllSteps (apply wraps) (fun node event => event.Apart node) node events)
    (careful : AllSteps (apply wraps) (fun node event => event.Careful node) node events) :
    (events.foldl (apply wraps) node).Reserves name addr := by
  refine (foldl_invariant (fun node => node.Sound ∧ node.Reserves name addr) ?_ ⟨sound, reserves⟩
    (apart.and careful)).2
  intro node event holds good
  have step : Step node (node.apply wraps event) := holds.1.step_apply good.1 good.2
  exact ⟨holds.1.step step, holds.2.step holds.1 step⟩

variable {wraps : Bool} {blocks : List AddressBlock} {host : Host} {set : AllocatorSet}

theorem Started.restarted (started : node.Started) (disjoint : set.Disjoint) :
    (node.restarted set).Started :=
  ⟨disjoint, started.allocation, started.deleting, started.lost⟩

variable {pod : AddedPod}

theorem reserves_of_behind (started : node.Started) (agrees : node.allocators.Agrees blocks)
    (within : node.allocators.Within blocks set)
    (marked : ∀ link ∈ host.links.entries, ∀ addr, AllocatorSet.Behind host blocks link addr →
      set.Held addr) (present : pod.Present host blocks) (readable : pod.Readable blocks) :
    (node.restarted set).Reserves pod.block pod.addr := by
  rcases present.block with ⟨ab, listed, own, isPod, cidr, net, inside⟩
  have behind : AllocatorSet.Behind host blocks
      ⟨hostSide pod.info.containerId, pod.link.toAlias⟩ pod.addr :=
    ⟨present.route, pod.link, ContainerLinkInfo.fromStr_toAlias readable.1, ab, listed, isPod,
      readable.2 ab listed own, cidr, net, inside⟩
  rcases marked _ (AList.mem_lookup_iff.mp present.link) pod.addr behind with
    ⟨name, block, found, held⟩
  -- The block that has the address is the one of the pod: no other network has it.
  have same : name = pod.block := by
    by_contra different
    exact agrees.apart name pod.block _ cidr (within name block found) (.inr ⟨ab, listed, own, net⟩)
      different pod.addr ⟨Allocator.contains_of_holds held, inside⟩
  subst same
  constructor
  · exact markedOnce_of_disjoint (AllocatorSet.disjoint_of_within agrees within) found held
  · intro key alloc stored
    have none : node.allocation.lookup key = some alloc := stored
    rw [started.allocation, AList.lookup_empty] at none
    simp at none

theorem del_of_started (started : node.Started) (call : PodCall) (deleted : Bool) :
    (Node.del wraps call deleted node).2 = node := by
  have none : node.getAllocation call.info = none := by
    rw [getAllocation, started.allocation, AList.lookup_empty]
    rfl
  unfold Node.del
  cases call.podFound with
  | false => rfl
  | true =>
    rw [if_neg (by simp)]
    split
    · rfl
    · rfl
    · rfl
    · rw [none]

theorem not_restored (started : node.Started) {pods : List AddedPod} (member : pod ∈ pods) :
    ¬node.Restored wraps pods := by
  intro restored
  rcases (restored.marked pod member pod.block).mpr rfl with ⟨block, found, held⟩
  have released := restored.released pod member ⟨pod.info, true, some pod.pool, none, none, true⟩
      true
    rfl rfl rfl block
  rw [del_of_started started] at released
  rw [released found] at held
  exact Bool.false_ne_true held

/-- The recovery succeeds and marks the address of every pod whose alias can be read; in every
later run the address stays marked and is handed to nobody.  But it is not released either, so a
restart preserves what it should exactly if there were no pods. -/
theorem restored_iff_nil {wraps : Bool} {node : Node} (started : node.Started)
    {blocks : List AddressBlock} (agrees : node.allocators.Agrees blocks) {host : Host}
    {pods : List AddedPod} (present : ∀ pod ∈ pods, pod.Present host blocks) :
    ∃ set, AllocatorSet.recover host blocks node.allocators = .ok set ∧
      ((node.restarted set).Restored wraps pods ↔ pods = []) ∧
      ∀ pod ∈ pods, pod.Readable blocks → ∀ events : List NodeEvent,
        AllSteps (apply wraps) (fun node event => event.Apart node) (node.restarted set) events →
        AllSteps (apply wraps) (fun node event => event.Careful node) (node.restarted set) events →
        (events.foldl (apply wraps) (node.restarted set)).Reserves pod.block pod.addr := by
  rcases AllocatorSet.recover_returns agrees host with ⟨set, returned, -, within, marked⟩
  have again := started.restarted (AllocatorSet.disjoint_of_within agrees within)
  refine ⟨set, returned, ⟨fun restored => ?_, ?_⟩, ?_⟩
  · by_contra some
    rcases List.exists_mem_of_ne_nil pods some with ⟨pod, member⟩
    exact not_restored again member restored
  · rintro rfl
    exact ⟨by simp, by simp, by simp⟩
  · intro pod member readable events apart careful
    exact (reserves_of_behind started agrees within marked (present pod member) readable).run
      again.sound apart careful

def sampleAdded : AddedPod := ⟨⟨"a1b2c3d4", "default", "a"⟩, "pod", "block", .v4 0x0a000000#32⟩

def sampleHost : Host where
  links := AList.singleton "vetha1b2c3d4" "pod/a1b2c3d4/eth0"
  routes4 := AList.singleton "vetha1b2c3d4" (.v4 0x0a000000#32)
  routes6 := ∅

theorem agrees_sampleNodeBlock : initial.allocators.Agrees [sampleNodeBlock] := by
  have network : ∀ name cidr, initial.allocators.Network [sampleNodeBlock] name cidr →
      name = "block" ∧ sampleNodeBlock.cidr = some cidr := by
    rintro name cidr (⟨block, found, -⟩ | ⟨ab, listed, rfl, net⟩)
    · exact absurd found (by simp [initial, AllocatorSet.get, AllocatorSet.empty])
    rw [List.mem_singleton] at listed
    subst listed
    exact ⟨rfl, net⟩
  refine ⟨?_, ?_, ?_⟩
  · intro name left right isLeft isRight
    have same := (network name left isLeft).2.symm.trans (network name right isRight).2
    exact Option.some.inj same
  · intro first second left right isLeft isRight different
    exact absurd ((network first left isLeft).1.trans (network second right isRight).1.symm)
      different
  · intro ab listed _
    rw [List.mem_singleton] at listed
    subst listed
    exact ⟨_, _, rfl, rfl⟩

theorem present_sampleAdded : sampleAdded.Present sampleHost [sampleNodeBlock] :=
  ⟨by decide, by decide, sampleNodeBlock, by simp, rfl, rfl, _, rfl, by decide⟩

theorem reserves_sampleAdded : ∃ set,
    AllocatorSet.recover sampleHost [sampleNodeBlock] initial.allocators = .ok set ∧
      ([.del ⟨sampleAdded.info, true, some "pod", none, none, true⟩ true,
        .add (samplePod "b") true].foldl (apply true) (initial.restarted set)).Reserves "block"
          sampleAdded.addr := by
  rcases @restored_iff_nil true initial started_initial _ agrees_sampleNodeBlock sampleHost
    [sampleAdded] (by simpa using present_sampleAdded) with ⟨set, returned, -, reserves⟩
  refine ⟨set, returned, reserves sampleAdded (by simp) ?_ _ ⟨trivial, trivial, trivial⟩ ?_⟩
  · exact ⟨by decide, by simp [sampleNodeBlock, sampleAdded]⟩
  have ran : ∃ set, AllocatorSet.recover sampleHost [sampleNodeBlock] initial.allocators = .ok set ∧
      AllSteps (apply true) (fun node event => event.Careful node) (initial.restarted set)
        [.del ⟨sampleAdded.info, true, some "pod", none, none, true⟩ true,
          .add (samplePod "b") true] := ⟨_, rfl, by decide⟩
  rcases ran with ⟨other, again, careful⟩
  rw [returned, Outcome.ok.injEq] at again
  rwa [again]

/-- The pod was added before the restart, and everything it needs is still there. -/
theorem not_restored_sampleAdded : ([.reconcile sampleNodeBlock true,
      .add ⟨sampleAdded.info, true, some "pod", none, none, true⟩ true].foldl (apply true)
        initial).allocation.lookup sampleAdded.info.key =
      some ⟨"a1b2c3d4", sampleAdded.block, sampleAdded.addr, 30⟩ ∧
    initial.Started ∧ initial.allocators.Agrees [sampleNodeBlock] ∧
    sampleAdded.Present sampleHost [sampleNodeBlock] ∧
    ∃ set, AllocatorSet.recover sampleHost [sampleNodeBlock] initial.allocators = .ok set ∧
      ¬(initial.restarted set).Restored true [sampleAdded] := by
  refine ⟨by decide, started_initial, agrees_sampleNodeBlock, present_sampleAdded, ?_⟩
  rcases AllocatorSet.recover_returns agrees_sampleNodeBlock sampleHost with
    ⟨set, returned, -, within, -⟩
  have disjoint := AllocatorSet.disjoint_of_within agrees_sampleNodeBlock within
  exact ⟨set, returned, not_restored (started_initial.restarted disjoint) List.mem_cons_self⟩

end Node

end Sart
