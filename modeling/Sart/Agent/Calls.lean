import Sart.Agent.PodPools
import Sart.Controller.AllOrNothing

/-!
# What the calls for pods leave behind

DEL succeeds also when the pod has no pool any more, or when the address cannot be
released; then the pod keeps it.  CHECK takes the address of the host for the one of the
pod, and looks for a block with the name of the pool.  The request of ADD stays when the
call is given up, when the API does not delete it, and as long as it has the finalizer of
the controller.
-/

namespace Sart

open Sart.Lib

namespace Node

variable {node : Node} {call : PodCall} {alloc : PodAllocation} {block : Block}
  {wraps deleted : Bool}

structure Freed (node next : Node) (pod : String) (alloc : PodAllocation) : Prop where
  forgotten : next.allocation.lookup pod = none
  free : next.allocators.holds alloc.block alloc.addr = false
  pods : ∀ other, other ≠ pod → next.allocation.lookup other = node.allocation.lookup other
  others : ∀ name addr, (name, addr) ≠ (alloc.block, alloc.addr) →
    next.allocators.holds name addr = node.allocators.holds name addr

theorem freed_released (found : node.allocators.get alloc.block = some block)
    (inside : block.allocator.cidr.contains alloc.addr = true) {next : Node} {pod : String}
    (pods : next.allocation = node.allocation.erase pod)
    (blocks : next.allocators = (node.released alloc block).allocators) :
    node.Freed next pod alloc := by
  have get := AllocatorSet.get_setAllocator node.allocators alloc.block block
    (block.allocator.mark alloc.addr false (block.allocator.allocated - 1))
  refine ⟨?_, ?_, fun other different => ?_, fun name addr different => ?_⟩
  · rw [pods, AList.lookup_erase]
  · simp [blocks, AllocatorSet.holds, released, get, Allocator.holds_mark inside]
  · rw [pods, AList.lookup_erase_ne different]
  · rw [blocks, AllocatorSet.holds, released, get, AllocatorSet.holds]
    split_ifs with here
    · subst here
      have other : addr ≠ alloc.addr := fun same => different (by rw [same])
      simp [found, Allocator.holds_mark inside, other]
    · rfl

/-- A DEL call that succeeds frees the address of the pod exactly if a pool is found for the pod,
or looking for it fails, and the block has the address to release. -/
theorem del_frees_iff (own : node.getAllocation call.info = some alloc) :
    ((Node.del wraps call deleted node).1 = .ok ⟨⟩ →
      node.Freed (Node.del wraps call deleted node).2 call.info.key alloc) ↔
    (call.podFound = true → node.allocators.getPool call ≠ .error .defaultPoolNotFound ∧
      ∀ pool, node.allocators.getPool call = .ok pool → node.Releasable alloc) := by
  have stays : ¬node.Freed node call.info.key alloc := by
    intro freed
    rw [getAllocation, Option.filter_eq_some_iff] at own
    have forgotten := freed.forgotten
    simp [own.1] at forgotten
  unfold Node.del
  cases call.podFound with
  | false => simp
  | true =>
    cases called : node.allocators.getPool call with
    | panic => simp
    | error cause => cases cause <;> simp [stays]
    | ok pool =>
      simp only [own]
      rcases releaseAddr_cases wraps node alloc with
        ⟨refused, cause, ran⟩ | ⟨block, found, inside, some, outcome, ran, ends⟩ <;> rw [ran]
      · simp [stays, refused]
      refine iff_of_true ?_ fun _ => ⟨by simp, fun _ _ => ⟨block, found, inside, some⟩⟩
      rcases ends with ⟨-, rfl⟩ | ⟨empty, -, rfl⟩
      · simp
      dsimp only
      split_ifs
      · simp
      all_goals exact fun _ => freed_released found inside rfl rfl

def sampleServed : Node :=
  [.reconcile sampleNodeBlock true, .add (samplePod "a") true].foldl (apply true) initial

def sampleAlloc : PodAllocation := ⟨"a", "block", .v4 0x0a000000#32, 30⟩

theorem del_frees_samplePod :
    sampleServed.Freed (Node.del true (samplePod "a") true sampleServed).2 "default/a"
      sampleAlloc := by
  refine (del_frees_iff (by decide)).mpr (fun _ => ⟨by decide, fun _ _ => ?_⟩) (by decide)
  exact ⟨_, rfl, by decide, by decide⟩

/-- The annotation of the pod is gone, and there is no default pool. -/
theorem del_not_frees :
    let call := { samplePod "a" with
      poolAnnotation := none, namespaceAnswer := some none, poolsAnswer := some [] }
    sampleServed.getAllocation call.info = some sampleAlloc ∧
      (Node.del true call true sampleServed).1 = .ok ⟨⟩ ∧
      ¬sampleServed.Freed (Node.del true call true sampleServed).2 call.info.key sampleAlloc :=
  ⟨by decide, by decide, fun freed => absurd freed.forgotten (by decide)⟩

end Node

inductive CheckError where
  | cni (error : CniError)
  | podAddressIsNotFound
  | allocationNotFound
  | addressNotMatched
  deriving DecidableEq

structure PodStatus where
  hostIp : Option IpAddr
  podIp : Option IpAddr

def PodStatus.getPodAddr (status : PodStatus) : Option IpAddr := status.hostIp

def AllocatorSet.isAllocated (set : AllocatorSet) (pool : String) (addr : IpAddr) :
    Outcome IpamError Bool :=
  match set.get pool with
  | some block => block.allocator.isAllocated addr
  | none => .ok false

def NodeEvent.isCall : NodeEvent → Bool
  | .add _ _ | .resume _ _ | .cancel | .del _ _ => true
  | _ => false

def NodeEvent.Concerns (node : Node) (pod : String) : NodeEvent → Prop
  | .add call _ | .del call _ => call.info.key = pod
  | .resume _ _ => ∃ waiting ∈ node.waiting, waiting.1.key = pod
  | _ => False

namespace Node

def check (call : PodCall) (status : PodStatus) (node : Node) : Outcome CheckError PUnit :=
  if !call.podFound then .error (.cni .kube)
  else
    match node.allocators.getPool call with
    | .error error => .error (.cni error)
    | .panic => .panic
    | .ok pool =>
      match status.getPodAddr, node.getAllocation call.info with
      | none, _ => .error .podAddressIsNotFound
      | some _, none => .error .allocationNotFound
      | some addr, some alloc =>
        if alloc.addr ≠ addr then .error .addressNotMatched
        else
          match node.allocators.isAllocated pool alloc.addr with
          | .ok true => .ok ⟨⟩
          | .ok false => .error .allocationNotFound
          | .error error => .error (.cni (.ipam error))
          | .panic => .panic

variable {node : Node} {wraps : Bool} {event : NodeEvent} {pod : String}

theorem apply_of_not_call (other : event.isCall = false) :
    (node.apply wraps event).waiting = node.waiting ∧
      (node.apply wraps event).allocation = node.allocation := by
  cases event with
  | add | resume | cancel | del => cases other
  | reconcile ab answers =>
    dsimp only [Node.apply]
    rcases reconcileBlock_cases ab answers node with
      ⟨_, -, ran⟩ | ⟨cidr, block, autoAssign, -, -, -, -, ran⟩ <;> rw [ran] <;> exact ⟨rfl, rfl⟩
  | cleanup ab =>
    dsimp only [Node.apply]
    rcases cleanupBlock_cases wraps ab node with ⟨outcome, ran⟩ | ⟨block, -, -, ran⟩ <;>
        rw [ran] <;>
      exact ⟨rfl, rfl⟩
  | gcCheck listed =>
    rcases gcCheck_final wraps listed node with ⟨markers, deleting, ran⟩
    rw [Node.apply, ran]
    exact ⟨rfl, rfl⟩
  | gcDelete name deleted =>
    rcases gcDelete_final name deleted node with ⟨markers, deleting, lost, ran⟩
    rw [Node.apply, ran]
    exact ⟨rfl, rfl⟩

theorem lookup_apply (other : ¬event.Concerns node pod) :
    (node.apply wraps event).allocation.lookup pod = node.allocation.lookup pod := by
  cases event with
  | add call requested =>
    dsimp only [Node.apply]
    split_ifs
    · rfl
    rcases add_cases call requested node with
      ⟨cause, ran⟩ | ⟨pool, -, ran⟩ | ⟨pool, name, block, addr, -, -, -, ran⟩ <;> rw [ran]
    exact AList.lookup_insert_ne (Ne.symm other)
  | resume deleted links =>
    dsimp only [Node.apply]
    rcases resume_cases deleted links node with
      ⟨-, ran⟩ | ⟨info, pool, name, rest, waits, -,
        ⟨cause, ran⟩ | ⟨block, addr, -, -, -, -, ran⟩⟩ <;>
      rw [ran]
    · rfl
    · exact AList.lookup_insert_ne fun same => other ⟨_, waits, same.symm⟩
  | cancel => rfl
  | del call deleted =>
    dsimp only [Node.apply]
    split_ifs
    · rfl
    rcases del_cases wraps call deleted node with
      ⟨outcome, ran⟩ | ⟨alloc, block, -, -, -, ⟨-, ran⟩ | ⟨outcome, ran | ⟨-, ran⟩⟩⟩ <;> rw [ran]
    · rfl
    all_goals exact AList.lookup_erase_ne (Ne.symm other)
  | reconcile | cleanup | gcCheck | gcDelete => rw [(apply_of_not_call rfl).2]

variable {info : PodInfo} {pool : String} {alloc : PodAllocation}

theorem Grants.getAllocation (grants : Grants node event info pool alloc) (wraps : Bool) :
    (node.apply wraps event).getAllocation info = some alloc := by
  have given : ∀ next : Node, next.allocation.lookup info.key = some alloc →
      alloc.containerId = info.containerId → next.getAllocation info = some alloc := by
    intro next stored same
    rw [Node.getAllocation, stored, Option.filter_some, if_pos (by simpa using same)]
  cases grants with
  | @add call requested _ _ next idle called ran done stored =>
    rw [show node.apply wraps (.add call requested) = next by simp [Node.apply, idle, ran]]
    refine given next stored ?_
    rcases add_cases call requested node with
      ⟨cause, run⟩ | ⟨pool, -, run⟩ | ⟨pool, name, block, addr, -, -, -, run⟩ <;> rw [run] at ran
    · simp at ran
    · simp [← (Prod.mk.inj ran).2] at done
    · rw [← (Prod.mk.inj ran).2, lookup_taken, Option.some.injEq] at stored
      rw [← stored]
  | @resume deleted links _ _ _ next waits ran done stored =>
    rw [show node.apply wraps (.resume deleted links) = next by simp [Node.apply, ran]]
    refine given next stored ?_
    rcases resume_cases deleted links node with
      ⟨-, run⟩ | ⟨other, _, name, rest, waits', -,
        ⟨cause, run⟩ | ⟨block, addr, -, -, -, -, run⟩⟩ <;>
      rw [run] at ran
    · simp [← (Prod.mk.inj ran).2, waits] at done
    · simp at ran
    · rw [waits, Option.some.injEq, Prod.mk.injEq] at waits'
      rw [← (Prod.mk.inj ran).2, waits'.1, lookup_taken, Option.some.injEq] at stored
      rw [← stored, waits'.1]

/-- In a run without trouble for the pods, CHECK succeeds for a pod since its ADD has, if the status
of the pod gives its address for the host and the address is from a block with the name of the
pool. -/
theorem check_of_granted {before later : List NodeEvent} (started : node.Started)
    (apart : AllSteps (apply wraps) (fun node event => event.Apart node) node
      (before ++ event :: later))
    (careful : AllSteps (apply wraps) (fun node event => event.Careful node) node
      (before ++ event :: later))
    (grants : Grants (before.foldl (apply wraps) node) event info pool alloc)
    (others : AllSteps (apply wraps) (fun node event => ¬event.Concerns node info.key)
      ((before ++ [event]).foldl (apply wraps) node) later)
    {call : PodCall} {status : PodStatus} (same : call.info = info)
    (podFound : call.podFound = true)
    (resolves : ((before ++ event :: later).foldl (apply wraps) node).allocators.getPool call =
      .ok pool) (host : status.hostIp = some alloc.addr) (named : alloc.block = pool) :
    check call status ((before ++ event :: later).foldl (apply wraps) node) = .ok ⟨⟩ := by
  have sound := started.sound_run apart careful
  have first := grants.getAllocation wraps
  rw [Node.getAllocation, Option.filter_eq_some_iff] at first
  have stored := foldl_invariant (fun node => node.allocation.lookup info.key = some alloc)
    (fun node event before other => (lookup_apply other).trans before)
    (by simpa using first.1) others
  rw [← List.foldl_append, List.append_assoc, List.singleton_append] at stored
  subst same named
  generalize (before ++ event :: later).foldl (apply wraps) node = final at resolves stored sound ⊢
  rcases sound.held _ alloc stored with ⟨block, known, held⟩
  have own : final.getAllocation call.info = some alloc := by
    rw [Node.getAllocation, stored, Option.filter_some, if_pos first.2]
  simp [check, podFound, resolves, PodStatus.getPodAddr, host, own, AllocatorSet.isAllocated, known,
    held]

def sampleNamed : List NodeEvent :=
  [.reconcile { sampleNodeBlock with name := "pod" } true, .add (samplePod "a") true]

theorem check_samplePod :
    check (samplePod "a") ⟨some (.v4 0x0a000000#32), some (.v4 0x0a000000#32)⟩
      (sampleNamed.foldl (apply true) initial) = .ok ⟨⟩ := by
  refine @check_of_granted initial true (.add (samplePod "a") true) (samplePod "a").info "pod"
    ⟨"a", "pod", .v4 0x0a000000#32, 30⟩ [.reconcile { sampleNodeBlock with name := "pod" } true] []
    started_initial ⟨?_, trivial, trivial⟩ (by decide) ?_ trivial (samplePod "a") _ rfl rfl
    (by decide) rfl rfl
  · intro cidr _ _ name other found
    exact absurd found (by simp [initial, AllocatorSet.get, AllocatorSet.empty])
  · exact .add rfl (by decide) rfl rfl (by decide)

/-- The pod has its address in its status, which names the host by another one. -/
theorem check_fails_of_host :
    let alloc := sampleServed.getAllocation (samplePod "a").info
    alloc = some sampleAlloc ∧ sampleServed.allocators.getPool (samplePod "a") = .ok "pod" ∧
      check (samplePod "a") ⟨some (.v4 0xc0a80001#32), some sampleAlloc.addr⟩ sampleServed =
        .error .addressNotMatched ∧
      check (samplePod "a") ⟨some sampleAlloc.addr, some sampleAlloc.addr⟩ sampleServed =
        .error .allocationNotFound := by
  decide

def requestName (nodeName pool : String) : String := pool ++ "-" ++ nodeName

end Node

/-- A request for a block.  The controller accepts it with a finalizer before it creates the block,
and a request with a finalizer that is deleted is only marked. -/
structure Request where
  name : String
  accepted : Bool
  marked : Bool
  deriving DecidableEq

/-- The events of the node, and what the controller does with a request: it puts its finalizer on,
or takes it off a request that is marked.  For a call that goes on, `cleaned` tells whether the
controller cleans its request up before the call ends. -/
inductive RequestEvent where
  | node (event : NodeEvent) (cleaned : Bool)
  | accept (name : String)
  | cleanup (name : String)

namespace Node

/-- The answer to a delete call. -/
def deleteRequest (name : String) (cleaned : Bool) (requests : List Request) : List Request :=
  requests.filterMap fun request =>
    if request.name ≠ name then some request
    else if request.accepted && !cleaned then some { request with marked := true }
    else none

/-- A step beside the requests that the calls of the node have created.  A request is created if
there is none of its name and the API answers, and a call that goes on deletes its own. -/
def request (wraps : Bool) (nodeName : String) (state : Node × List Request) :
    RequestEvent → Node × List Request
  | .node (.add call answered) _ =>
    let created := match state.1.allocators.getPool call with
      | .ok pool => answered && requestName nodeName pool ∉ state.2.map Request.name
      | _ => answered
    let next := state.1.apply wraps (.add call created)
    (next, if state.1.waiting.isSome then state.2
      else (next.waiting.map fun waiting =>
        ⟨requestName nodeName waiting.2, false, false⟩).toList ++ state.2)
  | .node (.resume deleted links) cleaned =>
    (state.1.apply wraps (.resume deleted links), match state.1.waiting, state.1.notices with
      | some (_, pool), _ :: _ =>
        if deleted then deleteRequest (requestName nodeName pool) cleaned state.2 else state.2
      | _, _ => state.2)
  | .node event _ => (state.1.apply wraps event, state.2)
  | .accept name =>
    (state.1, state.2.map fun request =>
      if request.name = name ∧ request.marked = false then { request with accepted := true }
      else request)
  | .cleanup name =>
    (state.1, state.2.filter fun request => ¬(request.name = name ∧ request.marked = true))

/-- When no call waits there is no request, so that none stands in the way of the next call. -/
structure Tidy (wraps : Bool) (nodeName : String) (state : Node × List Request) : Prop where
  left : state.1.waiting = none → state.2 = []
  served : state.1.waiting = none → ∀ call answered cleaned,
    (request wraps nodeName state (.node (.add call answered) cleaned)).1 =
      state.1.apply wraps (.add call answered)

/-- No call is given up.  The API deletes the request of a call that goes on, and the controller has
not accepted the request or cleans it up before the call ends. -/
def Answered (state : Node × List Request) : RequestEvent → Prop
  | .node .cancel _ => state.1.waiting = none
  | .node (.resume deleted _) cleaned => state.1.waiting.isSome → state.1.notices ≠ [] →
      deleted = true ∧ (cleaned = true ∨ ∀ request ∈ state.2, request.accepted = false)
  | _ => True

/-- The only request is the one of the call that waits, and it is not marked. -/
structure Requested (nodeName : String) (state : Node × List Request) : Prop where
  names : state.2.map Request.name =
    (state.1.waiting.map fun waiting => requestName nodeName waiting.2).toList
  unmarked : ∀ request ∈ state.2, request.marked = false

variable {node : Node} {wraps : Bool} {nodeName : String} {state : Node × List Request}

theorem Requested.left (requested : Requested nodeName state) (idle : state.1.waiting = none) :
    state.2 = [] := by
  have names := requested.names
  rw [idle] at names
  exact List.map_eq_nil_iff.mp names

theorem Requested.tidy (requested : Requested nodeName state) : Tidy wraps nodeName state := by
  refine ⟨requested.left, fun idle call answered cleaned => ?_⟩
  rw [request, requested.left idle]
  cases state.1.allocators.getPool call <;> simp

theorem waiting_del (call : PodCall) (deleted : Bool) :
    (node.apply wraps (.del call deleted)).waiting = node.waiting := by
  dsimp only [Node.apply]
  split_ifs
  · rfl
  rcases del_cases wraps call deleted node with
    ⟨outcome, ran⟩ | ⟨alloc, block, -, -, -, ⟨-, ran⟩ | ⟨outcome, ran | ⟨-, ran⟩⟩⟩ <;>
      rw [ran] <;> rfl

/-- A request that is deleted without a finalizer, or cleaned up in time, goes. -/
theorem deleteRequest_eq_nil {name : String} {cleaned : Bool} {requests : List Request}
    (names : requests.map Request.name = [name])
    (gone : cleaned = true ∨ ∀ request ∈ requests, request.accepted = false) :
    deleteRequest name cleaned requests = [] := by
  refine List.filterMap_eq_nil_iff.mpr fun request member => ?_
  have same : request.name = name := by
    have listed := List.mem_map_of_mem (f := Request.name) member
    rw [names] at listed
    exact List.mem_singleton.mp listed
  rw [if_neg (not_not.mpr same), if_neg]
  rcases gone with rfl | unaccepted
  · simp
  · simp [unaccepted request member]

theorem Requested.on_node (requested : Requested nodeName state) {event : NodeEvent}
    {cleaned : Bool}
    (answered : Answered state (.node event cleaned)) :
    Requested nodeName (request wraps nodeName state (.node event cleaned)) := by
  have keeps : (state.1.apply wraps event).waiting = state.1.waiting →
      Requested nodeName (state.1.apply wraps event, state.2) :=
    fun same => ⟨by rw [same, requested.names], requested.unmarked⟩
  cases event with
  | add call created =>
    cases waits : state.1.waiting with
    | some waiting => simpa [request, Node.apply, waits] using requested
    | none =>
      have none := requested.left waits
      unfold request
      dsimp only
      rw [waits, none]
      generalize Node.apply wraps state.1 _ = next
      cases later : next.waiting with
      | none => exact ⟨by simp [later], by simp⟩
      | some waiting => exact ⟨by simp [later], by simp⟩
  | resume deleted links =>
    dsimp only [request, Node.apply]
    rcases resume_cases deleted links state.1 with
      ⟨none | none, ran⟩ | ⟨info, pool, name, rest, waits, notices, ends⟩
    · simpa [ran, none] using requested
    · simpa [ran, none] using requested
    rcases answered (by simp [waits]) (by simp [notices]) with ⟨rfl, gone⟩
    have idle : (Node.resume true links state.1).2.waiting = none := by
      rcases ends with ⟨cause, ran⟩ | ⟨block, addr, -, -, -, -, ran⟩ <;> rw [ran] <;> rfl
    have names := requested.names
    rw [waits] at names
    rw [waits, notices]
    dsimp only
    rw [if_pos rfl, deleteRequest_eq_nil names gone]
    exact ⟨by rw [idle]; rfl, by simp⟩
  | cancel =>
    have none := requested.left answered
    exact ⟨by simp [request, Node.apply, none], by simp [request, none]⟩
  | del call deleted =>
    exact keeps (waiting_del call deleted)
  | reconcile | cleanup | gcCheck | gcDelete => exact keeps (apply_of_not_call rfl).1

theorem Requested.step (requested : Requested nodeName state) {event : RequestEvent}
    (answered : Answered state event) : Requested nodeName
    (request wraps nodeName state event) := by
  cases event with
  | node event cleaned => exact requested.on_node answered
  | accept name =>
    refine ⟨?_, fun request member => ?_⟩
    · refine Eq.trans ?_ requested.names
      simp only [request, List.map_map]
      refine List.map_congr_left fun request _ => ?_
      simp only [Function.comp_apply]
      split_ifs <;> rfl
    · rcases List.mem_map.mp member with ⟨old, stored, rfl⟩
      split_ifs <;> exact requested.unmarked old stored
  | cleanup name =>
    have same : (request wraps nodeName state (.cleanup name)).2 = state.2 :=
      List.filter_eq_self.mpr fun request member => by simp [requested.unmarked request member]
    exact ⟨same ▸ requested.names, same ▸ requested.unmarked⟩

/-- In every run in which no call is given up, and the requests of the calls that go on are deleted
and gone before the calls end, there is no request when no call waits. -/
theorem run_tidy (wraps : Bool) (nodeName : String) {node : Node} (idle : node.waiting = none)
    {events : List RequestEvent}
    (answered : AllSteps (request wraps nodeName) Answered (node, []) events) :
    Tidy wraps nodeName (events.foldl (request wraps nodeName) (node, [])) := by
  refine Requested.tidy (foldl_invariant (Requested nodeName) ?_ ⟨?_, by simp⟩ answered)
  · exact fun state event requested answered => requested.step answered
  · rw [idle]
    rfl

theorem run_tidy_samplePod :
    Tidy true "node" ([.node (.add (samplePod "a") true) false, .accept "pod-node",
      .node (.reconcile sampleNodeBlock true) false, .node (.resume true true) true].foldl
      (request true "node") (initial, [])) :=
  run_tidy true "node" rfl ⟨trivial, trivial, trivial, fun _ _ => ⟨rfl, .inl rfl⟩, trivial⟩

/-- The controller has accepted the request of the first pod, and so the request is still there when
the call is over; the next pod cannot create its own. -/
theorem run_not_tidy :
    let state := [.node (.add (samplePod "a") true) false, .accept "pod-node",
      .node (.reconcile sampleNodeBlock true) false, .node (.resume true true) false].foldl
      (request true "node") (initial, [])
    state.1.waiting = none ∧ ¬Tidy true "node" state := by
  refine ⟨by decide, fun tidy => ?_⟩
  exact absurd (tidy.left (by decide)) (by decide)

end Node

end Sart
