import Sart.Peer.AdjRibOut
import Sart.Rib.Handling

/-!
# Routes on the way to a peer

The loop asks for all routes when it accepts the OPEN of the neighbour, and it announces what it
takes when the session is established, one KEEPALIVE later.  In between it takes the routes and
looks at none of them.
-/

namespace Sart

open Sart.Lib Sart.Lib.Effect

namespace RibEvent

def IsRoute (event : RibEvent) : Prop :=
  (∃ paths, event = .advertise paths) ∨ ∃ prefixes, event = .withdraw prefixes

end RibEvent

def messagesTo (peer : NeighborPair) (outputs : List Output) : List RibEvent :=
  outputs.filterMap fun out =>
    match out with
    | .send other event => if other = peer then some event else none
    | _ => none

namespace RibManager

def Routed (state : RibState) : Prop :=
  ∀ peer event, .send peer event ∈ state.sent → event.IsRoute

variable {env : Env} {family : AddressFamily} {applyToFib : Bool} {out : Output}

theorem Routed.put {state : RibState} (routed : Routed state)
    (allowed : ∀ peer event, out = .send peer event → event.IsRoute) : Routed (state.put out) := by
  intro peer event member
  rcases List.mem_append.mp member with earlier | last
  · exact routed peer event earlier
  · exact allowed peer event (List.mem_singleton.mp last).symm

theorem output_routed (allowed : ∀ peer event, out = .send peer event → event.IsRoute) :
    Keeps Routed (RibM.output env out) :=
  RibM.output_spec (fun _ routed => routed.put allowed) fun _ _ routed _ => routed

theorem modifyRib_routed (change : RibManager → RibManager) :
    Keeps Routed (RibM.modifyRib change) :=
  RibM.modifyRib_spec fun _ routed => routed

theorem onLocRib_routed (call : LocRib → Except Error LocRibStatus × LocRib) :
    Keeps Routed (RibM.onLocRib call) := by
  refine Spec.of_final fun state routed => ?_
  unfold RibM.onLocRib
  split <;> exact routed

theorem advertise_routed (skip : RibManager → NeighborPair → PathKind → Bool)
    (changed : List (IpNet × UInt64)) : Keeps Routed (advertise env family skip changed) := by
  unfold advertise
  grind [output_routed, RibEvent.IsRoute]

variable (neighbor : NeighborPair)

theorem withdraw_routed (withdrawn : List (IpNet × PathKind)) :
    Keeps Routed (withdraw env neighbor withdrawn) := by
  unfold withdraw
  grind [output_routed, RibEvent.IsRoute]

theorem applyPath_routed (request : RibManager → Path → IpAddr → FibRequest) (path : Path) :
    Keeps Routed (applyPath env applyToFib request path) := by
  unfold applyPath
  grind [output_routed]

theorem installPath_routed (path : Path) :
    Keeps Routed (installPath env family applyToFib path) := by
  unfold installPath
  grind [onLocRib_routed, applyPath_routed]

theorem applyRequest_routed (request : RibManager → FibRequest) :
    Keeps Routed (applyRequest env applyToFib request) := by
  unfold applyRequest
  grind [output_routed]

theorem findPath_routed (pfx : IpNet) (id : UInt64) : Keeps Routed (findPath family pfx id) := by
  refine Keeps.read.bind fun rib => ?_
  split
  · exact .pure
  · exact .fail

theorem dropPath_routed (pathId : IpNet × UInt64) :
    Keeps Routed (dropPath env family applyToFib pathId) := by
  unfold dropPath
  grind [onLocRib_routed, findPath_routed, applyPath_routed, applyRequest_routed]

theorem installPaths_routed (paths : List Path) :
    Keeps Routed (installPaths env neighbor paths applyToFib) := by
  unfold installPaths
  grind [installPath_routed, advertise_routed]

theorem dropPaths_routed (pathIds : List (IpNet × UInt64)) :
    Keeps Routed (dropPaths env neighbor family pathIds applyToFib) := by
  unfold dropPaths
  grind [dropPath_routed, withdraw_routed, advertise_routed]

theorem handle_routed (event : RibEvent) : Keeps Routed (handle env event) := by
  unfold handle addPeer deletePeer init addPath deletePath getPath getPathByPrefix
  grind [modifyRib_routed, output_routed, RibEvent.IsRoute, installPaths_routed, dropPaths_routed]

theorem isRoute_of_handle {rib : RibManager} {event message : RibEvent} {peer : NeighborPair}
    (member : message ∈ messagesTo peer (handle env event ⟨rib, []⟩).2.sent) : message.IsRoute := by
  rcases List.mem_filterMap.mp member with ⟨out, sent, found⟩
  have routed : Routed (handle env event ⟨rib, []⟩).2 := by
    apply (handle_routed event).final
    exact fun _ _ nothing => absurd nothing List.not_mem_nil
  cases out with
  | send other carried =>
    dsimp only at found
    split_ifs at found
    · cases found
      exact routed other _ sent
  | fib request => cases found
  | api paths => cases found

end RibManager

namespace PeerLoop

def OutCall.event : OutCall → RibEvent
  | .advertise paths => .advertise paths
  | .withdraw prefixes => .withdraw prefixes

def callFor (loop : PeerLoop) : RibEvent → Option OutCall
  | .advertise paths => if loop.fsm = .established then some (.advertise paths) else none
  | .withdraw prefixes => if loop.fsm = .established then some (.withdraw prefixes) else none
  | _ => none

variable {env : LoopEnv} {loop : PeerLoop} {event : RibEvent} {outCall : OutCall}

theorem event_of_callFor (calls : loop.callFor event = some outCall) : outCall.event = event := by
  unfold callFor at calls
  split at calls
  · split_ifs at calls
    cases calls
    rfl
  · split_ifs at calls
    cases calls
    rfl
  · cases calls

theorem established_of_callFor (calls : loop.callFor event = some outCall) :
    loop.fsm = .established := by
  unfold callFor at calls
  split at calls
  · split_ifs at calls with established
    exact established
  · split_ifs at calls with established
    exact established
  · cases calls

theorem callFor_of_isRoute (established : loop.fsm = .established) (route : event.IsRoute) :
    ∃ outCall, loop.callFor event = some outCall := by
  rcases route with ⟨paths, rfl⟩ | ⟨prefixes, rfl⟩
  all_goals exact ⟨_, if_pos established⟩

end PeerLoop

namespace Core

def asks (core : Core) : List RibEvent :=
  core.peer.info.families.map fun family => .init family core.peer.info.neighbor.pair

def Asked (core final : Core) : Prop :=
  final.fsm = .openConfirm → final.ribTx = core.ribTx ++ core.asks

theorem Asked.of_fsm {core final : Core} (sent : core.fsm = .openSent)
    (same : final.fsm = core.fsm) :
    core.Asked final := by
  intro accepted
  rw [same, sent] at accepted
  cases accepted

end Core

namespace PeerLoop

variable {env : LoopEnv} {core : Core}

theorem requestPaths_asks (routerId : Ipv4Addr) :
    Spec (fun loop => loop.core = core) (requestPaths env routerId)
      (fun _ loop => loop.core = (core.withRouterId routerId).emit core.asks)
      (fun _ loop => loop.core.fsm = core.fsm) := by
  refine Spec.bind (modify_core (·.withRouterId routerId) fun _ => rfl) fun _ => ?_
  refine readState_core fun start same => ?_
  have pair : start.info.neighbor.pair = core.peer.info.neighbor.pair :=
    congrArg (fun other : Core => other.peer.info.neighbor.pair) same
  have families : start.info.families = core.peer.info.families :=
    congrArg (fun other : Core => other.peer.info.families) same
  refine (sendRib_loop _ (fun family => .init family start.info.neighbor.pair) _).mono ?_ ?_
  · intro _ loop sent
    rw [sent.1, pair, families]
    rfl
  rintro _ loop ⟨count, sent, -⟩
  rw [sent]
  rfl

theorem bgpOpen_asks (sent : core.fsm = .openSent) (localPort : UInt16) (msg : Message) :
    Spec (fun loop => loop.core = core) (bgpOpen env localPort msg)
      (fun _ loop => core.Asked loop.core) (fun _ loop => core.Asked loop.core) := by
  have keeps : ∀ (_ : Option Error) (loop : PeerLoop), loop.core = core → core.Asked loop.core := by
    rintro _ loop rfl
    exact .of_fsm sent rfl
  cases msg with
  | «open» version asNum time routerId caps =>
    refine readState_core ?_
    rintro start rfl
    have fsm : start.fsm = .openSent := sent
    rw [fsm]
    refine ((negotiateHoldTime_core _).mono (fun _ _ holds => holds.2)
      keeps).bind fun _ => ?_
    refine ((sendToDupConn_core (.inr rfl)).mono (fun _ _ holds => holds)
      ?_).bind fun _ => Spec.exists_pre fun conn => Spec.exists_pre fun connections =>
        Spec.fact_pre fun _ => ?_
    · rintro cause loop (⟨-, same⟩ | ⟨_, _, -, same⟩)
      · exact keeps cause loop same
      · rw [same]
        exact .of_fsm sent rfl
    refine ((requestPaths_asks routerId).mono (fun _ _ same => same)
      ?_).bind fun _ => ?_
    · exact fun _ loop same => .of_fsm sent same
    refine (moveState_core _).implies fun _ loop same => ?_
    rw [same]
    exact fun _ => rfl
  | _ => exact Spec.fail fun loop same => keeps none loop same

end PeerLoop

/-- The loop of a peer and the manager.  Of the channel to the peer everything is kept that was ever
put into it, and of what was taken from it the call that was made for it. -/
structure Exchange where
  loop : PeerLoop
  rib : RibManager
  /-- The channel of the manager. -/
  ribRx : List RibEvent
  /-- The manager sends to this loop, not to a later one for the same neighbour. -/
  registered : Bool
  told : List RibEvent
  taken : List (RibEvent × Option PeerLoop.OutCall)

inductive ExchangeStep where
  | turn (input : LoopInput)
  | take
  | post (event : RibEvent)
  | manage (env : Env)

namespace Exchange

def start (loop : PeerLoop) (rib : RibManager) : Exchange where
  loop := loop
  rib := rib
  ribRx := []
  registered := true
  told := []
  taken := []

def queue (exchange : Exchange) : List RibEvent := exchange.told.drop exchange.taken.length

def next (exchange : Exchange) : Option RibEvent :=
  if exchange.loop.ended then none else exchange.queue.head?

def manage (env : Env) (exchange : Exchange) (event : RibEvent) (rest : List RibEvent) : Exchange :=
  let neighbor := exchange.loop.info.neighbor.pair
  let state := (RibManager.handle env event ⟨exchange.rib, []⟩).2
  { exchange with
    rib := state.rib
    ribRx := rest
    registered := exchange.registered && event ≠ .deletePeer neighbor
    told := exchange.told ++ if exchange.registered then messagesTo neighbor state.sent else [] }

def step (env : LoopEnv) (exchange : Exchange) : ExchangeStep → Exchange
  | .turn (.rib _) => exchange
  | .turn input =>
    let loop := exchange.loop.apply env input
    { exchange with
      loop := loop
      ribRx := exchange.ribRx ++ loop.ribTx.drop exchange.loop.ribTx.length }
  | .take =>
    match exchange.next with
    | none => exchange
    | some event =>
      { exchange with
        loop := exchange.loop.apply env (.rib event)
        taken := exchange.taken ++ [(event, exchange.loop.callFor event)] }
  | .post event => { exchange with ribRx := exchange.ribRx ++ [event] }
  | .manage env =>
    match exchange.ribRx with
    | [] => exchange
    | event :: rest => exchange.manage env event rest

def run (env : LoopEnv) (exchange : Exchange) (steps : List ExchangeStep) : Exchange :=
  steps.foldl (step env) exchange

def InSession (exchange : Exchange) : Prop :=
  exchange.loop.fsm = .openConfirm ∨ exchange.loop.fsm = .established
  deriving Decidable

structure Delivered (old : ℕ) (exchange : Exchange) : Prop where
  order : exchange.taken.map Prod.fst <+: exchange.told
  calls : ∀ entry ∈ exchange.taken.drop old, ∃ outCall, entry.2 = some outCall ∧
    outCall.event = entry.1

/-- The condition on a step.  Before the session is established, the loop takes only messages that
are among the first ones. -/
def Late (old : ℕ) (exchange : Exchange) : ExchangeStep → Prop
  | .take => exchange.loop.fsm = .openConfirm → exchange.next ≠ none → exchange.taken.length < old
  | _ => True

structure Sound (exchange : Exchange) : Prop where
  order : exchange.taken.map Prod.fst <+: exchange.told
  routes : ∀ event ∈ exchange.told, event.IsRoute

variable {env : LoopEnv} {exchange : Exchange} {old : ℕ}

theorem start_sound (loop : PeerLoop) (rib : RibManager) : (start loop rib).Sound where
  order := List.nil_prefix
  routes := fun _ nothing => absurd nothing List.not_mem_nil

theorem step_turn (input : LoopInput) : (exchange.step env (.turn input)).told = exchange.told ∧
      (exchange.step env (.turn input)).taken = exchange.taken := by
  cases input <;> exact ⟨rfl, rfl⟩

theorem next_eq_some {event : RibEvent} (order : exchange.taken.map Prod.fst <+: exchange.told)
    (takes : exchange.next = some event) :
    exchange.taken.map Prod.fst ++ [event] <+: exchange.told := by
  unfold next at takes
  split_ifs at takes
  rcases order with ⟨rest, told⟩
  have queued : exchange.queue = rest := by
    unfold queue
    rw [← told, ← List.length_map (Prod.fst : RibEvent × _ → _), List.drop_left]
  rw [queued] at takes
  rcases rest with _ | ⟨first, later⟩
  · cases takes
  cases takes
  refine ⟨later, ?_⟩
  rw [← told, List.append_assoc, List.singleton_append]

theorem Sound.step (sound : exchange.Sound) (exchangeStep : ExchangeStep) :
    (exchange.step env exchangeStep).Sound := by
  cases exchangeStep with
  | turn input =>
    rcases @step_turn env exchange input with ⟨told, taken⟩
    constructor
    · rw [told, taken]
      exact sound.order
    · rw [told]
      exact sound.routes
  | take =>
    unfold Exchange.step
    cases takes : exchange.next with
    | none => exact sound
    | some event =>
      refine ⟨?_, sound.routes⟩
      rw [List.map_append]
      exact next_eq_some sound.order takes
  | post event => exact ⟨sound.order, sound.routes⟩
  | manage managerEnv =>
    unfold Exchange.step
    cases exchange.ribRx with
    | nil => exact sound
    | cons event rest =>
      constructor
      · exact sound.order.trans (List.prefix_append _ _)
      · intro message member
        rcases List.mem_append.mp member with earlier | added
        · exact sound.routes message earlier
        split_ifs at added
        · exact RibManager.isRoute_of_handle added
        · exact absurd added List.not_mem_nil

theorem Sound.run (sound : exchange.Sound) (steps : List ExchangeStep) :
    (exchange.run env steps).Sound :=
  List.foldlRecOn steps (Exchange.step env) sound fun _ sound exchangeStep _ =>
    sound.step exchangeStep

theorem delivered_step_iff (sound : exchange.Sound) (session : exchange.InSession)
    (delivered : exchange.Delivered old) (exchangeStep : ExchangeStep) :
    (exchange.step env exchangeStep).Delivered old ↔ exchange.Late old exchangeStep := by
  have order : (exchange.step env exchangeStep).taken.map Prod.fst <+:
      (exchange.step env exchangeStep).told := (sound.step exchangeStep).order
  cases exchangeStep with
  | turn input =>
    refine iff_of_true ⟨order, ?_⟩ trivial
    rw [(step_turn input).2]
    exact delivered.calls
  | post event => exact iff_of_true ⟨order, delivered.calls⟩ trivial
  | manage managerEnv =>
    refine iff_of_true ⟨order, ?_⟩ trivial
    unfold step
    cases exchange.ribRx <;> exact delivered.calls
  | take =>
    unfold step at order ⊢
    dsimp only [Late] at order ⊢
    cases takes : exchange.next with
    | none => exact iff_of_true delivered (fun _ some => absurd rfl some)
    | some event =>
      rw [takes] at order
      constructor
      · intro after waiting _
        -- the message that was taken has no call, so it is one of the first ones
        by_contra late
        rcases after.calls (event, exchange.loop.callFor event) (by
          rw [List.drop_append_of_le_length (by omega)]
          exact List.mem_append_right _ (List.mem_singleton_self _)) with ⟨outCall, calls, -⟩
        have established := PeerLoop.established_of_callFor calls
        rw [waiting] at established
        cases established
      · intro late
        refine ⟨order, fun entry member => ?_⟩
        rw [List.drop_append] at member
        rcases List.mem_append.mp member with earlier | last
        · exact delivered.calls entry earlier
        have new := List.mem_singleton.mp (List.mem_of_mem_drop last)
        rcases session with waiting | established
        · have short := late waiting (by simp)
          rw [List.drop_of_length_le (by simp; omega)] at last
          exact absurd last List.not_mem_nil
        have told : event ∈ exchange.told :=
          (next_eq_some sound.order takes).subset
            (List.mem_append_right _ (List.mem_singleton_self _))
        rcases PeerLoop.callFor_of_isRoute established (sound.routes event told) with
          ⟨outCall, calls⟩
        rw [new]
        exact ⟨outCall, calls, PeerLoop.event_of_callFor calls⟩

theorem ribRx_of_accepted {localPort peerPort : UInt16} {msg : Message}
    (sent : exchange.loop.fsm = .openSent)
    (accepted : (exchange.step env (.turn (.message (.bgpOpen localPort peerPort msg)))).loop.fsm =
      .openConfirm) :
    (exchange.step env (.turn (.message (.bgpOpen localPort peerPort msg)))).ribRx =
      exchange.ribRx ++ exchange.loop.core.asks := by
  have asked : exchange.loop.core.Asked
      (exchange.loop.apply env (.message (.bgpOpen localPort peerPort msg))).core := by
    unfold PeerLoop.apply
    split_ifs
    · exact .of_fsm sent rfl
    · exact (PeerLoop.bgpOpen_asks sent localPort msg).final rfl
  have ribTx : (exchange.loop.apply env (.message (.bgpOpen localPort peerPort msg))).ribTx =
      exchange.loop.ribTx ++ exchange.loop.core.asks := asked accepted
  change exchange.ribRx ++ List.drop _ (exchange.loop.apply env _).ribTx = _
  rw [ribTx, List.drop_left]

/-- In every session that is entered with an accepted OPEN, which asks the manager for its paths:
the messages that the manager sends from then on are all given to a call of the loop, in their
order, as long as the session lasts, exactly if before the session is established the loop takes
only messages from before. -/
theorem delivered_iff_late {loop : PeerLoop} {rib : RibManager} {before session : List ExchangeStep}
    {localPort peerPort : UInt16} {msg : Message} {asking opened : Exchange}
    (reached : asking = (start loop rib).run env before) (sent : asking.loop.fsm = .openSent)
    (opens : opened = asking.step env (.turn (.message (.bgpOpen localPort peerPort msg))))
    (accepted : opened.loop.fsm = .openConfirm)
    (staying : AllSteps (step env) (fun exchange exchangeStep =>
      (exchange.step env exchangeStep).InSession) opened session) :
    opened.ribRx = asking.ribRx ++ asking.loop.core.asks ∧
      ((∀ n, (opened.run env (session.take n)).Delivered opened.told.length) ↔
        AllSteps (step env) (Late opened.told.length) opened session) := by
  subst opens
  refine ⟨ribRx_of_accepted sent accepted, ?_⟩
  have sound : (asking.step env (.turn (.message (.bgpOpen localPort peerPort msg)))).Sound := by
    rw [reached]
    exact ((start_sound loop rib).run before).step _
  generalize asking.step env (.turn (.message (.bgpOpen localPort peerPort msg))) = opened at *
  apply forall_take_iff_allSteps_of
    (fun exchange => exchange.Sound ∧ exchange.InSession ∧ exchange.Delivered opened.told.length)
    (Delivered opened.told.length)
  · exact fun exchange holds => holds.2.2
  · rintro exchange exchangeStep ⟨sound, session, delivered⟩ stays late
    refine ⟨sound.step exchangeStep, stays, ?_⟩
    exact (delivered_step_iff sound session delivered exchangeStep).mpr late
  · rintro exchange exchangeStep ⟨sound, session, delivered⟩ _ after
    exact (delivered_step_iff sound session delivered exchangeStep).mp after
  · refine ⟨sound, .inl accepted, sound.order, ?_⟩
    have short : opened.taken.length ≤ opened.told.length := by
      simpa using sound.order.length_le
    rw [List.drop_of_length_le short]
    exact fun _ nothing => absurd nothing List.not_mem_nil
  · exact staying

instance (old : ℕ) (exchange : Exchange) (exchangeStep : ExchangeStep) :
    Decidable (exchange.Late old exchangeStep) :=
  match exchangeStep with
  | .take => inferInstanceAs (Decidable (_ → _ → _))
  | .turn _ | .post _ | .manage _ => isTrue trivial

def sampleAsking : Exchange :=
  (start sampleLoop { RibManager.new 65000 0x0a000002 false 254 [.ipv4, .ipv6] false with
    peersTx := AList.singleton ⟨.v4 0x0a000001, 65001⟩ () }).run sampleLoopEnv
      [.turn (.admin .manualStart), .turn (.connected sampleActive),
        .post (.addPath [.v4 (.ofLength 0xc0a80000 24)] []), .manage sampleEnv]

def sampleOpened : Exchange :=
  sampleAsking.step sampleLoopEnv (.turn (.message (.bgpOpen 50000 Bgp.BGP_PORT sampleOpen)))

def sampleLate : List ExchangeStep :=
  [.manage sampleEnv, .take, .turn (.message (.keepAliveMsg 50000 Bgp.BGP_PORT)), .take]

def sampleEarly : List ExchangeStep :=
  [.manage sampleEnv, .take, .take, .turn (.message (.keepAliveMsg 50000 Bgp.BGP_PORT))]

theorem delivered_sampleLate : (sampleOpened.run sampleLoopEnv sampleLate).taken.length = 2 ∧
      ∀ n, (sampleOpened.run sampleLoopEnv (sampleLate.take n)).Delivered
        sampleOpened.told.length :=
  ⟨by decide +kernel, (delivered_iff_late rfl (by decide +kernel) rfl (by decide +kernel)
    (by decide +kernel)).2.mpr (by decide +kernel)⟩

/-- The paths are taken and lost before the session is established. -/
theorem not_delivered_sampleEarly :
    sampleAsking.loop.fsm = .openSent ∧ sampleOpened.loop.fsm = .openConfirm ∧
      (sampleOpened.run sampleLoopEnv sampleEarly).loop.fsm = .established ∧
      AllSteps (step sampleLoopEnv) (fun exchange exchangeStep =>
        (exchange.step sampleLoopEnv exchangeStep).InSession) sampleOpened sampleEarly ∧
      ¬(sampleOpened.run sampleLoopEnv sampleEarly).Delivered sampleOpened.told.length := by
  refine ⟨by decide +kernel, by decide +kernel, by decide +kernel, by decide +kernel,
    fun delivered => ?_⟩
  have lost : ∃ entry ∈ (sampleOpened.run sampleLoopEnv sampleEarly).taken.drop
      sampleOpened.told.length, entry.2 = none := by decide +kernel
  rcases lost with ⟨entry, member, missing⟩
  rcases delivered.calls entry member with ⟨outCall, calls, -⟩
  rw [missing] at calls
  cases calls

end Exchange

end Sart
