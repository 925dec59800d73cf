import Sart.Peer.Loop

/-!
# What a turn of the loop does

`Core` is what the loop keeps about the session.  `Core.Step` lists what one turn
can do to it; `PeerLoop.apply_step` shows that every turn does one of these.
Invariants of the loop are proved from the list.
-/

namespace Sart

open Sart.Lib Sart.Lib.Effect

/-- The loop without timers, counters and messages to the neighbour. -/
structure Core where
  peer : Peer
  fsm : State
  connections : List Connection
  initialized : Bool
  adjRibOut : AdjRib
  ribTx : List RibEvent
  holdTime : ℕ

def PeerLoop.core (loop : PeerLoop) : Core where
  peer := loop.toPeer
  fsm := loop.fsm
  connections := loop.connections
  initialized := loop.initialized
  adjRibOut := loop.adjRibOut
  ribTx := loop.ribTx
  holdTime := loop.holdTime

def Negotiable (holdTime received : ℕ) : Prop :=
  ¬(0 < (if holdTime > received then received else holdTime) ∧
    (if holdTime > received then received else holdTime) < 3)

def Connection.decided (preferLocalConn passive : Bool) (connections : List Connection) :
    Option (List Connection) :=
  (connections.zipIdx.find? fun conn => conn.1.isPassive == passive).map fun incoming =>
    match (connections.zipIdx.find? fun conn => conn.1.toStream != incoming.1.toStream).bind
      (Connection.drop preferLocalConn incoming) with
    | some index => connections.eraseIdx index
    | none => connections

namespace Core

def move (event : UInt8) (core : Core) : Core := { core with fsm := core.fsm.mv event }

def withConnections (core : Core) (connections : List Connection) : Core :=
  { core with connections := connections }

def withRouterId (core : Core) (routerId : Ipv4Addr) : Core :=
  { core with peer.info.neighbor.routerId := routerId }

def emit (core : Core) (events : List RibEvent) : Core :=
  { core with ribTx := core.ribTx ++ events }

def preferLocalConn (core : Core) : Bool :=
  decide (core.peer.info.routerId > core.peer.info.neighbor.routerId)

def takeBack (core : Core) : List RibEvent :=
  if core.fsm = .established then core.peer.releaseEvents else []

def cleared (core : Core) : Core :=
  { core with
    peer := core.peer.withAdjRib core.peer.adjRibIn.clear
    adjRibOut := core.adjRibOut.clear
    initialized := true }

def released (core : Core) : Core :=
  if core.initialized then core
  else ((core.withConnections []).emit core.takeBack).cleared

variable {core core' : Core} {env : LoopEnv}

theorem released_of_initialized (fresh : core.initialized = true) :
    core.released = core := if_pos fresh

theorem released_of_live (live : core.initialized = false) :
    core.released = ((core.withConnections []).emit core.takeBack).cleared := by
  rw [released, if_neg (by simp [live])]

theorem move_of_mv_eq {event : UInt8} (stays : core.fsm.mv event = core.fsm) :
    core.move event = core := by
  rw [move, stays]

@[simp]
theorem emit_nil (core : Core) : core.emit [] = core := by
  simp [emit]

@[simp]
theorem emit_emit (core : Core) (first second : List RibEvent) :
    (core.emit first).emit second = core.emit (first ++ second) := by
  simp [emit]

def Served (env : LoopEnv) (core : Core) : Prop :=
  core.initialized = false →
    ∀ count < core.takeBack.length, env.Takes (core.ribTx.length + count)

/-- The session could not be given up, since the manager is gone. -/
inductive Stuck (env : LoopEnv) (core : Core) : Core → Prop
  | intro (count : ℕ) (established : core.fsm = .established) (live : core.initialized = false)
      (short : count < core.peer.releaseEvents.length)
      (gone : ¬env.Takes (core.ribTx.length + count)) :
      Stuck env core ((core.withConnections []).emit (core.peer.releaseEvents.take count))

theorem Stuck.not_served (stuck : core.Stuck env core') :
    ¬core.Served env := by
  rcases stuck with ⟨count, established, live, short, gone⟩
  intro served
  refine gone (served live count ?_)
  rwa [takeBack, if_pos established]

theorem Stuck.of_withConnections (stuck : (core.withConnections []).Stuck env core') :
    core.Stuck env core' := by
  rcases stuck with ⟨count, established, live, short, gone⟩
  exact .intro count established live short gone

inductive Step (env : LoopEnv) (core : Core) : LoopInput → Core → Prop
  | quiet {input : LoopInput} : Step env core input core
  | moved {input : LoopInput} (event : UInt8)
      (session : core.fsm.mv event = .established ↔ core.fsm = .established)
      (confirmed : core.fsm.mv event = .openConfirm ↔ core.fsm = .openConfirm) :
      Step env core input (core.move event)
  | released {input : LoopInput} (event : UInt8)
      (down : core.fsm.mv event = .idle ∨ core.fsm.mv event = .active) :
      Step env core input (core.released.move event)
  | stuck {input : LoopInput} {core' : Core} (stuck : core.Stuck env core') :
      Step env core input core'
  | connected {input : LoopInput} {stream : Stream} {conn : Connection}
      {connections : List Connection} {fsm : State}
      (source : input = .connected stream ∨
        input = .connection (.tcpConnectionConfirmed stream))
      (busy : core.fsm ≠ .idle) (room : core.connections.length < 2)
      (opens : Connection.openFirst stream.isPassive (core.connections ++ [.new stream]) =
        some (conn, connections))
      (state : fsm = core.fsm ∨
        conn.alive = true ∧ fsm = core.fsm.mv Event.CONNECTION_TCP_CR_ACKED) :
      Step env core input { core with connections := connections, fsm := fsm, initialized := false }
  | answered {localPort peerPort : UInt16} {version : UInt8} {asNum : UInt32} {time : UInt16}
      {routerId : Ipv4Addr} {caps : List Cap} {conn : Connection} {events : List RibEvent}
      {fsm : State} (active : core.fsm = .active) (only : core.connections = [conn])
      (requests : ∀ event ∈ events, ∃ family, event = .init family core.peer.info.neighbor.pair)
      (state : fsm = .active ∨ fsm = .openConfirm) (agreed : Negotiable core.holdTime time.toNat) :
      Step env core (.message (.bgpOpen localPort peerPort
        (.open version asNum time routerId caps)))
        { (core.withRouterId routerId).emit events with fsm := fsm }
  | accepted {localPort peerPort : UInt16} {version : UInt8} {asNum : UInt32} {time : UInt16}
      {routerId : Ipv4Addr} {caps : List Cap} {conn : Connection} {connections : List Connection}
      {events : List RibEvent} {fsm : State} (sent : core.fsm = .openSent)
      (opens : Connection.openFirst (localPort == Bgp.BGP_PORT) core.connections =
        some (conn, connections))
      (requests : ∀ event ∈ events, ∃ family, event = .init family core.peer.info.neighbor.pair)
      (state : fsm = .openSent ∨ fsm = .openConfirm)
        (agreed : Negotiable core.holdTime time.toNat) :
      Step env core (.message (.bgpOpen localPort peerPort
        (.open version asNum time routerId caps)))
        { ((core.withConnections connections).withRouterId routerId).emit events with fsm := fsm }
  | unanswered {localPort peerPort : UInt16} {msg : Message} {conn : Connection}
      {connections : List Connection} (sent : core.fsm = .openSent)
      (opens : Connection.openFirst (localPort == Bgp.BGP_PORT) core.connections =
        some (conn, connections)) :
      Step env core (.message (.bgpOpen localPort peerPort msg)) (core.withConnections connections)
  | decided {input : LoopInput} {localPort peerPort : UInt16} {connections : List Connection}
      {fsm : State} (confirmed : core.fsm = .openConfirm)
      (source : input = .message (.keepAliveMsg localPort peerPort) ∧ fsm = .established ∨
        ∃ version asNum time routerId caps, fsm = .openConfirm ∧ input =
          .message (.bgpOpen localPort peerPort (.open version asNum time routerId caps)))
      (left : Connection.decided core.preferLocalConn (localPort == Bgp.BGP_PORT)
        (Connection.confirm (localPort == Bgp.BGP_PORT) core.connections) = some connections) :
      Step env core input { core with connections := connections, fsm := fsm }
  | updated {withdrawnRoutes : List Prefix} {attributes : List Attribute} {nlri : List Prefix}
      {clock : ℕ → ℕ} {outcome : Outcome Error RibEvent} {peer : Peer} {events : List RibEvent}
      (established : core.fsm = .established)
      (handled : core.peer.handleUpdateMsg env.hash clock withdrawnRoutes attributes nlri =
        (outcome, peer))
      (sends : events = [] ∧ (∀ event, outcome = .ok event → ¬env.Takes core.ribTx.length) ∨
        ∃ event, outcome = .ok event ∧ events = [event]) :
      Step env core (.message (.updateMsg (.update withdrawnRoutes attributes nlri)))
        { core.emit events with peer := peer }
  | disseminated {event : RibEvent} {adjRibOut : AdjRib} (established : core.fsm = .established) :
      Step env core (.rib event) { core with adjRibOut := adjRibOut }
  | closed {localPort : UInt16}
      (others : (core.connections.eraseP fun conn => conn.localPort == localPort) ≠ []) :
      Step env core (.connClosed localPort)
        (core.withConnections (core.connections.eraseP fun conn => conn.localPort == localPort))
  | closedLast {localPort : UInt16}
      (last : (core.connections.eraseP fun conn => conn.localPort == localPort) = []) :
      Step env core (.connClosed localPort)
        ((core.withConnections []).released.move Event.CONNECTION_TCP_CONNECTION_FAIL)
  | dropped (index : ℕ) :
      Step env core (.dropped index)
        (core.withConnections (core.connections.modify index fun conn =>
          { conn with alive := false }))

end Core

/-! ## Effects on the session

The session after each part of a handler, from any loop with the given session. -/

namespace PeerLoop

variable {env : LoopEnv} {core : Core} {abort : Option Error → PeerLoop → Prop}

abbrev At (core : Core) (loop : PeerLoop) : Prop := loop.core = core

variable {α : Type} {change : PeerLoop → PeerLoop} {event : UInt8} {state : State}
  {pre : PeerLoop → Prop} {effect : LoopM PUnit} {passive : Bool}

theorem readState_core {next : PeerLoop → LoopM α} {post : α → PeerLoop → Prop}
    (spec : ∀ start : PeerLoop, start.core = core →
      Spec (At core) (next start) post abort) :
    Spec (At core) (Effect.read id >>= next) post abort := by
  refine Spec.readState fun start same => ?_
  refine (spec start same).conseq ?_ fun _ _ holds => holds
  rintro _ rfl
  exact same

theorem modify_core (target : Core → Core)
    (changes : ∀ loop, (change loop).core = target loop.core := by exact fun _ => rfl) :
    Spec (At core) (Effect.modify change : LoopM PUnit)
      (fun _ => At (target core)) abort :=
  Spec.modify fun loop same => (changes loop).trans (congrArg target same)

theorem moveState_core (event : UInt8) :
    Spec (At core) (moveState event)
      (fun _ => At (core.move event)) abort :=
  modify_core (Core.move event) fun _ => rfl

theorem moveState_stays {property : Core → Prop} (stays : state.mv event = state) :
    Spec (fun loop => loop.fsm = state ∧ property loop.core) (moveState event)
      (fun _ loop => property loop.core) abort := by
  refine Spec.modify ?_
  rintro loop ⟨rfl, holds⟩
  change property (loop.core.move event)
  rwa [Core.move_of_mv_eq stays]

theorem modify_same (same : ∀ loop, (change loop).core = loop.core := by exact fun _ => rfl) :
    Spec (At core) (Effect.modify change : LoopM PUnit)
      (fun _ => At core) abort :=
  modify_core id same

theorem countRetry_core :
    Spec (At core) countRetry (fun _ => At core) abort :=
  modify_same fun _ => rfl

variable (cause : Error) (conn : Connection) (waitNotification : Bool) (localPort peerPort : UInt16)
  (code : NotificationCode) (msg : Message)

theorem sendOn_core :
    Spec (At core) (sendOn conn msg)
      (fun _ loop => loop.core = core ∧ conn.alive = true) (fun _ => At core) := by
  refine Spec.of_ends fun loop same => ?_
  unfold sendOn
  split_ifs with alive
  · exact ⟨same, alive⟩
  · exact same

theorem send_core :
    Spec (At core) (send msg)
      (fun _ loop => loop.core = core ∧ ∃ conn, core.connections = [conn])
      (fun _ => At core) := by
  refine readState_core ?_
  rintro start rfl
  split
  · rename_i conn only
    exact (sendOn_core conn msg).implies fun _ _ holds => ⟨holds.1, conn, only⟩
  · exact Spec.fail fun _ same => same

theorem sendAllConn_core :
    Spec (At core) (sendAllConn msg) (fun _ => At core)
      (fun _ => At core) := by
  refine readState_core fun start _ => ?_
  refine Spec.forEach (fun _ (loop : PeerLoop) => loop.core = core) ?_ start.connections
  intro conn rest
  split_ifs
  · exact (sendOn_core conn msg).implies fun _ _ holds => holds.1
  · exact Spec.pure fun _ same => same

theorem sendRib_core (event : RibEvent) :
    Spec (At core) (sendRib env cause event)
      (fun _ loop => loop.core = core.emit [event] ∧ env.Takes core.ribTx.length)
      (fun _ loop => loop.core = core ∧ ¬env.Takes core.ribTx.length) := by
  refine Spec.of_ends ?_
  rintro loop rfl
  unfold sendRib
  split_ifs with takes
  all_goals exact ⟨rfl, takes⟩

theorem sendRib_loop (event : α → RibEvent) (items : List α) :
    Spec (At core)
      (forEach (fun item => sendRib env cause (event item)) items)
      (fun _ loop => loop.core = core.emit (items.map event) ∧
        ∀ count < items.length, env.Takes (core.ribTx.length + count))
      (fun _ loop => ∃ count, loop.core = core.emit ((items.map event).take count) ∧
        count < items.length ∧ ¬env.Takes (core.ribTx.length + count)) := by
  -- what was sent so far, and that all of it was taken
  refine (Spec.forEach (fun rest loop => ∃ before, before ++ rest = items ∧
    loop.core = core.emit (before.map event) ∧
    ∀ count < before.length, env.Takes (core.ribTx.length + count)) ?_ items).conseq ?_ ?_
  · intro item rest
    have stops : ∀ before (loop final : PeerLoop), loop.core = core.emit (before.map event) →
        before ++ item :: rest = items →
        final.core = loop.core ∧ ¬env.Takes loop.core.ribTx.length →
        ∃ count, final.core = core.emit ((items.map event).take count) ∧
          count < items.length ∧ ¬env.Takes (core.ribTx.length + count) := by
      rintro before loop final same rfl ⟨unchanged, gone⟩
      refine ⟨before.length, ?_, by simp, ?_⟩
      · rw [unchanged, same, List.map_append, List.take_left' (by simp)]
      · simpa [same, Core.emit] using gone
    refine ⟨?_, ?_, ?_⟩
    · rintro loop _ final ⟨before, rfl, same, taken⟩ run
      rcases (sendRib_core cause (event item)).returns same run with ⟨sent, takes⟩
      refine ⟨before ++ [item], by simp, ?_, ?_⟩
      · rw [sent, Core.emit_emit, List.map_append, List.map_singleton]
      intro count short
      rw [List.length_append, List.length_singleton] at short
      rcases Nat.lt_succ_iff_lt_or_eq.mp short with earlier | last
      · exact taken count earlier
      · rw [last]
        simpa [Core.emit] using takes
    · rintro loop failure final ⟨before, whole, same, _⟩ run
      exact stops before loop final same whole
        ((sendRib_core cause (event item)).fails rfl run)
    · rintro loop final ⟨before, whole, same, _⟩ run
      exact stops before loop final same whole
        ((sendRib_core cause (event item)).panics rfl run)
  · rintro loop rfl
    exact ⟨[], rfl, by simp, by simp⟩
  · rintro _ loop ⟨before, rfl, same, taken⟩
    rw [List.append_nil]
    exact ⟨same, taken⟩

theorem release_core :
    Spec (At core) (release env waitNotification)
      (fun _ loop => loop.core = core.released ∧ core.Served env)
      (fun _ loop => core.Stuck env loop.core) := by
  refine readState_core ?_
  rintro start rfl
  by_cases fresh : start.initialized = true
  · rw [if_pos fresh, Core.released_of_initialized fresh]
    exact Spec.pure fun _ same => ⟨same, fun live => absurd (fresh.symm.trans live) (by simp)⟩
  rw [if_neg fresh]
  have live : start.core.initialized = false := by
    rw [Bool.not_eq_true] at fresh
    exact fresh
  rw [Core.released_of_live live]
  refine (modify_core (·.withConnections []) fun _ => rfl).bind fun _ => ?_
  split_ifs with established
  · have takeBack : start.core.takeBack = start.core.peer.releaseEvents := if_pos established
    rw [takeBack]
    refine ((sendRib_loop _ id _).mono (fun _ _ holds => holds.symm) ?_).bind
      fun _ => Spec.fact_pre fun served => ?_
    · rintro _ loop ⟨count, same, short, gone⟩
      rw [same, List.map_id]
      exact .intro count established live short gone
    rw [List.map_id]
    refine (modify_core Core.cleared fun _ => rfl).implies fun _ _ same => ?_
    exact ⟨same, fun _ => by rwa [takeBack]⟩
  have takeBack : start.core.takeBack = [] := if_neg established
  rw [takeBack, Core.emit_nil]
  refine (modify_core Core.cleared fun _ => rfl).implies fun _ _ same => ?_
  exact ⟨same, fun _ => by simp [takeBack]⟩

theorem notification_eq (subcode : Option NotificationSubCode) :
    notification code subcode = .ok (.notification code subcode []) := by
  cases subcode <;> rfl

/-- The effect gives the session up, unless it fails before or in the middle of that. -/
abbrev Gives (env : LoopEnv) (core : Core) (effect : LoopM PUnit) : Prop :=
  Spec (At core) effect (fun _ => At core.released)
    fun _ loop => loop.core = core ∨ core.Stuck env loop.core

theorem sendAndRelease_core :
    Spec (At core)
      (do
        send msg
        release env true
        countRetry)
      (fun _ => At core.released)
      (fun _ loop => loop.core = core ∨ core.Stuck env loop.core) := by
  refine ((send_core msg).mono (fun _ _ holds => holds.1)
    fun _ _ same => .inl same).bind fun _ => ?_
  refine ((release_core true).mono (fun _ _ holds => holds.1)
    fun _ _ stuck => .inr stuck).bind fun _ => ?_
  exact countRetry_core

theorem notify_core : Gives env core (notify env code) := by
  unfold notify
  exact sendAndRelease_core _

theorem notifyError_core (error : UInt8) : Gives env core (notifyError env code error) := by
  refine (Spec.lift fun _ same => ⟨fun _ _ => .inl same, fun _ => .inl same⟩).bind fun subcode => ?_
  rw [notification_eq]
  exact (sendAndRelease_core _).conseq (fun _ holds => holds.2) fun _ _ same => same

theorem giveUp_core :
    Spec (At core) (giveUp env) (fun _ => At core.released)
      (fun _ loop => core.Stuck env loop.core) :=
  ((release_core false).implies fun _ _ holds => holds.1).bind
    fun _ => countRetry_core

/-- The effect takes the session one step further, also when it fails. -/
abbrev Turns (env : LoopEnv) (core : Core) (input : LoopInput) (effect : LoopM PUnit) : Prop :=
  Spec (At core) effect (fun _ loop => core.Step env input loop.core)
    (fun _ loop => core.Step env input loop.core)

variable {input : LoopInput}

theorem ends_with {effect : LoopM α} {target : Core}
    (spec : Spec pre effect (fun _ => At target) abort) (step : core.Step env input target) :
    Spec pre effect (fun _ loop => core.Step env input loop.core) abort :=
  spec.implies fun _ _ same => same ▸ step

theorem fails_quietly {effect : LoopM α} {post : α → PeerLoop → Prop}
    (spec : Spec pre effect post (fun _ => At core)) :
    Spec pre effect post (fun _ loop => core.Step env input loop.core) :=
  spec.mono (fun _ _ holds => holds) fun _ _ same => same ▸ .quiet

theorem turns_same (same : Spec (At core) effect (fun _ => At core)
      (fun _ => At core)) : Turns env core input effect :=
  ends_with (fails_quietly same) .quiet

theorem turns_moveState (fsm : core.fsm = state)
    (outside : (state.mv event = .established ↔ state = .established) ∧
      (state.mv event = .openConfirm ↔ state = .openConfirm)) :
    Turns env core input (moveState event) := by
  subst fsm
  exact ends_with (moveState_core event) (.moved event outside.1 outside.2)

theorem turns_released_by {move : LoopM PUnit} (fsm : core.fsm = state)
    (gives : Gives env core effect) (moves : Spec (At core.released) move
      (fun _ => At (core.released.move event))
      (fun _ loop => core.Step env input loop.core))
    (down : state.mv event = .idle ∨ state.mv event = .active) :
    Turns env core input (effect >>= fun _ => move) := by
  subst fsm
  refine (gives.mono (fun _ _ same => same) ?_).bind fun _ => ?_
  · rintro _ loop (same | stuck)
    · rw [same]
      exact .quiet
    · exact .stuck stuck
  · exact ends_with moves (.released event down)

theorem turns_released (fsm : core.fsm = state) (gives : Gives env core effect)
    (down : state.mv event = .idle ∨ state.mv event = .active) :
    Turns env core input (effect >>= fun _ => moveState event) :=
  turns_released_by fsm gives (moveState_core event) down

theorem release_gives : Gives env core (release env waitNotification) :=
  (release_core waitNotification).mono (fun _ _ holds => holds.1)
    fun _ _ stuck => .inr stuck

theorem giveUp_gives :
    Gives env core (giveUp env) :=
  giveUp_core.mono (fun _ _ same => same) fun _ _ stuck => .inr stuck

theorem turns_after_fact {effect : LoopM α} {next : α → LoopM PUnit} (fact : Prop)
    (same : Spec (At core) effect (fun _ loop => fact ∧ loop.core = core)
      (fun _ => At core)) (turns : ∀ value, fact → Turns env core input (next value)) :
    Turns env core input (effect >>= next) := by
  exact (fails_quietly same).bind fun value => Spec.fact_pre (turns value)

theorem turns_after {effect : LoopM α} {next : α → LoopM PUnit}
    (same : Spec (At core) effect (fun _ => At core)
      (fun _ => At core)) (turns : ∀ value, Turns env core input (next value)) :
    Turns env core input (effect >>= next) :=
  turns_after_fact True (same.implies fun _ _ same => ⟨trivial, same⟩)
    fun value _ => turns value

theorem turns_read {handler : PeerLoop → LoopM PUnit}
    (turns : ∀ loop : PeerLoop, loop.core = core → Turns env core input (handler loop)) :
    Turns env core input (Effect.read id >>= handler) :=
  readState_core turns

theorem manualStart_turns : Turns env core input manualStart :=
  turns_moveState rfl (by cases core.fsm <;> decide)

theorem manualStop_turns : Turns env core input (manualStop env) :=
  turns_released rfl (notify_core _) (by cases core.fsm <;> decide)

theorem connectRetryTimerExpire_turns : Turns env core input (connectRetryTimerExpire env) := by
  refine turns_read ?_
  rintro loop rfl
  cases fsm : loop.fsm with
  | idle | connect | active => exact turns_moveState fsm (by decide)
  | openSent | openConfirm | established => exact turns_released fsm (notify_core _) (by decide)

theorem holdTimerExpire_turns : Turns env core input (holdTimerExpire env) := by
  refine turns_read ?_
  rintro loop rfl
  cases fsm : loop.fsm with
  | idle | connect | active => exact turns_released fsm giveUp_gives (by decide)
  | openSent | openConfirm | established => exact turns_released fsm (notify_core _) (by decide)

theorem keepaliveTimerExpire_turns : Turns env core input (keepaliveTimerExpire env) := by
  refine turns_read ?_
  rintro loop rfl
  have moves : ∀ {core : Core} {abort : Option Error → PeerLoop → Prop},
      Spec (At core)
        (Effect.modify fun loop : PeerLoop =>
          { loop with fsm := loop.fsm.mv Event.TIMER_KEEPALIVE_TIMER_EXPIRE })
        (fun _ => At (core.move Event.TIMER_KEEPALIVE_TIMER_EXPIRE)) abort :=
    modify_core (Core.move _) fun _ => rfl
  have sent : ∀ {effect : LoopM PUnit}, loop.core.fsm = .openConfirm ∨
      loop.core.fsm = .established →
      Spec (At loop.core) effect (fun _ => At loop.core)
        (fun _ => At loop.core) →
      Turns env loop.core input (effect >>= fun _ => Effect.modify fun loop : PeerLoop =>
        { loop with fsm := loop.fsm.mv Event.TIMER_KEEPALIVE_TIMER_EXPIRE }) := by
    intro effect up same
    refine (fails_quietly same).bind fun _ => ends_with moves ?_
    rcases up with state | state
    all_goals exact .moved _ (by rw [state]; decide) (by rw [state]; decide)
  cases fsm : loop.fsm with
  | established =>
    split_ifs
    · exact turns_same (Spec.pure fun _ same => same)
    · exact sent (.inr fsm) ((send_core _).implies fun _ _ holds => holds.1)
  | openSent => exact turns_released_by fsm (notify_core _) moves (by decide)
  | openConfirm => exact sent (.inl fsm) (sendAllConn_core _)
  | idle | connect | active => exact turns_released_by fsm giveUp_gives moves (by decide)

theorem bgpHeaderError_turns (error : MessageHeaderError) :
    Turns env core input (bgpHeaderError env error) := by
  refine turns_read ?_
  rintro loop rfl
  cases fsm : loop.fsm with
  | active | connect => exact turns_released fsm giveUp_gives (by decide)
  | openSent | openConfirm => exact turns_released fsm (notifyError_core _ _) (by decide)
  | established =>
    refine Spec.bind modify_same fun _ => ?_
    split_ifs
    · exact turns_same (Spec.pure fun _ same => same)
    · exact turns_released fsm (notifyError_core _ _) (by decide)
  | idle => exact turns_moveState fsm (by decide)

theorem bgpOpenMsgError_turns (error : OpenMessageError) :
    Turns env core input (bgpOpenMsgError env error) := by
  refine turns_read ?_
  rintro loop rfl
  cases fsm : loop.fsm with
  | active | connect => exact turns_released fsm giveUp_gives (by decide)
  | openSent | openConfirm => exact turns_released fsm (notifyError_core _ _) (by decide)
  | established => exact turns_released fsm (notify_core _) (by decide)
  | idle => exact turns_moveState fsm (by decide)

theorem updateMsgError_turns (error : UpdateMessageError) :
    Turns env core input (updateMsgError env error) := by
  refine turns_read ?_
  rintro loop rfl
  cases fsm : loop.fsm with
  | openSent | openConfirm => exact turns_released fsm (notify_core _) (by decide)
  | established => exact turns_released fsm (notifyError_core _ _) (by decide)
  | idle | connect | active => exact turns_released fsm (release_gives false) (by decide)

theorem notificationMsgVerError_turns : Turns env core input (notificationMsgVerError env) := by
  refine turns_read ?_
  rintro loop rfl
  cases fsm : loop.fsm with
  | active | connect | openConfirm | openSent =>
    exact turns_released fsm (release_gives false) (by decide)
  | established => exact turns_released fsm giveUp_gives (by decide)
  | idle => exact turns_moveState fsm (by decide)

theorem notificationMsg_turns : Turns env core input (notificationMsg env msg) := by
  cases msg with
  | notification code subcode data =>
    refine turns_read ?_
    rintro loop rfl
    cases fsm : loop.fsm with
    | openSent => exact turns_released fsm (notify_core _) (by decide)
    | idle | connect | active | openConfirm | established =>
      exact turns_released fsm giveUp_gives (by decide)
  | _ => exact turns_same (Spec.fail fun _ same => same)

theorem tcpConnectionFail_turns : Turns env core input (tcpConnectionFail env) := by
  refine turns_read ?_
  rintro loop rfl
  cases fsm : loop.fsm with
  | idle => exact turns_moveState fsm (by decide)
  | connect | active | openConfirm => exact turns_released fsm (release_gives false) (by decide)
  | openSent =>
    refine Spec.bind modify_same fun _ => ?_
    exact turns_moveState fsm (by decide)
  | established => exact turns_released fsm giveUp_gives (by decide)

theorem onPeer_core (effect : PeerM α) :
    Spec (At core) (onPeer effect)
      (fun value loop => ∃ peer, effect core.peer = (.ok value, peer) ∧
        loop.core = { core with peer := peer })
      (fun _ loop => ∃ outcome peer, effect core.peer = (outcome, peer) ∧
        (∀ value, outcome ≠ .ok value) ∧ loop.core = { core with peer := peer }) := by
  refine Spec.of_ends ?_
  rintro loop rfl
  unfold onPeer
  rcases ran : effect loop.toPeer with ⟨value | cause | _, peer⟩
  · exact ⟨peer, ran, rfl⟩
  all_goals exact ⟨_, peer, ran, by simp, rfl⟩

theorem handleUpdateMsg_turns {withdrawnRoutes : List Prefix} {attributes : List Attribute}
    {nlri : List Prefix} (established : core.fsm = .established) :
    Spec (At core) (handleUpdateMsg env withdrawnRoutes attributes nlri)
      (fun _ loop => loop.fsm = .established ∧
        core.Step env (.message (.updateMsg (.update withdrawnRoutes attributes nlri))) loop.core)
      (fun _ loop =>
        core.Step env (.message (.updateMsg (.update withdrawnRoutes attributes nlri)))
          loop.core) := by
  refine readState_core fun start same => ?_
  have stores : Spec (At core)
      (onPeer (Peer.handleUpdateMsg env.hash (env.clock start.now) withdrawnRoutes attributes nlri))
      (fun event loop => ∃ peer, Peer.handleUpdateMsg env.hash (env.clock start.now)
        withdrawnRoutes attributes nlri core.peer = (.ok event, peer) ∧
        loop.core = { core with peer := peer })
      (fun _ loop => core.Step env
        (.message (.updateMsg (.update withdrawnRoutes attributes nlri))) loop.core) := by
    refine (onPeer_core _).mono (fun _ _ stored => stored) ?_
    rintro _ loop ⟨outcome, peer, handled, failed, left⟩
    have step : core.Step env (.message (.updateMsg (.update withdrawnRoutes attributes nlri)))
        { core.emit [] with peer := peer } :=
      .updated established handled (.inl ⟨rfl, fun event ok => absurd ok (failed event)⟩)
    rw [Core.emit_nil] at step
    rw [left]
    exact step
  refine stores.bind fun event => Spec.exists_pre fun peer => Spec.fact_pre fun handled => ?_
  refine (sendRib_core (.invalidEvent 0) event).mono ?_ ?_
  · rintro _ loop ⟨sent, _⟩
    refine ⟨(congrArg Core.fsm sent).trans established, ?_⟩
    rw [sent]
    exact .updated established handled (.inr ⟨event, rfl, rfl⟩)
  rintro _ loop ⟨unsent, gone⟩
  have step : core.Step env (.message (.updateMsg (.update withdrawnRoutes attributes nlri)))
      { core.emit [] with peer := peer } :=
    .updated established handled (.inl ⟨rfl, fun _ _ => gone⟩)
  rw [Core.emit_nil] at step
  rw [unsent]
  exact step

theorem updateMsg_turns : Turns env core (.message (.updateMsg msg)) (updateMsg env msg) := by
  refine turns_read ?_
  rintro loop rfl
  cases fsm : loop.fsm with
  | openSent | openConfirm => exact turns_released fsm (notify_core _) (by decide)
  | idle | connect | active => exact turns_released fsm giveUp_gives (by decide)
  | established =>
    cases msg with
    | update withdrawnRoutes attributes nlri =>
      refine Spec.bind (modify_same ?_) fun _ => ?_
      · intro other
        split_ifs <;> rfl
      exact (handleUpdateMsg_turns fsm).bind fun _ => moveState_stays (by decide)
    | _ => exact turns_same (Spec.fail fun _ same => same)

def OutOnly (core : Core) (loop : PeerLoop) : Prop :=
  ∃ adjRibOut, loop.core = { core with adjRibOut := adjRibOut }

theorem send_outOnly : Keeps (OutOnly core) (send msg) :=
  Spec.exists_pre fun adjRibOut => (send_core msg).mono
    (fun _ _ holds => ⟨adjRibOut, holds.1⟩) fun _ _ same => ⟨adjRibOut, same⟩

theorem onAdjRibOut_outOnly (call : AdjRib → Outcome Error PUnit × AdjRib) :
    Keeps (OutOnly core) (onAdjRibOut call) := by
  refine Spec.of_final ?_
  rintro loop ⟨adjRibOut, same⟩
  refine ⟨(call loop.adjRibOut).2, ?_⟩
  have other : (onAdjRibOut call loop).2.core =
    { loop.core with adjRibOut := (call loop.adjRibOut).2 } := rfl
  rw [other, same]

theorem stage_outOnly (path : Path) : Keeps (OutOnly core) (stage path) := by
  refine Keeps.readState fun loop => ?_
  split_ifs
  · refine Keeps.lift.bind fun msg => ?_
    exact Keeps.bind (send_outOnly msg) fun _ => Keeps.pure
  · refine Keeps.bind (onAdjRibOut_outOnly _) fun _ => ?_
    exact Keeps.lift.bind fun attrs => Keeps.pure

theorem advertise_outOnly (paths : List Path) : Keeps (OutOnly core) (advertise env paths) := by
  refine (Keeps.collect stage_outOnly paths).bind fun staged => ?_
  refine Keeps.forEach (fun attrs => ?_) _
  exact Keeps.lift.bind fun msg => send_outOnly msg

theorem withdraw_outOnly (prefixes : List IpNet) : Keeps (OutOnly core) (withdraw prefixes) := by
  refine (Keeps.forEach (fun pfx => ?_) prefixes).bind fun _ => ?_
  · refine Keeps.readState fun loop => ?_
    split
    · exact Keeps.fail
    · exact onAdjRibOut_outOnly _
  · exact Keeps.lift.bind fun msg => send_outOnly msg

theorem handleRib_turns (event : RibEvent) :
    Turns env core (.rib event) (handleRib env event) := by
  refine turns_read ?_
  rintro loop rfl
  split_ifs with state
  · exact turns_same (Spec.pure fun _ same => same)
  have established : loop.core.fsm = .established := not_not.mp state
  have disseminates : ∀ {effect : LoopM PUnit},
      Keeps (OutOnly loop.core) effect → Turns env loop.core (.rib event) effect := by
    intro effect outOnly
    refine outOnly.weaken (fun _ same => ⟨_, same⟩) ?_ ?_
    all_goals
      rintro _ other ⟨adjRibOut, same⟩
      rw [same]
      exact .disseminated established
  cases event with
  | advertise paths => exact disseminates (advertise_outOnly paths)
  | withdraw prefixes => exact disseminates (withdraw_outOnly prefixes)
  | _ => exact turns_same (Spec.fail fun _ same => same)

theorem buildOpenMsg_eq (loop : PeerLoop) :
    ∃ msg, buildOpenMsg loop = .ok msg ∧ msg.msgType = .open := by
  have adds : ∀ (caps : List Capability) (builder : MessageBuilder), builder.msgType = .open →
      ∃ result, builder.addCapabilities caps = .ok result ∧ result.msgType = .open := by
    intro caps
    induction caps with
    | nil => exact fun builder kind => ⟨builder, rfl, kind⟩
    | cons cap rest ih =>
      intro builder kind
      rcases ih { builder with capabilities := builder.capabilities ++ [cap.toCap] } kind with
        ⟨result, built, same⟩
      refine ⟨result, ?_, same⟩
      rw [MessageBuilder.addCapabilities, MessageBuilder.addCapability,
        MessageBuilder.set_eq_ok kind, Outcome.ok_bind, built]
  rcases adds ((loop.localCapabilities.entries.insertionSort fun left right =>
    left.1 ≤ right.1).map fun entry => entry.2) { MessageBuilder.builder .open with
      asn := loop.info.asn
      holdTime := UInt16.ofNat loop.holdTime
      routerId := loop.info.routerId } rfl with ⟨builder, built, kind⟩
  refine ⟨builder.build, ?_, ?_⟩
  · have opens : buildOpenMsg loop = MessageBuilder.addCapabilities
        ((loop.localCapabilities.entries.insertionSort fun left right =>
          left.1 ≤ right.1).map fun entry => entry.2) { MessageBuilder.builder .open with
            asn := loop.info.asn
            holdTime := UInt16.ofNat loop.holdTime
            routerId := loop.info.routerId } >>= fun builder => .ok builder.build := rfl
    rw [opens, built, Outcome.ok_bind]
  · simp [MessageBuilder.build, kind, Message.msgType]

theorem handleConnection_core (stream : Stream) :
    Spec (At core) (handleConnection stream)
      (fun passive loop => (passive = stream.isPassive ∧ core.connections.length < 2) ∧
        loop.core = { core with
          connections := core.connections ++ [.new stream], initialized := false })
      (fun _ => At core) := by
  refine Spec.bind modify_same fun _ => ?_
  refine readState_core ?_
  rintro start rfl
  split_ifs with full
  · exact Spec.fail fun _ same => same
  refine Spec.bind (modify_core (fun core => { core with
    connections := core.connections ++ [.new stream], initialized := false })) fun _ => ?_
  exact Spec.pure fun _ same => ⟨⟨rfl, not_le.mp full⟩, same⟩

theorem sendToDupConn_core {msg : Message} (kind : msg.msgType = .open ∨ msg.msgType = .keepalive) :
    Spec (At core) (sendToDupConn msg passive)
      (fun _ loop => ∃ conn connections,
        (Connection.openFirst passive core.connections = some (conn, connections) ∧
          conn.alive = true) ∧ loop.core = core.withConnections connections)
      (fun _ loop => Connection.openFirst passive core.connections = none ∧ loop.core = core ∨
        ∃ conn connections,
          Connection.openFirst passive core.connections = some (conn, connections) ∧
            loop.core = core.withConnections connections) := by
  refine readState_core ?_
  rintro start rfl
  rw [if_pos kind]
  split
  · rename_i conn connections opens
    refine Spec.bind (modify_core (·.withConnections connections)) fun _ => ?_
    refine (sendOn_core conn msg).mono ?_ ?_
    · exact fun _ _ holds => ⟨conn, connections, ⟨opens, holds.2⟩, holds.1⟩
    · exact fun _ _ same => .inr ⟨conn, connections, opens, same⟩
  · rename_i missing
    exact Spec.fail fun _ same => .inl ⟨missing, same⟩

theorem openFirst_append_new (connections : List Connection) (stream : Stream) :
    Connection.openFirst stream.isPassive (connections ++ [.new stream]) ≠ none := by
  induction connections with
  | nil =>
    have same : (Connection.new stream).isPassive = stream.isPassive := rfl
    simp [Connection.openFirst, same]
  | cons conn rest ih =>
    rw [List.cons_append, Connection.openFirst]
    split_ifs
    · simp
    · simpa using ih

theorem handleTcpConnect_turns {stream : Stream}
    (source : input = .connected stream ∨ input = .connection (.tcpConnectionConfirmed stream))
    (acks : ∀ state : State, state.mv event = state.mv Event.CONNECTION_TCP_CR_ACKED) :
    Turns env core input (handleTcpConnect stream event) := by
  refine turns_read ?_
  rintro loop rfl
  have tracks : loop.fsm ≠ .idle → Turns env loop.core input (do
      let passive ← handleConnection stream
      let loop ← Effect.read id
      let msg ← lift (buildOpenMsg loop)
      mapError (fun _ => .peer .failedToSendMessage) (sendToDupConn msg passive)
      Effect.modify fun loop =>
        { loop with holdTimer := loop.holdTimer.push loop.now loop.holdTime }
      moveState event) := by
    intro busy
    refine (fails_quietly (handleConnection_core stream)).bind fun passive =>
      Spec.fact_pre fun ⟨direction, room⟩ => ?_
    refine readState_core fun middle tracked => ?_
    rcases buildOpenMsg_eq middle with ⟨msg, built, kind⟩
    rw [built, direction, lift_ok_bind]
    refine Spec.bind ((sendToDupConn_core (.inl kind)).mono (fun _ _ sent => sent) ?_).mapError
      fun _ => Spec.exists_pre fun conn => Spec.exists_pre fun connections =>
        Spec.fact_pre fun ⟨opens, alive⟩ => ?_
    · rintro _ other (⟨missing, _⟩ | ⟨conn, connections, opens, same⟩)
      · exact absurd missing (openFirst_append_new _ stream)
      · exact same ▸ .connected source busy room opens (.inl rfl)
    refine Spec.bind modify_same fun _ => ?_
    exact ends_with (moveState_core event)
      (.connected source busy room opens (.inr ⟨alive, acks loop.fsm⟩))
  cases fsm : loop.fsm with
  | idle => exact turns_moveState fsm (by rw [acks]; decide)
  | connect | active | openSent | openConfirm | established => exact tracks (by rw [fsm]; decide)

theorem negotiateHoldTime_core (time : ℕ) :
    Spec (At core) (negotiateHoldTime time)
      (fun _ loop => Negotiable core.holdTime time ∧ loop.core = core)
      (fun _ => At core) := by
  refine readState_core fun start same => ?_
  have holdTime : start.holdTime = core.holdTime := congrArg Core.holdTime same
  unfold Negotiable
  rw [holdTime]
  generalize (if core.holdTime > time then time else core.holdTime) = negotiated
  by_cases short : negotiated > 0 ∧ negotiated < 3
  · rw [if_pos short]
    exact Spec.fail fun _ same => same
  rw [if_neg short]
  refine Spec.bind (modify_same ?_) fun _ => Spec.pure fun _ same => ⟨short, same⟩
  intro loop
  split_ifs <;> rfl

theorem requestPaths_core (routerId : Ipv4Addr) :
    Spec (At core) (requestPaths env routerId)
      (fun _ loop => ∃ events : List RibEvent,
        (∀ event ∈ events, ∃ family, event = .init family core.peer.info.neighbor.pair) ∧
          loop.core = (core.withRouterId routerId).emit events)
      (fun _ loop => ∃ events : List RibEvent,
        (∀ event ∈ events, ∃ family, event = .init family core.peer.info.neighbor.pair) ∧
          loop.core = (core.withRouterId routerId).emit events) := by
  refine Spec.bind (modify_core (·.withRouterId routerId)) fun _ => ?_
  refine readState_core fun start same => ?_
  have pair : start.info.neighbor.pair = core.peer.info.neighbor.pair :=
    congrArg (fun other : Core => other.peer.info.neighbor.pair) same
  have requests : ∀ event ∈ start.info.families.map fun family =>
      RibEvent.init family start.info.neighbor.pair,
      ∃ family, event = .init family core.peer.info.neighbor.pair := by
    intro event asked
    rcases List.mem_map.mp asked with ⟨family, _, rfl⟩
    exact ⟨family, by rw [pair]⟩
  refine (sendRib_loop _ (fun family => .init family start.info.neighbor.pair) _).mono
    (fun _ _ sent => ⟨_, requests, sent.1⟩) ?_
  rintro _ loop ⟨count, sent, _⟩
  exact ⟨_, fun event asked => requests event (List.mem_of_mem_take asked), sent⟩

theorem requestPaths_turns {middle : Core} {routerId : Ipv4Addr} {target : State}
    (fsm : middle.fsm = state) (moves : state.mv event = target) (steps : ∀ events : List RibEvent,
      (∀ event ∈ events, ∃ family, event = .init family middle.peer.info.neighbor.pair) →
      ∀ moved, moved = state ∨ moved = target →
        core.Step env input { (middle.withRouterId routerId).emit events with fsm := moved }) :
    Spec (At middle) (requestPaths env routerId >>= fun _ => moveState event)
      (fun _ loop => core.Step env input loop.core)
      (fun _ loop => core.Step env input loop.core) := by
  subst fsm moves
  refine Spec.bind ((requestPaths_core routerId).mono (fun _ _ holds => holds) ?_) fun _ => ?_
  · rintro _ loop ⟨events, requests, same⟩
    rw [same]
    exact steps events requests middle.fsm (.inl rfl)
  · refine Spec.exists_pre fun events => Spec.fact_pre fun requests => ?_
    exact ends_with (moveState_core event) (steps events requests _ (.inr rfl))

theorem decideConnection_core (passive : Bool) :
    Spec (At core) (decideConnection passive)
      (fun _ loop => ∃ connections,
        Connection.decided core.preferLocalConn passive core.connections = some connections ∧
          loop.core = core.withConnections connections)
      (fun _ loop => Connection.decided core.preferLocalConn passive core.connections = none ∧
        loop.core = core) := by
  refine readState_core ?_
  rintro start rfl
  have connections : start.core.connections = start.connections := rfl
  have prefers : start.core.preferLocalConn =
    decide (start.info.routerId > start.info.neighbor.routerId) := rfl
  rw [Connection.decided, connections, prefers]
  cases first : start.connections.zipIdx.find? fun conn => conn.1.isPassive == passive with
  | none => exact Spec.fail fun _ same => ⟨rfl, same⟩
  | some incoming =>
    dsimp only
    cases other : start.connections.zipIdx.find?
      fun conn => conn.1.toStream != incoming.1.toStream with
    | none =>
      exact Spec.pure fun _ same => ⟨start.connections, by simp [-gt_iff_lt, other], same⟩
    | some colliding =>
      dsimp only
      cases drops : Connection.drop (decide (start.info.routerId > start.info.neighbor.routerId))
        incoming colliding with
      | none =>
        refine Spec.pure fun _ same => ⟨start.connections, ?_, same⟩
        simp only [Option.map_some, other, Option.bind_some, drops]
      | some index =>
        refine Spec.bind (modify_core
          (fun core => core.withConnections (core.connections.eraseIdx index))) fun _ => ?_
        refine Spec.pure fun _ same => ⟨start.connections.eraseIdx index, ?_, same⟩
        simp only [Option.map_some, other, Option.bind_some, drops]

theorem isPassive_confirm (passive : Bool) (conn : Connection) :
    (if conn.isPassive = passive then { conn with state := .openConfirm } else conn).isPassive =
      conn.isPassive := by
  split_ifs <;> rfl

theorem confirm_eq_self {preferLocalConn : Bool} {connections : List Connection}
    (missing : Connection.decided preferLocalConn passive
      (Connection.confirm passive connections) = none) :
    Connection.confirm passive connections = connections := by
  rw [Connection.decided, Option.map_eq_none_iff, List.find?_eq_none] at missing
  refine (List.map_congr_left fun conn tracked => ?_).trans (List.map_id connections)
  refine if_neg fun direction => ?_
  rcases List.getElem?_of_mem tracked with ⟨index, found⟩
  refine missing ((if conn.isPassive = passive then { conn with state := .openConfirm } else conn),
    index) ?_ ?_
  · rw [List.mem_zipIdx_iff_getElem?, Connection.confirm, List.getElem?_map, found, Option.map_some]
  · rw [isPassive_confirm, direction, beq_self_eq_true]

theorem decides_core (passive : Bool) :
    Spec (fun loop => loop.core =
        core.withConnections (Connection.confirm passive core.connections))
      (decideConnection passive)
      (fun _ loop => ∃ connections, Connection.decided core.preferLocalConn passive
        (Connection.confirm passive core.connections) = some connections ∧
          loop.core = core.withConnections connections)
      (fun _ => At core) := by
  refine (decideConnection_core passive).mono ?_ ?_
  · rintro _ loop ⟨connections, left, same⟩
    exact ⟨connections, left, same⟩
  rintro _ loop ⟨missing, same⟩
  rw [At, same, confirm_eq_self missing]
  rfl

theorem bgpOpen_turns :
    Turns env core (.message (.bgpOpen localPort peerPort msg)) (bgpOpen env localPort msg) := by
  cases msg with
  | «open» version asNum time routerId caps =>
    refine turns_read ?_
    rintro loop rfl
    cases fsm : loop.fsm with
    | idle | connect => exact turns_moveState fsm (by decide)
    | established => exact turns_released fsm (notify_core _) (by decide)
    | active =>
      rcases buildOpenMsg_eq loop with ⟨msg, built, _⟩
      rw [built, lift_ok_bind]
      refine turns_after_fact _ ((send_core msg).implies fun _ _ holds => holds.symm)
        fun _ ⟨conn, only⟩ => ?_
      refine turns_after ((send_core _).implies fun _ _ holds => holds.1)
        fun _ => ?_
      refine turns_after_fact _ (negotiateHoldTime_core _) fun _ agreed => ?_
      refine requestPaths_turns fsm rfl fun events requests moved moves => ?_
      exact .answered fsm only requests moves agreed
    | openSent =>
      refine turns_after_fact _ (negotiateHoldTime_core _) fun _ agreed => ?_
      refine Spec.bind ((sendToDupConn_core (.inr rfl)).mono (fun _ _ sent => sent) ?_)
        fun _ => Spec.exists_pre fun conn => Spec.exists_pre fun connections =>
          Spec.fact_pre fun ⟨opens, _⟩ => ?_
      · rintro _ other (⟨_, same⟩ | ⟨conn, connections, opens, same⟩)
        · exact same ▸ .quiet
        · exact same ▸ .unanswered fsm opens
      refine requestPaths_turns fsm rfl fun events requests moved moves => ?_
      exact .accepted fsm opens requests moves agreed
    | openConfirm =>
      refine Spec.bind (modify_core (fun core => core.withConnections
        (Connection.confirm (localPort == Bgp.BGP_PORT) core.connections))) fun _ => ?_
      refine (fails_quietly (decides_core _)).bind fun _ =>
        Spec.exists_pre fun connections => Spec.fact_pre fun left => ?_
      exact ends_with (Spec.pure fun _ same => same)
        (.decided fsm (.inr ⟨_, _, _, _, _, fsm, rfl⟩) left)
  | _ => exact turns_same (Spec.fail fun _ same => same)

theorem keepaliveMsg_turns :
    Turns env core (.message (.keepAliveMsg localPort peerPort)) (keepaliveMsg env localPort) := by
  refine turns_read ?_
  rintro loop rfl
  cases fsm : loop.fsm with
  | openSent => exact turns_released fsm (notify_core _) (by decide)
  | idle | connect | active => exact turns_released fsm giveUp_gives (by decide)
  | established =>
    refine turns_after modify_same fun _ => ?_
    exact turns_moveState fsm (by decide)
  | openConfirm =>
    refine Spec.bind (modify_core (fun core => core.withConnections
      (Connection.confirm (localPort == Bgp.BGP_PORT) core.connections))) fun _ => ?_
    refine (fails_quietly (decides_core _)).bind fun _ =>
      Spec.exists_pre fun connections => Spec.fact_pre fun left => ?_
    refine ends_with (moveState_core _) (.decided fsm (.inl ⟨rfl, ?_⟩) left)
    change loop.fsm.mv _ = _
    rw [fsm]
    decide

theorem handleConnClosed_turns :
    Turns env core (.connClosed localPort) (handleConnClosed env localPort) := by
  refine Spec.bind (modify_core (fun core => core.withConnections
    (core.connections.eraseP fun conn => conn.localPort == localPort))) fun _ => ?_
  refine readState_core fun loop same => ?_
  have connections : loop.connections =
      core.connections.eraseP fun conn => conn.localPort == localPort :=
    congrArg Core.connections same
  rw [connections]
  split_ifs with last
  · rw [List.isEmpty_iff] at last
    rw [last]
    have releases : Spec (At (core.withConnections [])) (release env false)
        (fun _ loop => loop.core = (core.withConnections []).released)
        (fun _ loop => core.Step env (.connClosed localPort) loop.core) :=
      (release_core false).mono (fun _ _ holds => holds.1)
        fun _ _ stuck => .stuck stuck.of_withConnections
    exact releases.unwrap.bind fun _ => ends_with (moveState_core _) (.closedLast last)
  refine Spec.pure fun loop same => ?_
  rw [same]
  exact .closed fun none => last (List.isEmpty_iff.mpr none)

theorem consumeDropSignal_turns (index : ℕ) :
    Turns env core (.dropped index) (consumeDropSignal index) := by
  refine Spec.modify ?_
  rintro loop rfl
  split_ifs
  · exact .dropped index
  · exact .quiet

theorem panic_turns : Turns env core input (lift .panic) := turns_same Keeps.lift

theorem handleHoldTimer_turns (deadline : ℕ) :
    Turns env core input (handleHoldTimer env deadline) := by
  refine turns_read fun loop _ => ?_
  by_cases due : deadline ∈ loop.holdTimer.ticker ∧ deadline ≤ loop.now
  · rw [if_pos due]
    refine turns_after modify_same fun _ => ?_
    dsimp only
    split_ifs
    · exact panic_turns
    · exact holdTimerExpire_turns
    · exact panic_turns
    · exact turns_same (modify_same fun _ => rfl)
  · rw [if_neg due]
    exact turns_same (Spec.pure fun _ same => same)

theorem handleKeepaliveTimer_turns : Turns env core input (handleKeepaliveTimer env) := by
  refine turns_read fun loop _ => ?_
  split_ifs
  · refine turns_after (modify_same ?_) fun _ => keepaliveTimerExpire_turns
    exact fun _ => rfl
  · exact turns_same (Spec.pure fun _ same => same)

theorem handle_turns (input : LoopInput) : Turns env core input (handle env input) := by
  cases input with
  | holdTimer deadline => exact handleHoldTimer_turns deadline
  | keepaliveTimer => exact handleKeepaliveTimer_turns
  | admin event =>
    cases event with
    | manualStart => exact manualStart_turns
    | manualStop => exact manualStop_turns
    | manualStartWithPassiveTcpEstablishment =>
      exact turns_moveState rfl (by cases core.fsm <;> decide)
    | _ => exact panic_turns
  | timer event =>
    cases event with
    | connectRetryTimerExpire => exact connectRetryTimerExpire_turns
    | holdTimerExpire | keepaliveTimerExpire => exact turns_same (Spec.pure fun _ same => same)
    | _ => exact panic_turns
  | connection event =>
    cases event with
    | tcpConnectionConfirmed stream =>
      exact handleTcpConnect_turns (.inr rfl) fun state => by cases state <;> decide
    | tcpConnectionFail => exact tcpConnectionFail_turns
    | _ => exact panic_turns
  | invalid event => exact turns_same (Spec.fail fun _ same => same)
  | connected stream => exact handleTcpConnect_turns (.inl rfl) fun _ => rfl
  | message event =>
    cases event with
    | bgpOpen localPort peerPort msg => exact bgpOpen_turns localPort peerPort msg
    | bgpHeaderError error => exact bgpHeaderError_turns error
    | bgpOpenMsgErr error => exact bgpOpenMsgError_turns error
    | notifMsgVerErr => exact notificationMsgVerError_turns
    | notifMsg msg => exact notificationMsg_turns msg
    | keepAliveMsg localPort peerPort => exact keepaliveMsg_turns localPort peerPort
    | updateMsg msg => exact updateMsg_turns msg
    | updateMsgErr error => exact updateMsgError_turns error
    | routeRefreshMsg | routeRefreshMsgErr => exact turns_same (Spec.pure fun _ same => same)
    | bgpOpenWithDelayOpenTimerRunning | openCollisionDump => exact panic_turns
  | rib event => exact handleRib_turns event
  | connClosed localPort => exact handleConnClosed_turns localPort
  | wait seconds => exact turns_same (modify_same fun _ => rfl)
  | dropped index => exact consumeDropSignal_turns index

theorem apply_step (env : LoopEnv) (loop : PeerLoop) (input : LoopInput) :
    loop.core.Step env input (apply env loop input).core := by
  unfold apply
  split_ifs
  · exact .quiet
  · exact (handle_turns input).final rfl

end PeerLoop

theorem Connection.openFirst_nil (passive : Bool) : openFirst passive [] = none := rfl

theorem Connection.decided_confirm_nil (preferLocalConn passive : Bool) :
    decided preferLocalConn passive (confirm passive []) = none := rfl

namespace Core

def Live (core : Core) : Prop := core.connections ≠ [] → core.initialized = false

theorem released_fsm (core : Core) : core.released.fsm = core.fsm := by
  unfold released
  split_ifs <;> rfl

variable {core : Core}

theorem released_connections (live : core.Live) : core.released.connections = [] := by
  by_cases fresh : core.initialized = true
  · rw [released_of_initialized fresh]
    by_contra tracked
    exact absurd (fresh.symm.trans (live tracked)) (by simp)
  · rw [released_of_live (Bool.not_eq_true _ ▸ fresh)]
    rfl

theorem Step.live {env : LoopEnv} {core' : Core} {input : LoopInput}
    (step : core.Step env input core') (live : core.Live) : core'.Live := by
  cases step with
  | quiet | moved | answered | updated | disseminated => exact live
  | released event down => exact fun tracked => absurd (released_connections live) tracked
  | stuck stuck =>
    rcases stuck with ⟨count, _, fresh, _, _⟩
    exact fun _ => fresh
  | connected => exact fun _ => rfl
  | accepted _ opens | unanswered _ opens =>
    refine fun _ => live fun none => ?_
    rw [none, Connection.openFirst_nil] at opens
    simp at opens
  | decided _ _ left =>
    refine fun _ => live fun none => ?_
    rw [none, Connection.decided_confirm_nil] at left
    simp at left
  | closed others => exact fun tracked => live fun none => others (by rw [none, List.eraseP_nil])
  | closedLast last =>
    exact fun tracked => absurd (released_connections fun tracked => absurd rfl tracked) tracked
  | dropped index =>
    refine fun tracked => live fun none => tracked ?_
    rw [withConnections, none, List.modify_nil]

end Core

theorem PeerLoop.Reachable.live {env : LoopEnv} {loop : PeerLoop} (reachable : loop.Reachable env) :
    loop.core.Live := by
  rcases reachable with ⟨info, localInfo, keepaliveTime, exporter, now, inputs, rfl⟩
  refine List.foldlRecOn (motive := fun loop : PeerLoop => loop.core.Live) inputs (apply env) ?_
    fun loop live input _ => ?_
  · exact fun tracked => absurd rfl tracked
  · exact (apply_step env loop input).live live

end Sart
