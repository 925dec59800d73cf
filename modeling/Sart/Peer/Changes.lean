import Sart.Lib.Run
import Sart.Peer.Loop

/-!
# What a turn does to the hold timer and to the published state

`Face` is the part of the loop that belongs to the hold timer, and the copies of the
state of the machine that other tasks see.  `Face.Change` lists what the handlers do to it, and
`PeerLoop.handle_changed` shows that a turn of the loop is a row of such changes.

Two turns are apart from the list.  Time passes (`wait`), and a tick of the keepalive
timer moves the machine without the copies (`Ticked`).  What holds of the timer and what holds of
the copies is proved from the list, each in its own module.
-/

namespace Sart

open Sart.Lib Sart.Lib.Effect Relation

structure Face where
  holdTimer : Timer
  holdTime : ℕ
  negotiatedHoldTime : ℕ
  now : ℕ
  fsm : State
  published : State
  exporter : Bool
  exported : List State

namespace Face

def move (event : UInt8) (face : Face) : Face :=
  { face with
    fsm := face.fsm.mv event
    published := face.fsm.mv event
    exported := if face.exporter ∧ face.fsm.mv event ≠ face.published then
      face.exported ++ [face.fsm.mv event] else face.exported }

/-- What one handler does.  A change that moves the machine is allowed only with `moves`. -/
inductive Change (moves : Bool) (face : Face) : Face → Prop
  | moved (event : UInt8) (allowed : moves = true) : Change moves face (face.move event)
  | disconnected (waits : Bool) : Change moves face { face with
      holdTimer := face.holdTimer.stop face.now
      negotiatedHoldTime := Bgp.DEFAULT_HOLD_TIME
      now := if waits then face.now + 1 else face.now }
  | negotiated (time : ℕ) (least : time ≤ face.holdTime) : Change moves face { face with
      holdTimer := face.holdTimer.push face.now time
      negotiatedHoldTime := time }
  | unlimited : Change moves face { face with holdTimer := face.holdTimer.stop face.now }
  | connected : Change moves face { face with
      holdTimer := face.holdTimer.push face.now face.holdTime }
  | heard : Change moves face { face with holdTimer.last := face.now }
  | ticked (deadline : ℕ) : Change moves face { face with
      holdTimer.ticker := face.holdTimer.ticker.erase deadline }
  | slept (seconds : ℕ) : Change moves face { face with
      holdTimer.ticker := face.holdTimer.ticker ++ [face.now + (seconds + 10)] }

/-- A property that no change ends holds after any number of them. -/
theorem invariant {moves : Bool} {face next : Face} (kept : Face → Prop)
    (step : ∀ face next, Change moves face next → kept face → kept next)
    (changes : ReflTransGen (Change moves) face next) (initial : kept face) : kept next := by
  induction changes with
  | refl => exact initial
  | tail _ change ih => exact step _ _ change ih

theorem fsm_eq_of_quiet {face next : Face} (changes : ReflTransGen (Change false) face next) :
    next.fsm = face.fsm := by
  refine invariant (fun later => later.fsm = face.fsm) (fun before after change same =>
    ?_) changes rfl
  cases change with
  | moved event allowed => cases allowed
  | _ => exact same

end Face

namespace PeerLoop

def face (loop : PeerLoop) : Face where
  holdTimer := loop.holdTimer
  holdTime := loop.holdTime
  negotiatedHoldTime := loop.negotiatedHoldTime
  now := loop.now
  fsm := loop.fsm
  published := loop.published
  exporter := loop.exporter
  exported := loop.exported

def Changed (moves : Bool) (start : Face) (loop : PeerLoop) : Prop :=
  ReflTransGen (Face.Change moves) start loop.face

theorem Changed.then {moves : Bool} {start : Face} {loop next : PeerLoop}
    (changed : loop.Changed moves start) (change : Face.Change moves loop.face next.face) :
    next.Changed moves start :=
  ReflTransGen.tail changed change

variable {env : LoopEnv} {moves : Bool} {start : Face} (stream : Stream) (event : UInt8)
  (code : NotificationCode) (waitNotification : Bool) (localPort : UInt16) (msg : Message)
  (passive : Bool) (loop : PeerLoop)

@[grind! .]
theorem moveState_changed : Keeps (Changed true start) (moveState event) :=
  Keeps.modify fun _ changed => changed.then (.moved event rfl)

@[grind! .]
theorem sendOn_changed (conn : Connection) (msg : Message) :
    Keeps (Changed moves start) (sendOn conn msg) := by
  refine Spec.of_final fun loop changed => ?_
  unfold sendOn
  split_ifs <;> exact changed

@[grind! .]
theorem send_changed : Keeps (Changed moves start) (send msg) := by
  unfold send
  grind

@[grind! .]
theorem sendAllConn_changed : Keeps (Changed moves start) (sendAllConn msg) := by
  unfold sendAllConn
  grind

@[grind! .]
theorem sendRib_changed (cause : Error) (event : RibEvent) :
    Keeps (Changed moves start) (sendRib env cause event) := by
  refine Spec.of_final fun loop changed => ?_
  unfold sendRib
  split_ifs <;> exact changed

theorem sendToDupConn_changed : Keeps (Changed moves start) (sendToDupConn msg passive) := by
  unfold sendToDupConn
  grind [Changed, face]

@[grind! .]
theorem decideConnection_changed : Keeps (Changed moves start) (decideConnection passive) := by
  refine Keeps.readState fun loop => ?_
  split
  · exact Keeps.fail
  split
  · exact Keeps.pure
  dsimp only
  split
  · exact Keeps.pure
  · exact Keeps.bind (Keeps.modify fun _ changed => changed) fun _ => Keeps.pure

theorem requestPaths_changed (routerId : Ipv4Addr) :
    Keeps (Changed moves start) (requestPaths env routerId) := by
  unfold requestPaths
  grind [Changed, face]

theorem handleConnection_changed : Keeps (Changed moves start) (handleConnection stream) := by
  unfold handleConnection
  grind [Changed, face]

@[grind! .]
theorem disconnect_changed (changed : loop.Changed moves start) :
    (disconnect waitNotification loop).Changed moves start :=
  changed.then (.disconnected waitNotification)

theorem countRetry_changed : Keeps (Changed moves start) countRetry :=
  Keeps.modify fun _ changed => changed

@[grind! .]
theorem clearRibs_changed (changed : loop.Changed moves start) :
    (clearRibs loop).Changed moves start := changed

@[grind! .]
theorem release_changed : Keeps (Changed moves start) (release env waitNotification) := by
  unfold release
  grind

@[grind! .]
theorem giveUp_changed : Keeps (Changed moves start) (giveUp env) := by
  unfold giveUp
  grind [countRetry_changed]

@[grind! .]
theorem notify_changed : Keeps (Changed moves start) (notify env code) := by
  unfold notify
  grind [countRetry_changed]

@[grind! .]
theorem notifyError_changed (error : UInt8) :
    Keeps (Changed moves start) (notifyError env code error) := by
  unfold notifyError
  grind [countRetry_changed]

theorem manualStop_changed : Keeps (Changed true start) (manualStop env) := by
  unfold manualStop
  grind

theorem connectRetryTimerExpire_changed :
    Keeps (Changed true start) (connectRetryTimerExpire env) := by
  unfold connectRetryTimerExpire
  grind

@[grind! .]
theorem holdTimerExpire_changed : Keeps (Changed true start) (holdTimerExpire env) := by
  unfold holdTimerExpire
  grind

/-- A tick of the keepalive timer changes the state of the machine behind the copies, if at all. -/
def Ticked (start : Face) (loop : PeerLoop) : Prop :=
  ∃ face, ReflTransGen (Face.Change false) start face ∧ (loop.face = face ∨
    loop.face = { face with fsm := face.fsm.mv Event.TIMER_KEEPALIVE_TIMER_EXPIRE })

theorem Changed.ticked {loop : PeerLoop} (changed : loop.Changed false start) : loop.Ticked start :=
  ⟨loop.face, changed, .inl rfl⟩

theorem keepaliveTimerExpire_ticked : Spec (Changed false start) (keepaliveTimerExpire env)
    (fun _ => Ticked start) fun _ => Ticked start := by
  refine Spec.readState fun loop changed => ?_
  have moves {part : LoopM PUnit} (keeps : Keeps (Changed false start) part) :
      Spec (fun current => current = loop) (part >>= fun _ => Effect.modify fun loop =>
          { loop with fsm := loop.fsm.mv Event.TIMER_KEEPALIVE_TIMER_EXPIRE })
        (fun _ => Ticked start) fun _ => Ticked start := by
    refine Spec.bind (keeps.weaken (fun _ same => same ▸ changed) (fun _ _ => id) ?_) fun _ => ?_
    · exact fun _ _ changed => changed.ticked
    · exact Spec.modify fun later changed => ⟨later.face, changed, .inr rfl⟩
  dsimp only
  split
  · split_ifs
    · exact Spec.pure fun _ same => same ▸ changed.ticked
    · exact moves (send_changed _)
  · exact moves (notify_changed _)
  · exact moves (sendAllConn_changed _)
  · exact moves giveUp_changed

theorem tcpConnectionFail_changed : Keeps (Changed true start) (tcpConnectionFail env) := by
  unfold tcpConnectionFail
  grind [Changed, face]

theorem negotiateHoldTime_changed (receivedHoldTime : ℕ) :
    Keeps (Changed moves start) (negotiateHoldTime receivedHoldTime) := by
  refine Spec.readState fun loop changed => ?_
  have least : (if loop.holdTime > receivedHoldTime then receivedHoldTime else loop.holdTime) ≤
      loop.holdTime := by
    split_ifs <;> omega
  generalize (if loop.holdTime > receivedHoldTime then receivedHoldTime else loop.holdTime) =
    negotiated at least ⊢
  dsimp only
  split_ifs
  · exact Spec.fail fun _ same => same ▸ changed
  · refine Spec.bind (Spec.modify ?_) fun _ => Keeps.pure
    rintro _ rfl
    exact changed.then (.negotiated negotiated least)
  · refine Spec.bind (Spec.modify ?_) fun _ => Keeps.pure
    rintro _ rfl
    exact changed.then .unlimited

@[grind! .]
theorem heard_changed (changed : loop.Changed moves start) : (heard loop).Changed moves start :=
  changed.then .heard

theorem pushed_changed (changed : loop.Changed moves start) : { loop with
    holdTimer := loop.holdTimer.push loop.now loop.holdTime }.Changed moves start :=
  changed.then .connected

theorem handleTcpConnect_changed : Keeps (Changed true start) (handleTcpConnect stream event) := by
  refine Keeps.readState fun loop => ?_
  split
  · exact moveState_changed event
  refine Keeps.bind (handleConnection_changed stream) fun passive => Keeps.readState fun loop => ?_
  refine Keeps.lift.bind fun msg => Keeps.bind (sendToDupConn_changed msg passive).mapError ?_
  exact fun _ => Keeps.bind (Keeps.modify pushed_changed) fun _ => moveState_changed event

theorem bgpOpen_changed : Keeps (Changed true start) (bgpOpen env localPort msg) := by
  cases msg with
  | «open» version asn holdTime routerId capabilities =>
    refine Keeps.readState fun loop => ?_
    split
    · refine Keeps.lift.bind fun msg => Keeps.bind (send_changed msg) fun _ => ?_
      refine Keeps.bind (send_changed _) fun _ => Keeps.bind (negotiateHoldTime_changed _) fun _ =>
        ?_
      exact Keeps.bind (requestPaths_changed routerId) fun _ => moveState_changed _
    · refine Keeps.bind (negotiateHoldTime_changed _) fun _ => ?_
      refine Keeps.bind (sendToDupConn_changed _ _) fun _ => ?_
      exact Keeps.bind (requestPaths_changed routerId) fun _ => moveState_changed _
    · refine Keeps.bind (Keeps.modify fun _ changed => changed) fun _ => ?_
      exact Keeps.bind (decideConnection_changed _) fun _ => Keeps.pure
    · exact Keeps.bind (notify_changed _) fun _ => moveState_changed _
    all_goals exact moveState_changed _
  | _ => exact Keeps.fail

theorem keepaliveMsg_changed : Keeps (Changed true start) (keepaliveMsg env localPort) := by
  have counted : ∀ (loop : PeerLoop) connections, loop.Changed true start → { heard loop with
      connections := connections, invalidMsgCount := 0 }.Changed true start :=
    fun loop _ changed => heard_changed loop changed
  unfold keepaliveMsg
  grind

@[grind! .]
theorem onPeer_changed {α : Type} (effect : PeerM α) :
    Keeps (Changed moves start) (onPeer effect) :=
  Spec.of_final fun _ changed => changed

theorem updateMsg_changed : Keeps (Changed true start) (updateMsg env msg) := by
  have update : ∀ withdrawn attributes nlri,
      Keeps (Changed true start) (handleUpdateMsg env withdrawn attributes nlri) := by
    unfold handleUpdateMsg
    grind
  unfold updateMsg
  grind

theorem handleMessage_changed (event : BgpMessageEvent) :
    Keeps (Changed true start) (handleMessage env event) := by
  unfold handleMessage
  cases event with
  | bgpOpen localPort peerPort msg => exact bgpOpen_changed localPort msg
  | keepAliveMsg localPort peerPort => exact keepaliveMsg_changed localPort
  | updateMsg msg => exact updateMsg_changed msg
  | routeRefreshMsg | routeRefreshMsgErr => exact Keeps.pure
  | bgpOpenWithDelayOpenTimerRunning | openCollisionDump => exact Keeps.lift
  | _ =>
    simp only [bgpHeaderError, bgpOpenMsgError, notificationMsgVerError, notificationMsg,
      updateMsgError]
    grind [Changed, face]

@[grind! .]
theorem onAdjRibOut_changed (call : AdjRib → Outcome Error PUnit × AdjRib) :
    Keeps (Changed moves start) (onAdjRibOut call) :=
  Spec.of_final fun _ changed => changed

@[grind! .]
theorem stage_changed (path : Path) : Keeps (Changed moves start) (stage path) := by
  unfold stage
  grind

@[grind! .]
theorem unstage_changed (pfx : IpNet) : Keeps (Changed moves start) (unstage pfx) := by
  unfold unstage
  grind

theorem handleRib_changed (event : RibEvent) :
    Keeps (Changed moves start) (handleRib env event) := by
  unfold handleRib advertise withdraw
  grind

theorem handleConnClosed_changed : Keeps (Changed true start) (handleConnClosed env localPort) := by
  unfold handleConnClosed
  grind [Changed, face]

theorem handleHoldTimer_changed (deadline : ℕ) :
    Keeps (Changed true start) (handleHoldTimer env deadline) := by
  have taken : ∀ loop : PeerLoop, loop.Changed true start → { loop with
      holdTimer.ticker := loop.holdTimer.ticker.erase deadline }.Changed true start :=
    fun _ changed => changed.then (.ticked deadline)
  have later : ∀ seconds (loop : PeerLoop), loop.Changed true start → { loop with
      holdTimer.ticker := loop.holdTimer.ticker ++
        [loop.now + (loop.negotiatedHoldTime - seconds + 10)] }.Changed true start :=
    fun _ _ changed => changed.then (.slept _)
  unfold handleHoldTimer
  grind

theorem consumeDropSignal_changed (index : ℕ) :
    Keeps (Changed moves start) (consumeDropSignal index) := by
  unfold consumeDropSignal
  grind [Changed, face]

theorem handleKeepaliveTimer_ticked : (handleKeepaliveTimer env loop).2.Ticked loop.face := by
  refine Spec.final (Spec.readState fun start same => ?_) (rfl : loop = loop)
  subst same
  split_ifs with due
  · refine Spec.bind (Spec.modify ?_) fun _ => keepaliveTimerExpire_ticked
    rintro _ rfl
    exact ReflTransGen.refl
  · exact Spec.pure fun _ same => same ▸ Changed.ticked ReflTransGen.refl

/-- A turn makes changes of the list only, unless time passes or it is for the keepalive timer. -/
theorem handle_changed (input : LoopInput) (running : ∀ seconds, input ≠ .wait seconds)
    (other : input ≠ .keepaliveTimer) :
    (handle env input loop).2.Changed true loop.face := by
  have here : loop.Changed true loop.face := ReflTransGen.refl
  cases input with
  | holdTimer deadline => exact (handleHoldTimer_changed deadline).final here
  | keepaliveTimer => exact absurd rfl other
  | admin event =>
    cases event with
    | manualStart | manualStartWithPassiveTcpEstablishment =>
      exact (moveState_changed _).final here
    | manualStop => exact manualStop_changed.final here
    | _ => exact here
  | timer event =>
    cases event with
    | connectRetryTimerExpire => exact connectRetryTimerExpire_changed.final here
    | _ => exact here
  | connection event =>
    cases event with
    | tcpConnectionConfirmed stream => exact (handleTcpConnect_changed stream _).final here
    | tcpConnectionFail => exact tcpConnectionFail_changed.final here
    | _ => exact here
  | invalid event => exact here
  | connected stream => exact (handleTcpConnect_changed stream _).final here
  | message event => exact (handleMessage_changed event).final here
  | rib event => exact (handleRib_changed event).final here
  | connClosed localPort => exact (handleConnClosed_changed localPort).final here
  | wait seconds => exact absurd rfl (running seconds)
  | dropped index => exact (consumeDropSignal_changed index).final here

def Fresh (loop : PeerLoop) : Prop :=
  ∃ info routerId capabilities keepaliveTime exporter now,
    loop = new info (.new routerId capabilities) keepaliveTime exporter now

end PeerLoop

end Sart
