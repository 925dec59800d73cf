import Sart.Peer.Fsm

/-!
# The event loop of a peer

The loop takes one input at a time: the tick of a timer, an administrative event, a
new connection, a message from a connection, or an event from the RIB manager.

A handler is an effect on the loop, with what it sends in order.  A handler that fails
keeps what it did before, and the loop goes on; a panic ends it.
-/

namespace Sart

open Sart.Lib Sart.Lib.Effect

def Stream.isPassive (stream : Stream) : Bool := stream.localPort == Bgp.BGP_PORT

/-- A tracked connection.  Nothing can be sent on it once its task has ended. -/
structure Connection extends Stream where
  state : State
  alive : Bool
  deriving DecidableEq

namespace Connection

def new (stream : Stream) : Connection := { stream with state := .connect, alive := true }

def opened (conn : Connection) : Connection :=
  if conn.state = .established ∨ conn.state = .openConfirm then conn
  else { conn with state := .openSent }

def openFirst (passive : Bool) : List Connection → Option (Connection × List Connection)
  | [] => none
  | conn :: rest =>
    if conn.isPassive = passive then some (conn.opened, conn.opened :: rest)
    else (openFirst passive rest).map fun found => (found.1, conn :: found.2)

def confirm (passive : Bool) (connections : List Connection) : List Connection :=
  connections.map fun conn =>
    if conn.isPassive = passive then { conn with state := .openConfirm } else conn

def drop (preferLocalConn : Bool) (incoming colliding : Connection × ℕ) : Option ℕ :=
  match colliding.1.state with
  | .openConfirm =>
    if preferLocalConn then
      if incoming.1.isPassive then some incoming.2
      else if colliding.1.isPassive then some colliding.2
      else none
    else if !incoming.1.isPassive then some incoming.2
    else if !colliding.1.isPassive then some colliding.2
    else none
  | .established => some incoming.2
  | _ => some colliding.2

end Connection

/-- The hold timer: the times of its pending ticks, the interval it was last started with, and
when. -/
structure Timer where
  ticker : List ℕ
  interval : ℕ
  last : ℕ
  deriving DecidableEq

namespace Timer

def FAR : ℕ := 4294967295

def new (now : ℕ) : Timer := ⟨[now + FAR], 18446744073709551615, now⟩

def push (timer : Timer) (now seconds : ℕ) : Timer :=
  ⟨timer.ticker ++ [now + seconds], seconds, now⟩

def stop (timer : Timer) (now : ℕ) : Timer := { timer with interval := FAR, last := now }

end Timer

structure Interval where
  next : ℕ
  period : ℕ
  deriving DecidableEq

/-- The surroundings of a peer: the hasher and the clock, the number of events the manager takes
before it goes away, if it does, and the order in which a hash map lists its keys. -/
structure LoopEnv where
  hash : PathBuilder → UInt64
  clock : ℕ → ℕ → ℕ
  taken : Option ℕ
  order : List (List Attribute) → List (List Attribute)
  order_perm : ∀ keys, (order keys).Perm keys

def LoopEnv.Takes (env : LoopEnv) (count : ℕ) : Prop := ∀ limit ∈ env.taken, count < limit
  deriving Decidable

structure LocalInfo where
  /-- The local address of the last connection. -/
  addr : IpAddr
  otherAddrs : List IpAddr
  holdTime : ℕ
  localCapabilities : CapabilitySet

def LocalInfo.new (routerId : Ipv4Addr) (localCapabilities : CapabilitySet) : LocalInfo :=
  ⟨.v4 routerId, [], Bgp.DEFAULT_HOLD_TIME, localCapabilities⟩

structure PeerLoop extends Peer, LocalInfo where
  /-- The state that other tasks see. -/
  published : State
  fsm : State
  connections : List Connection
  keepaliveTimer : Interval
  keepaliveTime : ℕ
  holdTimer : Timer
  negotiatedHoldTime : ℕ
  connectRetryCounter : ℕ
  invalidMsgCount : ℕ
  initialized : Bool
  adjRibOut : AdjRib
  /-- The signal that ends the task of one connection is not consumed yet. -/
  dropSignal : Bool
  exporter : Bool
  exported : List State
  now : ℕ
  /-- The messages handed to the tasks of the connections. -/
  sent : List (Stream × Message)
  /-- The events sent to the manager. -/
  ribTx : List RibEvent
  ended : Bool

abbrev LoopM := Effect PeerLoop Error

namespace PeerLoop

def new (info : PeerInfo) (localInfo : LocalInfo) (keepaliveTime : ℕ) (exporter : Bool)
    (now : ℕ) : PeerLoop where
  toPeer := .new info
  toLocalInfo := localInfo
  published := .idle
  fsm := .idle
  connections := []
  keepaliveTimer := ⟨now + Timer.FAR, keepaliveTime⟩
  keepaliveTime := keepaliveTime
  holdTimer := .new now
  negotiatedHoldTime := Bgp.DEFAULT_HOLD_TIME
  connectRetryCounter := 0
  invalidMsgCount := 0
  initialized := true
  adjRibOut := .new info.families
  dropSignal := false
  exporter := exporter
  exported := []
  now := now
  sent := []
  ribTx := []
  ended := false

/-- The published state follows; the exporter is told when it changes. -/
def moveState (event : UInt8) : LoopM PUnit := Effect.modify fun loop =>
  let state := loop.fsm.mv event
  { loop with
    fsm := state
    published := state
    exported := if loop.exporter ∧ state ≠ loop.published then loop.exported ++ [state]
      else loop.exported }

def sendOn (conn : Connection) (msg : Message) : LoopM PUnit := fun loop =>
  if conn.alive then (.ok ⟨⟩, { loop with sent := loop.sent ++ [(conn.toStream, msg)] })
  else (.error (.peer .failedToSendMessage), loop)

def send (msg : Message) : LoopM PUnit := do
  let loop ← Effect.read id
  match loop.connections with
  | [conn] => sendOn conn msg
  | _ => fail (.peer .duplicateConnection)

def sendAllConn (msg : Message) : LoopM PUnit := do
  let loop ← Effect.read id
  forEach (fun conn : Connection =>
    if conn.state = .openConfirm then sendOn conn msg else pure ⟨⟩) loop.connections

def sendToDupConn (msg : Message) (passive : Bool) : LoopM PUnit := do
  let loop ← Effect.read id
  if msg.msgType = .open ∨ msg.msgType = .keepalive then
    match Connection.openFirst passive loop.connections with
    | some (conn, connections) =>
      Effect.modify fun loop => { loop with connections := connections }
      sendOn conn msg
    | none => fail (.peer .connectionNotEstablished)
  else fail (.peer .connectionNotEstablished)

def decideConnection (passive : Bool) : LoopM (Option ℕ) := do
  let loop ← Effect.read id
  let preferLocalConn := decide (loop.info.routerId > loop.info.neighbor.routerId)
  match loop.connections.zipIdx.find? fun conn => conn.1.isPassive == passive with
  | none => fail (.peer .connectionNotFound)
  | some incoming =>
    match loop.connections.zipIdx.find? fun conn => conn.1.toStream != incoming.1.toStream with
    | none => pure none
    | some colliding =>
      match Connection.drop preferLocalConn incoming colliding with
      | none => pure none
      | some index => do
          Effect.modify fun loop =>
            { loop with connections := loop.connections.eraseIdx index }
          pure (some index)

def handleConnection (stream : Stream) : LoopM Bool := do
  Effect.modify fun loop => { loop with addr := stream.localAddr }
  let loop ← Effect.read id
  if loop.connections.length ≥ 2 then fail (.peer .tooManyConnections)
  else do
    Effect.modify fun loop =>
      { loop with connections := loop.connections ++ [Connection.new stream], initialized := false }
    pure stream.isPassive

def sendRib (env : LoopEnv) (cause : Error) (event : RibEvent) : LoopM PUnit := fun loop =>
  if env.Takes loop.ribTx.length then (.ok ⟨⟩, { loop with ribTx := loop.ribTx ++ [event] })
  else (.error cause, loop)

def disconnect (waitNotification : Bool) (loop : PeerLoop) : PeerLoop :=
  { loop with
    keepaliveTime := 0
    keepaliveTimer := ⟨loop.now + Timer.FAR, Timer.FAR⟩
    holdTimer := loop.holdTimer.stop loop.now
    negotiatedHoldTime := Bgp.DEFAULT_HOLD_TIME
    now := if waitNotification then loop.now + 1 else loop.now
    connections := [] }

def clearRibs (loop : PeerLoop) : PeerLoop :=
  { loop with
    adjRibIn := loop.adjRibIn.clear
    adjRibOut := loop.adjRibOut.clear
    initialized := true }

/-- Give a session up.  Only from an established one the paths are taken back. -/
def release (env : LoopEnv) (waitNotification : Bool) : LoopM PUnit := do
  let loop ← Effect.read id
  if loop.initialized then pure ⟨⟩
  else do
    Effect.modify (disconnect waitNotification)
    if loop.fsm = .established then
      forEach (sendRib env (.control .failedToSendRecvChannel)) loop.toPeer.releaseEvents
    else pure ⟨⟩
    Effect.modify clearRibs

def countRetry : LoopM PUnit := Effect.modify fun loop =>
  { loop with connectRetryCounter := loop.connectRetryCounter + 1 }

def notification (code : NotificationCode) (subcode : Option NotificationSubCode) :
    Outcome Error Message := do
  let builder ← (MessageBuilder.builder .notification).setCode code
  match subcode with
  | some subcode => do
      let builder ← builder.setSubcode subcode
      .ok builder.build
  | none => .ok builder.build

/-- The subcode for an error number.  All handlers look it up among those of the message
header. -/
def subcodeOf (value : UInt8) : Outcome Error (Option NotificationSubCode) :=
  match NotificationSubCode.tryFromWithCode value .messageHeader with
  | some subcode => .ok subcode
  | none => .error .unrecognizedNotificationSubCode

def notify (env : LoopEnv) (code : NotificationCode) : LoopM PUnit := do
  let msg ← lift (notification code none)
  send msg
  release env true
  countRetry

def notifyError (env : LoopEnv) (code : NotificationCode) (error : UInt8) : LoopM PUnit := do
  let subcode ← lift (subcodeOf error)
  let msg ← lift (notification code subcode)
  send msg
  release env true
  countRetry

def giveUp (env : LoopEnv) : LoopM PUnit := do
  release env false
  countRetry

def negotiateHoldTime (receivedHoldTime : ℕ) : LoopM ℕ := do
  let loop ← Effect.read id
  let negotiated := if loop.holdTime > receivedHoldTime then receivedHoldTime else loop.holdTime
  if negotiated > 0 ∧ negotiated < 3 then fail (.openMessage .unacceptableHoldTime)
  else do
    Effect.modify fun loop =>
      if negotiated ≠ 0 then
        { loop with
          negotiatedHoldTime := negotiated
          holdTimer := loop.holdTimer.push loop.now negotiated
          keepaliveTime := negotiated / 3
          keepaliveTimer := ⟨loop.now, negotiated / 3⟩ }
      else
        { loop with
          holdTimer := loop.holdTimer.stop loop.now
          keepaliveTime := 0
          keepaliveTimer := ⟨loop.now, 18446744073709551615⟩ }
    pure negotiated

def buildOpenMsg (loop : PeerLoop) : Outcome Error Message := do
  let builder ← (MessageBuilder.builder .open).setAsn loop.info.asn
  let builder ← builder.setHoldTime (UInt16.ofNat loop.holdTime)
  let builder ← builder.setIdentifier loop.info.routerId
  let caps := loop.localCapabilities.entries.insertionSort fun left right => left.1 ≤ right.1
  let builder ← builder.addCapabilities (caps.map fun entry => entry.2)
  .ok builder.build

def buildKeepaliveMsg : Message := (MessageBuilder.builder .keepalive).build

def requestPaths (env : LoopEnv) (routerId : Ipv4Addr) : LoopM PUnit := do
  Effect.modify fun loop =>
    { loop with info.neighbor.routerId := routerId }
  let loop ← Effect.read id
  forEach (fun family => sendRib env (.control .failedToSendRecvChannel)
    (.init family loop.info.neighbor.pair)) loop.info.families

def manualStart : LoopM PUnit := moveState Event.AMDIN_MANUAL_START

def manualStop (env : LoopEnv) : LoopM PUnit := do
  notify env .cease
  moveState Event.ADMIN_MANUAL_STOP

def manualStartWithPassiveTcpEstablishment : LoopM PUnit :=
  moveState Event.ADMIN_MANUAL_START_WITH_PASSIVE_TCP_ESTABLISHMENT

def connectRetryTimerExpire (env : LoopEnv) : LoopM PUnit := do
  let loop ← Effect.read id
  match loop.fsm with
  | .idle | .connect | .active => pure ⟨⟩
  | _ => notify env .finiteStateMachine
  moveState Event.TIMER_CONNECT_RETRY_TIMER_EXPIRE

def holdTimerExpire (env : LoopEnv) : LoopM PUnit := do
  let loop ← Effect.read id
  match loop.fsm with
  | .openSent | .openConfirm | .established => notify env .holdTimerExpired
  | _ => giveUp env
  moveState Event.TIMER_HOLD_TIMER_EXPIRE

/-- The state moves without being published. -/
def keepaliveTimerExpire (env : LoopEnv) : LoopM PUnit := do
  let loop ← Effect.read id
  let move : LoopM PUnit := Effect.modify fun loop =>
    { loop with fsm := loop.fsm.mv Event.TIMER_KEEPALIVE_TIMER_EXPIRE }
  match loop.fsm with
  | .established =>
    if loop.keepaliveTime = 0 then pure ⟨⟩
    else do
      send buildKeepaliveMsg
      move
  | .openSent => do
      notify env .finiteStateMachine
      move
  | .openConfirm => do
      sendAllConn buildKeepaliveMsg
      move
  | _ => do
      giveUp env
      move

def handleTcpConnect (stream : Stream) (event : UInt8) : LoopM PUnit := do
  let loop ← Effect.read id
  match loop.fsm with
  | .idle => pure ⟨⟩
  | _ => do
      let passive ← handleConnection stream
      let loop ← Effect.read id
      let msg ← lift (buildOpenMsg loop)
      mapError (fun _ => .peer .failedToSendMessage) (sendToDupConn msg passive)
      Effect.modify fun loop =>
        { loop with holdTimer := loop.holdTimer.push loop.now loop.holdTime }
  moveState event

def tcpConnectionFail (env : LoopEnv) : LoopM PUnit := do
  let loop ← Effect.read id
  match loop.fsm with
  | .idle => pure ⟨⟩
  | .connect | .active | .openConfirm => release env false
  | .openSent => Effect.modify fun loop => { loop with dropSignal := true }
  | .established => giveUp env
  moveState Event.CONNECTION_TCP_CONNECTION_FAIL

def bgpOpen (env : LoopEnv) (localPort : UInt16) (msg : Message) : LoopM PUnit := do
  match msg with
  | .open _ _ holdTime routerId _ => do
      let loop ← Effect.read id
      match loop.fsm with
      | .active => do
          let msg ← lift (buildOpenMsg loop)
          send msg
          send buildKeepaliveMsg
          let _ ← negotiateHoldTime holdTime.toNat
          requestPaths env routerId
          moveState Event.MESSAGE_BGP_OPEN
      | .openSent => do
          let _ ← negotiateHoldTime holdTime.toNat
          sendToDupConn buildKeepaliveMsg (localPort == Bgp.BGP_PORT)
          requestPaths env routerId
          moveState Event.MESSAGE_BGP_OPEN
      | .openConfirm => do
          let passive := localPort == Bgp.BGP_PORT
          Effect.modify fun loop =>
            { loop with connections := Connection.confirm passive loop.connections }
          let _ ← decideConnection passive
          pure ⟨⟩
      | .established => do
          notify env .cease
          moveState Event.MESSAGE_BGP_OPEN
      | .idle | .connect => moveState Event.MESSAGE_BGP_OPEN
  | _ => fail .undesiredMessage

def bgpHeaderError (env : LoopEnv) (error : MessageHeaderError) : LoopM PUnit := do
  let loop ← Effect.read id
  match loop.fsm with
  | .active | .connect => do
      giveUp env
      moveState Event.MESSAGE_BGP_HEADER_ERROR
  | .openSent | .openConfirm => do
      notifyError env .messageHeader error.code
      moveState Event.MESSAGE_BGP_HEADER_ERROR
  | .established => do
      Effect.modify fun loop => { loop with invalidMsgCount := loop.invalidMsgCount + 1 }
      if loop.invalidMsgCount + 1 < 3 then pure ⟨⟩
      else do
        notifyError env .messageHeader error.code
        moveState Event.MESSAGE_BGP_HEADER_ERROR
  | .idle => moveState Event.MESSAGE_BGP_HEADER_ERROR

def bgpOpenMsgError (env : LoopEnv) (error : OpenMessageError) : LoopM PUnit := do
  let loop ← Effect.read id
  match loop.fsm with
  | .active | .connect => giveUp env
  | .openSent | .openConfirm => notifyError env .openMessage error.code
  | .established => notify env .finiteStateMachine
  | .idle => pure ⟨⟩
  moveState Event.MESSAGE_BGP_OPEN_MSG_ERROR

def notificationMsgVerError (env : LoopEnv) : LoopM PUnit := do
  let loop ← Effect.read id
  match loop.fsm with
  | .active | .connect | .openConfirm | .openSent => release env false
  | .established => giveUp env
  | .idle => pure ⟨⟩
  moveState Event.MESSAGE_NOTIF_MSG_ERROR

def notificationMsg (env : LoopEnv) (msg : Message) : LoopM PUnit := do
  match msg with
  | .notification _ _ _ => do
      let loop ← Effect.read id
      match loop.fsm with
      | .openSent => notify env .finiteStateMachine
      | _ => giveUp env
      moveState Event.MESSAGE_NOTIF_MSG
  | _ => fail .undesiredMessage

def heard (loop : PeerLoop) : PeerLoop :=
  { loop with holdTimer.last := loop.now }

def keepaliveMsg (env : LoopEnv) (localPort : UInt16) : LoopM PUnit := do
  let loop ← Effect.read id
  match loop.fsm with
  | .openSent => notify env .finiteStateMachine
  | .openConfirm => do
      let passive := localPort == Bgp.BGP_PORT
      Effect.modify fun loop =>
        { heard loop with
          invalidMsgCount := 0
          connections := Connection.confirm passive loop.connections }
      let _ ← decideConnection passive
      pure ⟨⟩
  | .established => Effect.modify fun loop => { heard loop with invalidMsgCount := 0 }
  | _ => giveUp env
  moveState Event.MESSAGE_KEEPALIVE_MSG

def onPeer {α : Type} (effect : PeerM α) : LoopM α := fun loop =>
  match effect loop.toPeer with
  | (outcome, peer) => (outcome, { loop with toPeer := peer })

def handleUpdateMsg (env : LoopEnv) (withdrawnRoutes : List Prefix) (attributes : List Attribute)
    (nlri : List Prefix) : LoopM PUnit := do
  let loop ← Effect.read id
  let event ← onPeer (Peer.handleUpdateMsg env.hash (env.clock loop.now) withdrawnRoutes
    attributes nlri)
  sendRib env (.invalidEvent 0) event

def updateMsg (env : LoopEnv) (msg : Message) : LoopM PUnit := do
  let loop ← Effect.read id
  match loop.fsm with
  | .openSent | .openConfirm => notify env .finiteStateMachine
  | .established =>
    match msg with
    | .update withdrawnRoutes attributes nlri => do
        Effect.modify fun loop => if loop.negotiatedHoldTime ≠ 0 then heard loop else loop
        handleUpdateMsg env withdrawnRoutes attributes nlri
    | _ => fail .undesiredMessage
  | _ => giveUp env
  moveState Event.MESSAGE_UPDATE_MSG

def updateMsgError (env : LoopEnv) (error : UpdateMessageError) : LoopM PUnit := do
  let loop ← Effect.read id
  match loop.fsm with
  | .openSent | .openConfirm => notify env .finiteStateMachine
  | .established => notifyError env .updateMessage error.code
  | _ => release env false
  moveState Event.MESSAGE_UPDATE_MSG_ERROR

def onAdjRibOut (call : AdjRib → Outcome Error PUnit × AdjRib) : LoopM PUnit := fun loop =>
  match call loop.adjRibOut with
  | (outcome, rib) => (outcome, { loop with adjRibOut := rib })

def addToGroup (groups : AList fun _ : List Attribute => List Path) (attrs : List Attribute)
    (path : Path) : AList fun _ : List Attribute => List Path :=
  groups.insert attrs ((groups.lookup attrs).getD [] ++ [path])

def withdrawal (prefixes : List IpNet) : Outcome Error Message := do
  let builder ← (MessageBuilder.builder .update).setWithdrawnRoutes prefixes
  .ok builder.build

def announcement (attrs : List Attribute) (prefixes : List IpNet) : Outcome Error Message := do
  let builder ← (MessageBuilder.builder .update).setAttributes attrs
  let builder ← builder.setNlri prefixes
  .ok builder.build

/-- Store the outgoing path of one announcement and return it with its attributes.  A path that
the neighbour originated is withdrawn from it instead. -/
def stage (path : Path) : LoopM (List (List Attribute × Path)) := do
  let loop ← Effect.read id
  if path.asSequence = [loop.info.neighbor.asn] then do
    let msg ← lift (withdrawal [path.pfx])
    send msg
    pure []
  else do
    let outgoing := path.toOutgoing (loop.info.asn == loop.info.neighbor.asn) loop.info.asn
      (loop.addr :: loop.otherAddrs)
    onAdjRibOut fun rib =>
      match rib.insert outgoing.family outgoing.pfx outgoing with
      | (.ok _, rib) => (.ok ⟨⟩, rib)
      | (.error cause, rib) => (.error (.rib cause), rib)
    let attrs ← lift
      (outgoing.attributes (loop.localCapabilities.lookup Cap.FOUR_OCTET_AS_NUMBER).isSome)
    pure [(attrs, outgoing)]

def advertise (env : LoopEnv) (paths : List Path) : LoopM PUnit := do
  let staged ← collect stage paths
  let groups := staged.foldl (fun groups entry => addToGroup groups entry.1 entry.2) ∅
  forEach (fun attrs => do
    let msg ← lift (announcement attrs (((groups.lookup attrs).getD []).map Path.pfx))
    send msg) (env.order groups.keys)

def unstage (pfx : IpNet) : LoopM PUnit := do
  let loop ← Effect.read id
  match loop.info.families.find? fun family => family.afi == pfx.afi with
  | none => fail (.rib .invalidAddressFamily)
  | some family =>
    onAdjRibOut fun rib =>
      match rib.remove family pfx with
      | (some _, rib) => (.ok ⟨⟩, rib)
      | (none, rib) => (.error (.rib .pathNotFound), rib)

def withdraw (prefixes : List IpNet) : LoopM PUnit := do
  forEach unstage prefixes
  let msg ← lift (withdrawal prefixes)
  send msg

end PeerLoop

/-- What the loop can take next: a tick, an event of one of its channels, the passing of time, or
the end of the task of a connection after the drop signal. -/
inductive LoopInput where
  | holdTimer (deadline : ℕ)
  | keepaliveTimer
  | admin (event : AdministrativeEvent)
  | timer (event : TimerEvent)
  | connection (event : TcpConnectionEvent)
  | invalid (event : UInt8)
  | connected (stream : Stream)
  | message (event : BgpMessageEvent)
  | rib (event : RibEvent)
  | connClosed (localPort : UInt16)
  | wait (seconds : ℕ)
  | dropped (index : ℕ)
  deriving DecidableEq

namespace PeerLoop

def handleAdmin (env : LoopEnv) : AdministrativeEvent → LoopM PUnit
  | .manualStart => manualStart
  | .manualStartWithPassiveTcpEstablishment => manualStartWithPassiveTcpEstablishment
  | .manualStop => manualStop env
  | _ => lift .panic

def handleTimer (env : LoopEnv) : TimerEvent → LoopM PUnit
  | .connectRetryTimerExpire => connectRetryTimerExpire env
  | .holdTimerExpire | .keepaliveTimerExpire => pure ⟨⟩
  | _ => lift .panic

def handleTcp (env : LoopEnv) : TcpConnectionEvent → LoopM PUnit
  | .tcpConnectionConfirmed stream =>
    handleTcpConnect stream Event.CONNECTION_TCP_CONNECTION_CONFIRMED
  | .tcpConnectionFail => tcpConnectionFail env
  | _ => lift .panic

def handleMessage (env : LoopEnv) : BgpMessageEvent → LoopM PUnit
  | .bgpOpen localPort _ msg => bgpOpen env localPort msg
  | .bgpHeaderError error => bgpHeaderError env error
  | .bgpOpenMsgErr error => bgpOpenMsgError env error
  | .notifMsgVerErr => notificationMsgVerError env
  | .notifMsg msg => notificationMsg env msg
  | .keepAliveMsg localPort _ => keepaliveMsg env localPort
  | .updateMsg msg => updateMsg env msg
  | .updateMsgErr error => updateMsgError env error
  | .routeRefreshMsg _ | .routeRefreshMsgErr => pure ⟨⟩
  | .bgpOpenWithDelayOpenTimerRunning | .openCollisionDump => lift .panic

/-- An event of the manager is read in every state and looked at in one. -/
def handleRib (env : LoopEnv) (event : RibEvent) : LoopM PUnit := do
  let loop ← Effect.read id
  if loop.fsm ≠ .established then pure ⟨⟩
  else match event with
    | .advertise paths => advertise env paths
    | .withdraw prefixes => withdraw prefixes
    | _ => fail (.invalidEvent 0)

def handleHoldTimer (env : LoopEnv) (deadline : ℕ) : LoopM PUnit := do
  let loop ← Effect.read id
  if deadline ∈ loop.holdTimer.ticker ∧ deadline ≤ loop.now then do
    Effect.modify fun loop =>
      { loop with holdTimer.ticker := loop.holdTimer.ticker.erase deadline }
    let elapsed := loop.now - loop.holdTimer.last
    if loop.holdTimer.interval + 20 ≥ 18446744073709551616 then lift .panic
    else if elapsed > loop.holdTimer.interval + 20 then holdTimerExpire env
    else if elapsed > loop.negotiatedHoldTime then lift .panic
    else
      Effect.modify fun loop =>
        { loop with
          holdTimer.ticker := loop.holdTimer.ticker ++
            [loop.now + (loop.negotiatedHoldTime - elapsed + 10)] }
  else pure ⟨⟩

def handleKeepaliveTimer (env : LoopEnv) : LoopM PUnit := do
  let loop ← Effect.read id
  if loop.keepaliveTimer.next ≤ loop.now then do
    Effect.modify fun loop =>
      { loop with
        keepaliveTimer.next := loop.keepaliveTimer.next + loop.keepaliveTimer.period }
    keepaliveTimerExpire env
  else pure ⟨⟩

def handleConnClosed (env : LoopEnv) (localPort : UInt16) : LoopM PUnit := do
  Effect.modify fun loop =>
    { loop with
      connections := loop.connections.eraseP fun conn => conn.localPort == localPort }
  let loop ← Effect.read id
  if loop.connections.isEmpty then do
    unwrap (release env false)
    moveState Event.CONNECTION_TCP_CONNECTION_FAIL
  else pure ⟨⟩

def consumeDropSignal (index : ℕ) : LoopM PUnit := Effect.modify fun loop =>
  if loop.dropSignal then
    { loop with
      dropSignal := false
      connections := loop.connections.modify index fun conn => { conn with alive := false } }
  else loop

def handle (env : LoopEnv) : LoopInput → LoopM PUnit
  | .holdTimer deadline => handleHoldTimer env deadline
  | .keepaliveTimer => handleKeepaliveTimer env
  | .admin event => handleAdmin env event
  | .timer event => handleTimer env event
  | .connection event => handleTcp env event
  | .invalid event => fail (.invalidEvent event)
  | .connected stream => handleTcpConnect stream Event.CONNECTION_TCP_CR_ACKED
  | .message event => handleMessage env event
  | .rib event => handleRib env event
  | .connClosed localPort => handleConnClosed env localPort
  | .wait seconds => Effect.modify fun loop => { loop with now := loop.now + seconds }
  | .dropped index => consumeDropSignal index

def ends (input : LoopInput) : Outcome Error PUnit → Bool
  | .panic => true
  | _ => input = .admin .manualStop

def apply (env : LoopEnv) (loop : PeerLoop) (input : LoopInput) : PeerLoop :=
  if loop.ended then loop
  else
    match handle env input loop with
    | (outcome, loop) => { loop with ended := ends input outcome }

def run (env : LoopEnv) (loop : PeerLoop) (inputs : List LoopInput) : PeerLoop :=
  inputs.foldl (apply env) loop

def Reachable (env : LoopEnv) (loop : PeerLoop) : Prop :=
  ∃ info localInfo keepaliveTime exporter now inputs,
    loop = run env (new info localInfo keepaliveTime exporter now) inputs

end PeerLoop

/-! ## A peer

A peer in AS 65000 whose neighbour is in AS 65001, for the runs on fixed inputs in other modules. -/

def sampleLoopEnv : LoopEnv where
  hash _ := 0
  clock _ _ := 0
  taken := none
  order := id
  order_perm _ := List.Perm.refl _

def sampleLoop : PeerLoop :=
  .new ⟨⟨65001, 0, .v4 0x0a000001⟩, 65000, 0x0a000002, [.ipv4Unicast, .ipv6Unicast]⟩
    (.new 0x0a000002 (.default 65000)) 60 false 0

def sampleActive : Stream := ⟨.v4 0x0a000002, 50000, .v4 0x0a000001, Bgp.BGP_PORT⟩

def samplePassive : Stream := ⟨.v4 0x0a000002, Bgp.BGP_PORT, .v4 0x0a000001, 50001⟩

def sampleOpen : Message := .open 4 65001 180 0x0a000001 []

def sampleEstablish : List LoopInput :=
  [.admin .manualStart, .connected sampleActive, .message (.bgpOpen 50000 Bgp.BGP_PORT sampleOpen),
    .message (.keepAliveMsg 50000 Bgp.BGP_PORT)]

end Sart
