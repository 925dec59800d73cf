import Sart.Peer.Session

/-!
# The state machine of a session

The table that moves a session between the six states of the protocol.  An
event is known to the table by its number only.
-/

namespace Sart

inductive AdministrativeEvent where
  | manualStart
  | manualStop
  | automaticStart
  | manualStartWithPassiveTcpEstablishment
  | automaticStartWithPassiveTcpEstablishment
  | automaticStartWithDampPeerOscillations
  | automaticStartWithDampPeerOscillationsAndPassiveTcpEstablishment
  | automaticStop
  deriving DecidableEq

inductive TimerEvent where
  | connectRetryTimerExpire
  | holdTimerExpire
  | keepaliveTimerExpire
  | delayOpenTimerExpire
  | idleHoldTimerExpire
  deriving DecidableEq

structure Stream where
  localAddr : IpAddr
  localPort : UInt16
  peerAddr : IpAddr
  peerPort : UInt16
  deriving DecidableEq

inductive TcpConnectionEvent where
  | tcpConnectionValid
  | tcpCRInvalid
  | tcpCRAcked
  | tcpConnectionConfirmed (stream : Stream)
  | tcpConnectionFail
  deriving DecidableEq

/-- What the task of a connection reads.  Only OPEN and KEEPALIVE tell where they come from. -/
inductive BgpMessageEvent where
  | bgpOpen (localPort peerPort : UInt16) (msg : Message)
  | bgpOpenWithDelayOpenTimerRunning
  | bgpHeaderError (error : MessageHeaderError)
  | bgpOpenMsgErr (error : OpenMessageError)
  | openCollisionDump
  | notifMsgVerErr
  | notifMsg (msg : Message)
  | keepAliveMsg (localPort peerPort : UInt16)
  | updateMsg (msg : Message)
  | updateMsgErr (error : UpdateMessageError)
  | routeRefreshMsg (msg : Message)
  | routeRefreshMsgErr
  deriving DecidableEq

namespace Event

abbrev AMDIN_MANUAL_START : UInt8 := 1
abbrev ADMIN_MANUAL_STOP : UInt8 := 2
abbrev ADMIN_AUTOMATIC_START : UInt8 := 3
abbrev ADMIN_MANUAL_START_WITH_PASSIVE_TCP_ESTABLISHMENT : UInt8 := 4
abbrev ADMIN_AUTOMATIC_START_WITH_PASSIVE_TCP_ESTABLISHMENT : UInt8 := 5
abbrev ADMIN_AUTOMATIC_START_WITH_DAMP_PEER_OSCILLATIONS : UInt8 := 6
abbrev ADMIN_AUTOMATIC_START_WITH_DAMP_PEER_OSCILLATIONS_AND_PASSIVE_TCP_ESTABLISHMENT :
    UInt8 := 7
abbrev TIMER_CONNECT_RETRY_TIMER_EXPIRE : UInt8 := 9
abbrev TIMER_HOLD_TIMER_EXPIRE : UInt8 := 10
abbrev TIMER_KEEPALIVE_TIMER_EXPIRE : UInt8 := 11
abbrev TIMER_DELAY_OPEN_TIMER_EXPIRE : UInt8 := 12
abbrev CONNECTION_TCP_CR_ACKED : UInt8 := 16
abbrev CONNECTION_TCP_CONNECTION_CONFIRMED : UInt8 := 17
abbrev CONNECTION_TCP_CONNECTION_FAIL : UInt8 := 18
abbrev MESSAGE_BGP_OPEN : UInt8 := 19
abbrev MESSAGE_BGP_HEADER_ERROR : UInt8 := 21
abbrev MESSAGE_BGP_OPEN_MSG_ERROR : UInt8 := 22
abbrev MESSAGE_NOTIF_MSG_ERROR : UInt8 := 24
abbrev MESSAGE_NOTIF_MSG : UInt8 := 25
abbrev MESSAGE_KEEPALIVE_MSG : UInt8 := 26
abbrev MESSAGE_UPDATE_MSG : UInt8 := 27
abbrev MESSAGE_UPDATE_MSG_ERROR : UInt8 := 28

end Event

inductive State where
  | idle
  | connect
  | active
  | openSent
  | openConfirm
  | established
  deriving DecidableEq

namespace State

open Event

def mv (current : State) (event : UInt8) : State :=
  match current with
  | .idle =>
    if event ∈ [AMDIN_MANUAL_START, ADMIN_AUTOMATIC_START] then .connect
    else if event ∈ [ADMIN_AUTOMATIC_START_WITH_PASSIVE_TCP_ESTABLISHMENT,
        ADMIN_AUTOMATIC_START_WITH_DAMP_PEER_OSCILLATIONS,
        ADMIN_AUTOMATIC_START_WITH_DAMP_PEER_OSCILLATIONS_AND_PASSIVE_TCP_ESTABLISHMENT,
        ADMIN_MANUAL_START_WITH_PASSIVE_TCP_ESTABLISHMENT] then .active
    else .idle
  | .connect =>
    if event ∈ [TIMER_DELAY_OPEN_TIMER_EXPIRE, CONNECTION_TCP_CR_ACKED,
        CONNECTION_TCP_CONNECTION_CONFIRMED] then .openSent
    else if event = CONNECTION_TCP_CONNECTION_FAIL then .active
    else if event ∈ [1, 3, 4, 5, 6, 7, 9, 14, 15] then .connect
    else .idle
  | .active =>
    if event = TIMER_CONNECT_RETRY_TIMER_EXPIRE then .connect
    else if event ∈ [TIMER_DELAY_OPEN_TIMER_EXPIRE, CONNECTION_TCP_CR_ACKED,
        CONNECTION_TCP_CONNECTION_CONFIRMED] then .openSent
    else if event = MESSAGE_BGP_OPEN then .openConfirm
    else if event ∈ [1, 3, 4, 5, 6, 7, 14, 15] then .active
    else .idle
  | .openSent =>
    if event = CONNECTION_TCP_CONNECTION_FAIL then .active
    else if event = MESSAGE_BGP_OPEN then .openConfirm
    else if event ∈ [1, 3, 4, 5, 6, 7, 14, 15, 16, 17] then .openSent
    else .idle
  | .openConfirm =>
    if event = MESSAGE_BGP_OPEN then .idle
    else if event = MESSAGE_KEEPALIVE_MSG then .established
    else if event ∈ [1, 3, 4, 5, 6, 7, 14, 15, TIMER_KEEPALIVE_TIMER_EXPIRE] then .openConfirm
    else .idle
  | .established =>
    if event ∈ [MESSAGE_KEEPALIVE_MSG, MESSAGE_UPDATE_MSG] then .established
    else if event ∈ [1, 3, 4, 5, 6, 7, 14, 15, TIMER_KEEPALIVE_TIMER_EXPIRE] then .established
    else .idle

end State

end Sart
