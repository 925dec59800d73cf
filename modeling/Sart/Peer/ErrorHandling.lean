import Sart.Packet.Encode
import Sart.Peer.Machine

/-!
# Errors that end a session

The handlers send first and release later, and each of the steps before the
release can fail.  The number of the error is looked up among those of the message
header; the NOTIFICATION is sent only with one tracked connection whose task takes
it; and the manager has to take the paths back.
-/

namespace Sart

open Sart.Lib Sart.Lib.Effect

inductive SessionError where
  | openMessage (error : OpenMessageError)
  | updateMessage (error : UpdateMessageError)
  | holdTimer
  deriving DecidableEq

namespace SessionError

def Raised : SessionError → State → Prop
  | .updateMessage _, state => state = .established
  | _, state => state = .openSent ∨ state = .openConfirm ∨ state = .established

def report : SessionError → State → UInt8 × UInt8
  | .openMessage _, .established => (NotificationCode.finiteStateMachine.code, 0)
  | .openMessage error, _ => (NotificationCode.openMessage.code, error.code)
  | .updateMessage error, _ => (NotificationCode.updateMessage.code, error.code)
  | .holdTimer, _ => (NotificationCode.holdTimerExpired.code, 0)

def Listed (number : UInt8) : Prop := number = 1 ∨ number = 2 ∨ number = 3

def Reportable : SessionError → State → Prop
  | .openMessage _, .established => True
  | .openMessage error, _ => Listed error.code
  | .updateMessage error, _ => Listed error.code
  | .holdTimer, _ => True

end SessionError

namespace PeerLoop

open SessionError (Listed)

def handleError (env : LoopEnv) : SessionError → LoopM PUnit
  | .openMessage error => bgpOpenMsgError env error
  | .updateMessage error => updateMsgError env error
  | .holdTimer => holdTimerExpire env

def Notified (loop final : PeerLoop) (report : UInt8 × UInt8) : Prop :=
  ∃ conn ∈ loop.connections, ∃ code subcode,
    final.sent = loop.sent ++ [(conn.toStream, .notification code subcode [])] ∧
      (code.code, Message.encodeSubCode subcode) = report

structure Released (loop final : PeerLoop) : Prop where
  connections : final.connections = []
  adjRibIn : ∀ family pfx, final.adjRibIn.get family pfx = none
  adjRibOut : ∀ family pfx, final.adjRibOut.get family pfx = none
  initialized : final.initialized = true
  ribTx : final.ribTx =
    loop.ribTx ++ if loop.fsm = .established then loop.toPeer.releaseEvents else []

def EndsSession (env : LoopEnv) (loop : PeerLoop) (error : SessionError) : Prop :=
  ∃ final, handleError env error loop = (.ok ⟨⟩, final) ∧
    loop.Notified final (error.report loop.fsm) ∧ loop.Released final ∧ final.fsm = .idle

def Sends (loop : PeerLoop) : Prop := ∃ conn, loop.connections = [conn] ∧ conn.alive = true

def heldFamilies (loop : PeerLoop) : List AddressFamily :=
  loop.info.families.filter fun family => (loop.adjRibIn.getAll family).isSome

def TakenBack (env : LoopEnv) (loop : PeerLoop) : Prop :=
  loop.fsm = .established →
    ∀ count < loop.heldFamilies.length, env.Takes (loop.ribTx.length + count)

variable {env : LoopEnv} {start loop : PeerLoop} {error : UInt8}

theorem sendOn_spec (conn : Connection) (msg : Message) :
    Spec (fun loop => loop = start) (sendOn conn msg)
      (fun _ loop => conn.alive = true ∧
        loop = { start with sent := start.sent ++ [(conn.toStream, msg)] })
      (fun _ _ => conn.alive = false) := by
  refine Spec.of_ends ?_
  rintro loop rfl
  unfold sendOn
  split_ifs with alive
  · exact ⟨alive, rfl⟩
  · exact Bool.eq_false_iff.mpr alive

variable (msg : Message) (code : NotificationCode)

theorem send_spec :
    Spec (fun loop => loop = start) (send msg)
      (fun _ loop => start.Sends ∧ loop.core = start.core ∧
        ∃ conn ∈ start.connections, loop.sent = start.sent ++ [(conn.toStream, msg)])
      (fun _ _ => ¬start.Sends) := by
  refine Spec.readState ?_
  rintro _ rfl
  split
  · rename_i conn only
    refine (sendOn_spec conn msg).mono ?_ ?_
    · rintro _ loop ⟨alive, rfl⟩
      exact ⟨⟨conn, only, alive⟩, rfl, conn, by simp [only], rfl⟩
    rintro _ loop ended ⟨other, same, alive⟩
    rw [only, List.singleton_inj] at same
    rw [← same, ended] at alive
    simp at alive
  · rename_i several
    exact Spec.fail fun _ _ ⟨conn, only, _⟩ => several conn only

theorem sendRib_sent {property : List (Stream × Message) → Prop} (cause : Error)
    (event : RibEvent) : Keeps (fun loop => property loop.sent) (sendRib env cause event) := by
  refine Spec.of_final fun loop holds => ?_
  unfold sendRib
  split_ifs <;> exact holds

theorem release_sent (property : List (Stream × Message) → Prop) (waitNotification : Bool) :
    Keeps (fun loop => property loop.sent) (release env waitNotification) := by
  refine Keeps.readState fun start => ?_
  by_cases fresh : start.initialized = true
  · rw [if_pos fresh]
    exact Keeps.pure
  rw [if_neg fresh]
  refine Keeps.bind (Keeps.modify fun _ holds => holds) fun _ => ?_
  split_ifs
  · exact Keeps.bind (Keeps.forEach (fun event => sendRib_sent _ event) _) fun _ =>
      Keeps.modify fun _ holds => holds
  · exact Keeps.modify fun _ holds => holds

theorem sendAndRelease_spec :
    Spec (fun loop => loop = start)
      (do
        send msg
        release env true
        countRetry)
      (fun _ loop => (start.Sends ∧ start.core.Served env) ∧ loop.core = start.core.released ∧
        ∃ conn ∈ start.connections, loop.sent = start.sent ++ [(conn.toStream, msg)])
      (fun _ _ => ¬(start.Sends ∧ start.core.Served env)) := by
  refine ((send_spec msg).mono (fun _ _ holds => holds) ?_).bind fun _ => ?_
  · exact fun _ _ silent holds => silent holds.1
  refine Spec.fact_pre fun sends => ?_
  have releases : Spec (fun loop => loop.core = start.core) (release env true) _ _ :=
    release_core true
  refine ((releases.and (release_sent (fun messages => ∃ conn ∈ start.connections,
    messages = start.sent ++ [(conn.toStream, msg)]) true)).mono (fun _ _ holds => holds) ?_).bind
      fun _ => ?_
  · exact fun _ _ failure holds => failure.1.not_served holds.2
  · exact Spec.modify fun loop holds => ⟨⟨sends, holds.1.2⟩, holds.1.1, holds.2⟩

theorem notify_spec :
    Spec (fun loop => loop = start) (notify env code)
      (fun _ loop => (start.Sends ∧ start.core.Served env) ∧ loop.core = start.core.released ∧
        start.Notified loop (code.code, 0))
      (fun _ _ => ¬(start.Sends ∧ start.core.Served env)) := by
  unfold notify
  refine (sendAndRelease_spec _).implies ?_
  rintro _ loop ⟨holds, released, conn, tracked, sent⟩
  exact ⟨holds, released, conn, tracked, code, none, sent, rfl⟩

theorem subcodeOf_eq_ok (listed : Listed error) :
    ∃ subcode, subcodeOf error = .ok subcode ∧ Message.encodeSubCode subcode = error := by
  rcases listed with rfl | rfl | rfl
  · exact ⟨some .connectionNotSynchronized, rfl, rfl⟩
  · exact ⟨some .badMessageLength, rfl, rfl⟩
  · exact ⟨some .badMessageType, rfl, rfl⟩

theorem listed_of_subcodeOf {subcode : Option NotificationSubCode}
    (found : subcodeOf error = .ok subcode) : Listed error := by
  by_contra missing
  simp only [Listed, not_or] at missing
  simp [subcodeOf, NotificationSubCode.tryFromWithCode, missing] at found

theorem notifyError_spec (error : UInt8) :
    Spec (fun loop => loop = start) (notifyError env code error)
      (fun _ loop => (start.Sends ∧ Listed error ∧ start.core.Served env) ∧
        loop.core = start.core.released ∧ start.Notified loop (code.code, error))
      (fun _ _ => ¬(start.Sends ∧ Listed error ∧ start.core.Served env)) := by
  unfold notifyError
  by_cases listed : Listed error
  · rcases subcodeOf_eq_ok listed with ⟨subcode, found, octet⟩
    rw [found, lift_ok_bind, notification_eq]
    refine (sendAndRelease_spec _).mono ?_ ?_
    · rintro _ loop ⟨holds, released, conn, tracked, sent⟩
      exact ⟨⟨holds.1, listed, holds.2⟩, released, conn, tracked, code, subcode, sent,
        by rw [octet]⟩
    · exact fun _ _ failure holds => failure ⟨holds.1, holds.2.2⟩
  refine Spec.bind (Spec.lift fun _ _ => ⟨?_, ?_⟩) fun subcode => ?_
  · exact fun _ _ holds => listed holds.2.1
  · exact fun _ holds => listed holds.2.1
  · exact Spec.of_false fun _ found => listed (listed_of_subcodeOf found.1)

theorem thenIdle_spec {effect : LoopM PUnit} {fact fact' : Prop} {report : UInt8 × UInt8}
    {event : UInt8} (spec : Spec (fun loop => loop = start) effect
      (fun _ loop => fact ∧ loop.core = start.core.released ∧ start.Notified loop report)
      (fun _ _ => ¬fact)) (same : fact ↔ fact') (down : start.fsm.mv event = .idle) :
    Spec (fun loop => loop = start) (effect >>= fun _ => moveState event)
      (fun _ loop => fact' ∧ loop.core = { start.core.released with fsm := .idle } ∧
        start.Notified loop report)
      (fun _ _ => ¬fact') := by
  rw [← same]
  refine spec.bind fun _ => Spec.modify ?_
  rintro loop ⟨holds, released, notified⟩
  refine ⟨holds, ?_, notified⟩
  have moved : start.core.released.fsm.mv event = .idle := by
    rw [Core.released_fsm]
    exact down
  rw [← moved, ← released]
  rfl

theorem handleError_spec {error : SessionError} (raised : error.Raised start.fsm) :
    Spec (fun loop => loop = start) (handleError env error)
      (fun _ loop => (start.Sends ∧ error.Reportable start.fsm ∧ start.core.Served env) ∧
        loop.core = { start.core.released with fsm := .idle } ∧
        start.Notified loop (error.report start.fsm))
      (fun _ _ => ¬(start.Sends ∧ error.Reportable start.fsm ∧ start.core.Served env)) := by
  -- a handler that looks nothing up has one condition less
  have without : start.Sends ∧ start.core.Served env ↔
      start.Sends ∧ True ∧ start.core.Served env := by simp
  cases error with
  | openMessage error =>
    refine Spec.readState ?_
    rintro _ rfl
    rcases raised with fsm | fsm | fsm
    · rw [fsm]
      exact thenIdle_spec (notifyError_spec _ _) Iff.rfl (by rw [fsm]; decide)
    · rw [fsm]
      exact thenIdle_spec (notifyError_spec _ _) Iff.rfl (by rw [fsm]; decide)
    · rw [fsm]
      exact thenIdle_spec (notify_spec _) without (by rw [fsm]; decide)
  | updateMessage error =>
    have fsm : start.fsm = .established := raised
    refine Spec.readState ?_
    rintro _ rfl
    rw [fsm]
    exact thenIdle_spec (notifyError_spec _ _) Iff.rfl (by rw [fsm]; decide)
  | holdTimer =>
    refine Spec.readState ?_
    rintro _ rfl
    rcases raised with fsm | fsm | fsm
    all_goals
      rw [fsm]
      exact thenIdle_spec (notify_spec _) without (by rw [fsm]; decide)

theorem length_releaseEvents (loop : PeerLoop) :
    loop.toPeer.releaseEvents.length = loop.heldFamilies.length := by
  rw [Peer.releaseEvents, List.length_filterMap_eq_countP, heldFamilies,
    List.countP_eq_length_filter]
  simp

theorem served_iff (live : loop.initialized = false) :
    loop.core.Served env ↔ loop.TakenBack env := by
  have asked : loop.core.takeBack.length = if loop.fsm = .established then loop.heldFamilies.length
      else 0 := by
    unfold Core.takeBack
    split_ifs with up down down
    · exact length_releaseEvents loop
    · exact absurd up down
    · exact absurd down up
    · rfl
  constructor
  · intro served established count short
    refine served live count ?_
    rwa [asked, if_pos established]
  · intro taken _ count short
    rw [asked] at short
    split_ifs at short with established
    · exact taken established count short
    · exact absurd short (Nat.not_lt_zero count)

theorem released_of_core {final : PeerLoop} {state : State} (live : loop.initialized = false)
    (same : final.core = { loop.core.released with fsm := state }) :
    loop.Released final ∧ final.fsm = state := by
  rw [Core.released_of_live live] at same
  refine ⟨⟨congrArg Core.connections same, ?_, ?_, congrArg Core.initialized same,
    congrArg Core.ribTx same⟩, congrArg Core.fsm same⟩
  · have cleared : final.adjRibIn = loop.adjRibIn.clear :=
      congrArg (fun core : Core => core.peer.adjRibIn) same
    intro family pfx
    rw [cleared, AdjRib.get_clear]
  have cleared : final.adjRibOut = loop.adjRibOut.clear := congrArg Core.adjRibOut same
  intro family pfx
  rw [cleared, AdjRib.get_clear]

/-- An error ends the session exactly when the NOTIFICATION can be sent on the only connection,
the number of the error is found, and the manager takes the paths back. -/
theorem endsSession_iff {loop : PeerLoop} {error : SessionError} (reachable : loop.Reachable env)
    (raised : error.Raised loop.fsm) (tracked : loop.connections.length ∈ [1, 2]) :
    loop.EndsSession env error ↔
      loop.Sends ∧ error.Reportable loop.fsm ∧ loop.TakenBack env := by
  have live : loop.initialized = false := by
    refine reachable.live fun none => ?_
    have none : loop.connections = [] := none
    simp [none] at tracked
  have spec : Spec (fun start => start = loop) (handleError env error) _ _ :=
    handleError_spec raised
  rw [← served_iff live]
  constructor
  · rintro ⟨final, handled, _⟩
    exact (spec.returns rfl handled).1
  · intro holds
    rcases handled : handleError env error loop with ⟨_ | cause | _, final⟩
    · rcases spec.returns rfl handled with ⟨_, same, notified⟩
      exact ⟨final, handled, notified, released_of_core live same⟩
    · exact absurd holds (spec.fails rfl handled)
    · exact absurd holds (spec.panics rfl handled)

def sampleOpenSent : PeerLoop :=
  run sampleLoopEnv sampleLoop [.admin .manualStart, .connected sampleActive]

theorem sampleOpenSent_reachable : sampleOpenSent.Reachable sampleLoopEnv :=
  ⟨_, _, _, _, _, _, rfl⟩

theorem endsSession_of_badPeerAS :
    sampleOpenSent.fsm = .openSent ∧ sampleOpenSent.connections.length = 1 ∧
      sampleOpenSent.EndsSession sampleLoopEnv (.openMessage .badPeerAS) := by
  have sent : sampleOpenSent.fsm = .openSent := by decide
  have raised : (SessionError.openMessage .badPeerAS).Raised sampleOpenSent.fsm := Or.inl sent
  refine ⟨sent, by decide, (endsSession_iff sampleOpenSent_reachable raised (by decide)).mpr ?_⟩
  refine ⟨⟨{ sampleActive with state := .openSent, alive := true }, by decide, rfl⟩, ?_, ?_⟩
  · rw [sent]
    exact .inr (.inl rfl)
  intro established
  rw [sent] at established
  simp at established

/-- An OPEN with an unsupported parameter is not reported, and the session stays up. -/
theorem not_endsSession_of_unsupportedOptionalParameter :
    sampleOpenSent.Reachable sampleLoopEnv ∧ sampleOpenSent.fsm = .openSent ∧
      sampleOpenSent.connections.length = 1 ∧
      ¬sampleOpenSent.EndsSession sampleLoopEnv (.openMessage .unsupportedOptionalParameter) := by
  refine ⟨sampleOpenSent_reachable, by decide, by decide, ?_⟩
  rintro ⟨final, handled, _⟩
  have failed : (handleError sampleLoopEnv (.openMessage .unsupportedOptionalParameter)
      sampleOpenSent).1 = .error .unrecognizedNotificationSubCode := by rfl
  rw [handled] at failed
  simp at failed

end PeerLoop

end Sart
