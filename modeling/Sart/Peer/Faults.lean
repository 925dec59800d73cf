import Sart.Peer.Admission

/-!
# Failing and ended connections

The reports of the tasks do not name the connection.  So a failure on one of two connections is
handled for both.  And the task of a connection does not tell the loop that its stream has ended,
so a session stays up when the neighbour closes its last connection.
-/

namespace Sart

open Sart.Lib Sart.Lib.Effect

def BgpMessageEvent.IsFailure : BgpMessageEvent → Prop
  | .notifMsg (.notification _ _ _) => True
  | .bgpHeaderError _ | .bgpOpenMsgErr _ | .updateMsgErr _ => True
  | _ => False

/-- The states in which a failure on one of two connections is not handled. -/
def BgpMessageEvent.Spares (state : State) : BgpMessageEvent → Prop
  | .notifMsg _ => state = .openSent
  | .bgpHeaderError _ | .bgpOpenMsgErr _ => state ≠ .active ∧ state ≠ .connect
  | _ => state = .openSent ∨ state = .openConfirm ∨ state = .established

namespace PeerLoop

structure Isolates (loop final : PeerLoop) : Prop where
  connection : ∀ arrived other, loop.connections.Perm [arrived, other] → other ∈ final.connections
  session : final.fsm = loop.fsm ∧ final.adjRibIn = loop.adjRibIn ∧ final.adjRibOut = loop.adjRibOut

variable {env : LoopEnv} {core : Core} {event : BgpMessageEvent} {loop : PeerLoop} {number : UInt8}
  {α β : Type} {effect : LoopM α} {next : α → LoopM β}

abbrev Spared (core : Core) (effect : LoopM α) : Prop :=
  Spec (fun loop => loop.core = core) effect (fun _ loop => loop.core = core)
    (fun _ loop => loop.core = core)

abbrev Refused (core : Core) (effect : LoopM α) : Prop :=
  Spec (fun loop => loop.core = core) effect (fun _ _ => False) (fun _ loop => loop.core = core)

abbrev Forgets (core : Core) (effect : LoopM α) : Prop :=
  Spec (fun loop => loop.core = core) effect (fun _ loop => loop.connections = [])
    (fun _ loop => loop.connections = [])

theorem spared_of_refused (refused : Refused core effect) : Spared core (effect >>= next) :=
  refused.bind fun _ => Spec.of_false fun _ never => never

theorem moveState_spared (stays : core.fsm.mv number = core.fsm) : Spared core (moveState number) :=
  (moveState_core number).implies fun _ _ same => same.trans (Core.move_of_mv_eq stays)

section Two

variable (two : core.connections.length = 2)

include two

theorem send_refused (msg : Message) : Refused core (send msg) := by
  refine (send_core msg).implies ?_
  rintro _ _ ⟨-, conn, only⟩
  simp [only] at two

theorem notify_refused (code : NotificationCode) : Refused core (notify env code) := by
  unfold notify
  exact (send_refused two _).bind fun _ => Spec.of_false fun _ never => never

theorem notifyError_refused (code : NotificationCode) (error : UInt8) :
    Refused core (notifyError env code error) := by
  refine (Spec.lift ?_).bind fun subcode => Spec.fact_pre fun _ => ?_
  · exact fun _ same => ⟨fun _ _ => same, fun _ => same⟩
  · rw [notification_eq]
    exact (send_refused two _).bind fun _ => Spec.of_false fun _ never => never

theorem bgpHeaderError_spared (error : MessageHeaderError)
    (spares : core.fsm ≠ .active ∧ core.fsm ≠ .connect) :
    Spared core (bgpHeaderError env error) := by
  refine readState_core ?_
  rintro start rfl
  cases state : start.fsm with
  | active => exact absurd state spares.1
  | connect => exact absurd state spares.2
  | openSent | openConfirm => exact spared_of_refused (notifyError_refused two _ _)
  | established =>
    refine (modify_same ?_).bind fun _ => ?_
    · exact fun _ => rfl
    split_ifs
    · exact Spec.pure fun _ same => same
    · exact spared_of_refused (notifyError_refused two _ _)
  | idle => exact moveState_spared (by rw [show start.core.fsm = _ from state]; rfl)

theorem bgpOpenMsgError_spared (error : OpenMessageError)
    (spares : core.fsm ≠ .active ∧ core.fsm ≠ .connect) :
    Spared core (bgpOpenMsgError env error) := by
  refine readState_core ?_
  rintro start rfl
  cases state : start.fsm with
  | active => exact absurd state spares.1
  | connect => exact absurd state spares.2
  | openSent | openConfirm => exact spared_of_refused (notifyError_refused two _ _)
  | established => exact spared_of_refused (notify_refused two _)
  | idle => exact moveState_spared (by rw [show start.core.fsm = _ from state]; rfl)

theorem updateMsgError_spared (error : UpdateMessageError)
    (spares : core.fsm = .openSent ∨ core.fsm = .openConfirm ∨ core.fsm = .established) :
    Spared core (updateMsgError env error) := by
  refine readState_core ?_
  rintro start rfl
  rcases spares with state | state | state <;> rw [show start.fsm = _ from state]
  · exact spared_of_refused (notify_refused two _)
  · exact spared_of_refused (notify_refused two _)
  · exact spared_of_refused (notifyError_refused two _ _)

theorem handleMessage_spared (failure : event.IsFailure) (spares : event.Spares core.fsm) :
    Spared core (handleMessage env event) := by
  cases event with
  | bgpHeaderError error => exact bgpHeaderError_spared two error spares
  | bgpOpenMsgErr error => exact bgpOpenMsgError_spared two error spares
  | updateMsgErr error => exact updateMsgError_spared two error spares
  | notifMsg msg =>
    cases msg with
    | notification =>
      refine readState_core ?_
      rintro start rfl
      rw [show start.fsm = _ from spares]
      exact spared_of_refused (notify_refused two _)
    | _ => exact absurd failure id
  | _ => exact absurd failure id

end Two

theorem forgets_then_move (forgets : Forgets core effect) :
    Forgets core (effect >>= fun _ => moveState number) :=
  forgets.bind fun _ => Spec.modify fun _ none => none

section Live

variable (live : core.Live)

include live

theorem release_forgets (waitNotification : Bool) :
    Forgets core (release env waitNotification) := by
  refine (release_core waitNotification).mono ?_ ?_
  · rintro _ loop ⟨same, -⟩
    have none := Core.released_connections live
    rwa [← same] at none
  rintro _ loop stuck
  generalize same : loop.core = final at stuck
  cases stuck
  exact congrArg Core.connections same

theorem giveUp_forgets : Forgets core (giveUp env) :=
  (release_forgets live false).bind fun _ => Spec.modify fun _ none => none

theorem handleMessage_forgets (failure : event.IsFailure) (strikes : ¬event.Spares core.fsm) :
    Forgets core (handleMessage env event) := by
  cases event with
  | bgpHeaderError error | bgpOpenMsgErr error =>
    refine readState_core ?_
    rintro start rfl
    cases state : start.fsm with
    | active | connect => exact forgets_then_move (giveUp_forgets live)
    | _ => exact absurd ⟨by simp [core, state], by simp [core, state]⟩ strikes
  | updateMsgErr error =>
    refine readState_core ?_
    rintro start rfl
    cases state : start.fsm with
    | idle | active | connect => exact forgets_then_move (release_forgets live false)
    | _ => exact absurd (by simp [BgpMessageEvent.Spares, PeerLoop.core, state]) strikes
  | notifMsg msg =>
    cases msg with
    | notification =>
      refine readState_core ?_
      rintro start rfl
      cases state : start.fsm with
      | openSent => exact absurd state strikes
      | _ => exact forgets_then_move (giveUp_forgets live)
    | _ => exact absurd failure id
  | _ => exact absurd failure id

end Live

/-- With two connections a failure on one of them leaves the other alone exactly in the states in
which the loop does not handle it. -/
theorem isolates_iff_spares (reachable : loop.Reachable env) (two : loop.connections.length = 2)
    (failure : event.IsFailure) :
    Isolates loop (handle env (.message event) loop).2 ↔ event.Spares loop.fsm := by
  constructor
  · intro isolates
    by_contra strikes
    have none : (handle env (.message event) loop).2.connections = [] :=
      (handleMessage_forgets reachable.live failure strikes).final rfl
    rcases List.length_eq_two.mp two with ⟨arrived, other, tracked⟩
    have kept := isolates.connection arrived other (tracked ▸ .refl _)
    rw [none] at kept
    cases kept
  · intro spares
    have same : (handle env (.message event) loop).2.core = loop.core :=
      (handleMessage_spared two failure spares).final rfl
    refine ⟨fun arrived other tracked => ?_, congrArg Core.fsm same,
      congrArg (fun core => core.peer.adjRibIn) same, congrArg Core.adjRibOut same⟩
    have kept : (handle env (.message event) loop).2.connections = loop.connections :=
      congrArg Core.connections same
    rw [kept, tracked.mem_iff]
    simp

def sampleCollision : List LoopInput :=
  [.admin .manualStart, .connected sampleActive, .connected samplePassive]

def sampleCease : BgpMessageEvent := .notifMsg (.notification .cease none [])

theorem isolates_of_openSent : (run sampleLoopEnv sampleLoop sampleCollision).Isolates
      (handle sampleLoopEnv (.message sampleCease)
        (run sampleLoopEnv sampleLoop sampleCollision)).2 := by
  have failure : sampleCease.IsFailure := trivial
  exact (isolates_iff_spares ⟨_, _, _, _, _, sampleCollision, rfl⟩ rfl failure).mpr rfl

theorem not_isolates_of_openConfirm :
    ∃ loop : PeerLoop, loop.Reachable sampleLoopEnv ∧ loop.connections.length = 2 ∧
      sampleCease.IsFailure ∧
      ¬loop.Isolates (handle sampleLoopEnv (.message sampleCease) loop).2 := by
  refine ⟨run sampleLoopEnv sampleLoop (sampleCollision ++
    [.message (.bgpOpen 50000 Bgp.BGP_PORT sampleOpen)]), ⟨_, _, _, _, _, _, rfl⟩,
      by decide +kernel,
    trivial, fun isolates => ?_⟩
  have kept := isolates.connection _ _ (.refl _)
  exact absurd kept (by decide +kernel)

end PeerLoop

def Message.event (stream : Stream) (msg : Message) : BgpMessageEvent :=
  match msg.msgType with
  | .open => .bgpOpen stream.localPort stream.peerPort msg
  | .update => .updateMsg msg
  | .keepalive => .keepAliveMsg stream.localPort stream.peerPort
  | .notification => .notifMsg msg
  | .routeRefresh => .routeRefreshMsg msg

def Error.event : Error → Option BgpMessageEvent
  | .messageHeader error => some (.bgpHeaderError error)
  | .openMessage error => some (.bgpOpenMsgErr error)
  | .updateMessage error => some (.updateMsgErr error)
  | _ => none

/-- The task of a connection that no signal ends.  The framed stream still yields `incoming`:
`none` while there is nothing to read, else messages, an error or a panic of the decoder.  Behind
that it yields the end of the stream, for ever. -/
structure ConnTask where
  stream : Stream
  incoming : List (Option (Outcome Error (List Message)))
  queued : List Message
  sent : List Message

namespace ConnTask

/-- One round of the loop.  Reading comes first, and so does the end of the stream, on which the
task only prints a warning. -/
def round (task : ConnTask) : Option ConnTask :=
  match task.incoming with
  | [] => some task
  | none :: rest => some
      { task with
        incoming := rest
        queued := task.queued.tail
        sent := task.sent ++ task.queued.head?.toList }
  | some (.ok _) :: rest | some (.error _) :: rest => some { task with incoming := rest }
  | some .panic :: _ => none

/-- What the round sends to the loop of the peer. -/
def emits (task : ConnTask) : List BgpMessageEvent :=
  match task.incoming with
  | some (.ok messages) :: _ => messages.map (Message.event task.stream)
  | some (.error cause) :: _ => cause.event.toList
  | _ => []

def rounds : ℕ → ConnTask → Option ConnTask
  | 0, task => some task
  | count + 1, task => task.round.bind (rounds count)

/-- The task behind the round.  A task that panics reads nothing any more. -/
def next (task : ConnTask) : ConnTask := task.round.getD { task with incoming := [] }

variable {task after : ConnTask}

theorem stream_next (task : ConnTask) : task.next.stream = task.stream := by
  unfold next round
  split <;> rfl

theorem rounds_of_finished (finished : task.incoming = []) (count : ℕ) :
    task.rounds count = some task := by
  induction count with
  | zero => rfl
  | succ count ih => simp [rounds, round, finished, ih]

theorem ends_of_round (ran : task.round = some after) :
    (∃ count, task.rounds count = none) ↔ ∃ count, after.rounds count = none := by
  constructor
  · rintro ⟨_ | count, ends⟩
    · cases ends
    · rw [rounds, ran] at ends
      exact ⟨count, ends⟩
  · rintro ⟨count, ends⟩
    exact ⟨count + 1, by rw [rounds, ran]; exact ends⟩

/-- The end of the stream does not end the task. -/
theorem ends_iff_panics (task : ConnTask) :
    (∃ count, task.rounds count = none) ↔ some .panic ∈ task.incoming := by
  induction left : task.incoming generalizing task with
  | nil => simp [rounds_of_finished left]
  | cons arrival rest ih =>
    rcases arrival with _ | (messages | cause | _)
    · rw [ends_of_round (by simp only [round, left]; rfl), ih _ rfl]
      simp
    · rw [ends_of_round (by simp only [round, left]; rfl), ih _ rfl]
      simp
    · rw [ends_of_round (by simp only [round, left]; rfl), ih _ rfl]
      simp
    · refine iff_of_true ⟨1, ?_⟩ (by simp)
      simp [rounds, round, left]

end ConnTask

/-- A peer, the tasks of its connections and the events between them. -/
structure Wires where
  loop : PeerLoop
  tasks : List ConnTask
  events : List BgpMessageEvent

inductive WireInput where
  | round (stream : Stream)
  | deliver
  | other (input : LoopInput) (incoming : List (Option (Outcome Error (List Message))))

def LoopInput.opens : LoopInput → Option Stream
  | .connected stream | .connection (.tcpConnectionConfirmed stream) => some stream
  | _ => none

def LoopInput.fromTask : LoopInput → Bool
  | .message _ | .connClosed _ => true
  | _ => false

def BgpMessageEvent.IsNotification : BgpMessageEvent → Prop
  | .notifMsg (.notification _ _ _) => True
  | _ => False

namespace Wires

def new (loop : PeerLoop) : Wires := ⟨loop, [], []⟩

def emitted (wires : Wires) (stream : Stream) : List BgpMessageEvent :=
  (wires.tasks.filter fun task => task.stream = stream).flatMap ConnTask.emits

/-- The task of a stream makes a round, the loop takes the next event, or it handles an input from
elsewhere.  A new connection gets a task, which will read what the neighbour sends. -/
def apply (env : LoopEnv) (wires : Wires) : WireInput → Wires
  | .round stream =>
    { wires with
      tasks := wires.tasks.map fun task => if task.stream = stream then task.next else task
      events := wires.events ++ wires.emitted stream }
  | .deliver =>
    match wires.events with
    | [] => wires
    | event :: rest =>
      if wires.loop.ended then wires
      else { wires with loop := wires.loop.apply env (.message event), events := rest }
  | .other input incoming =>
    if input.fromTask then wires
    else
      { wires with
        loop := wires.loop.apply env input
        tasks := match input.opens with
          | some stream =>
            ⟨stream, incoming, [], []⟩ :: wires.tasks.filter fun task => task.stream ≠ stream
          | none => wires.tasks }

/-- All that the stream yields from now on is its end. -/
def Ended (wires : Wires) (stream : Stream) : Prop :=
  ∀ task ∈ wires.tasks, task.stream = stream → task.incoming = []
  deriving Decidable

/-- The session is up although all its streams have ended and there is nothing left to handle. -/
def Lost (wires : Wires) : Prop :=
  wires.loop.fsm = .established ∧ wires.events = [] ∧
    ∀ conn ∈ wires.loop.connections, wires.Ended conn.toStream

/-- A NOTIFICATION of the neighbour is on its way. -/
def Notified (events : List BgpMessageEvent) : Prop := ∃ event ∈ events, event.IsNotification

/-- The condition on a step.  The last stream of a session ends only behind a NOTIFICATION.  The
session comes up while all streams are there, or with a NOTIFICATION on its way.  The manager takes
what a release sends to it, and a new connection has ports of its own. -/
def Attended (env : LoopEnv) (wires : Wires) : WireInput → Prop
  | .round stream => wires.loop.fsm = .established → ¬wires.Ended stream →
      (∀ task ∈ wires.tasks, task.stream = stream → task.next.incoming = []) →
        (∃ conn ∈ wires.loop.connections, conn.toStream ≠ stream ∧ ¬wires.Ended conn.toStream) ∨
          Notified (wires.events ++ wires.emitted stream)
  | .deliver => wires.loop.core.Served env ∧ (wires.loop.fsm = .openConfirm →
      (∀ conn ∈ wires.loop.connections, ¬wires.Ended conn.toStream) ∨ Notified wires.events.tail)
  | .other input _ => wires.loop.core.Served env ∧ ∀ stream, input.opens = some stream →
      ∀ conn ∈ wires.loop.connections, conn.toStream ≠ stream

end Wires

theorem Connection.exists_mem_of_decided {preferLocalConn passive : Bool}
    {connections left : List Connection}
    (decides : decided preferLocalConn passive connections = some left) :
    ∃ conn ∈ left, conn ∈ connections := by
  rcases Option.map_eq_some_iff.mp decides with ⟨incoming, found, rfl⟩
  have member := List.fst_mem_of_mem_zipIdx (List.mem_of_find?_eq_some found)
  split
  · rename_i index dropped
    rcases Option.bind_eq_some_iff.mp dropped with ⟨colliding, other, -⟩
    have otherMember := List.fst_mem_of_mem_zipIdx (List.mem_of_find?_eq_some other)
    have different := List.find?_some other
    have several : connections.eraseIdx index ≠ [] := by
      intro none
      have short := congrArg List.length none
      rw [List.length_eraseIdx] at short
      match connections, member, otherMember with
      | [only], member, otherMember =>
        rw [List.mem_singleton.mp member, List.mem_singleton.mp otherMember] at different
        simp at different
      | _ :: _ :: _, _, _ =>
        simp only [List.length_cons, List.length_nil] at short
        split_ifs at short
        omega
    rcases List.exists_mem_of_ne_nil _ several with ⟨conn, kept⟩
    exact ⟨conn, kept, List.mem_of_mem_eraseIdx kept⟩
  · exact ⟨incoming.1, member, member⟩

namespace Core

variable {env : LoopEnv} {core core' : Core} {input : LoopInput} {ended : Stream → Prop}

def Attended (ended : Stream → Prop) (core : Core) : Prop :=
  core.fsm = .established →
    ∃ stream ∈ core.connections.map Connection.toStream, ¬ended stream

theorem Step.attended (step : core.Step env input core')
    (running : ∀ port, input ≠ .connClosed port) (served : core.Served env)
    (whole : ∀ localPort peerPort, input = .message (.keepAliveMsg localPort peerPort) →
      core.fsm = .openConfirm → ∀ conn ∈ core.connections, ¬ended conn.toStream)
    (attended : core.Attended ended) : core'.Attended ended := by
  intro up
  cases step with
  | quiet | updated | disseminated => exact attended up
  | moved event session => exact attended (session.mp up)
  | released event down =>
    rw [move, released_fsm] at up
    rcases down with down | down <;> simp [down] at up
  | stuck stuck => exact absurd served stuck.not_served
  | connected source busy room opens state =>
    have session : core.fsm = .established := by
      rcases state with same | ⟨-, acked⟩
      · exact same ▸ up
      have moved : core.fsm.mv Event.CONNECTION_TCP_CR_ACKED = .established := acked ▸ up
      revert moved
      cases core.fsm <;> decide
    rcases attended session with ⟨stream, member, there⟩
    refine ⟨stream, ?_, there⟩
    rw [(Connection.openFirst_eq_some opens).1, List.map_append]
    exact List.mem_append_left _ member
  | answered active only requests state | accepted sent opens requests state =>
    rcases state with rfl | rfl <;> cases up
  | unanswered sent opens => exact absurd up (by simp [withConnections, sent])
  | decided confirmed source left =>
    rcases source with ⟨keepalive, -⟩ | ⟨_, _, _, _, _, rfl, -⟩
    · rcases Connection.exists_mem_of_decided left with ⟨conn, kept, member⟩
      refine ⟨conn.toStream, List.mem_map_of_mem kept, ?_⟩
      rcases List.mem_map.mp member with ⟨old, oldMember, rfl⟩
      have there := whole _ _ keepalive confirmed old oldMember
      split_ifs
      all_goals exact there
    · cases up
  | closed | closedLast => exact absurd rfl (running _)
  | dropped index =>
    have same : (core.connections.modify index fun conn => { conn with alive := false }).map
        Connection.toStream = core.connections.map Connection.toStream :=
      Connection.map_modify (by exact fun _ => rfl) index
    rw [withConnections, same]
    exact attended up

end Core

namespace PeerLoop

variable {env : LoopEnv} {core : Core} {event : BgpMessageEvent}

/-- A NOTIFICATION takes the session down. -/
theorem notification_down (notified : event.IsNotification) (served : core.Served env)
    (up : core.fsm = .established) :
    Spec (At core) (handleMessage env event) (fun _ loop => loop.core.fsm ≠ .established)
      (fun _ loop => loop.core.fsm ≠ .established) := by
  cases event with
  | notifMsg msg =>
    cases msg with
    | notification =>
      refine readState_core ?_
      rintro start rfl
      rw [show start.fsm = _ from up]
      refine (giveUp_core.mono (fun _ _ same => same) fun _ _ stuck =>
        absurd served stuck.not_served).bind fun _ => ?_
      refine (moveState_core _).implies fun _ loop same => ?_
      rw [same, Core.move, Core.released_fsm, up]
      exact (by decide : State.established.mv Event.MESSAGE_NOTIF_MSG ≠ .established)
    | _ => exact absurd notified id
  | _ => exact absurd notified id

end PeerLoop

namespace Wires

variable {env : LoopEnv} {events more : List BgpMessageEvent} {event : BgpMessageEvent}

theorem Notified.append (notified : Notified events) : Notified (events ++ more) := by
  rcases notified with ⟨event, member, isNotification⟩
  exact ⟨event, List.mem_append_left _ member, isNotification⟩

/-- A session has a stream, or its end is on its way. -/
def Kept (wires : Wires) : Prop :=
  wires.loop.core.Attended wires.Ended ∨ Notified wires.events

theorem not_ended_round {wires : Wires} {stream other : Stream} (different : other ≠ stream)
    (there : ¬wires.Ended other) : ¬(wires.apply env (.round stream)).Ended other := by
  intro ended
  refine there fun task member same => ?_
  have kept := ended task (List.mem_map.mpr ⟨task, member, if_neg (same ▸ different)⟩) same
  exact kept

theorem kept_round (wires : Wires) (stream : Stream) (kept : wires.Kept)
    (good : Attended env wires (.round stream)) : (wires.apply env (.round stream)).Kept := by
  by_cases notified : Notified (wires.events ++ wires.emitted stream)
  · exact .inr notified
  have attended := kept.resolve_right fun before => notified before.append
  refine .inl fun up => ?_
  rcases attended up with ⟨other, member, there⟩
  by_cases different : other ≠ stream
  · exact ⟨other, member, not_ended_round different there⟩
  obtain rfl : other = stream := not_not.mp different
  by_cases ends : ∀ task ∈ wires.tasks, task.stream = other → task.next.incoming = []
  · rcases (good up there ends).resolve_right notified with ⟨conn, tracked, apart, lives⟩
    exact ⟨conn.toStream, List.mem_map_of_mem tracked, not_ended_round apart lives⟩
  · refine ⟨other, member, fun ended => ends fun task found same => ?_⟩
    refine ended task.next (List.mem_map.mpr ⟨task, found, if_pos same⟩) ?_
    rw [task.stream_next, same]

theorem kept_deliver (wires : Wires) (kept : wires.Kept) (good : Attended env wires .deliver) :
    (wires.apply env .deliver).Kept := by
  rcases wires with ⟨loop, tasks, _ | ⟨event, rest⟩⟩
  · exact kept
  dsimp only [apply]
  split_ifs with stopped
  · exact kept
  by_cases notified : Notified rest
  · exact .inr notified
  refine .inl ?_
  have step := PeerLoop.apply_step env loop (.message event)
  by_cases ends : event.IsNotification
  · intro up
    by_cases session : loop.fsm = .established
    · have down := (PeerLoop.notification_down ends good.1 session).final rfl
      rw [PeerLoop.apply, if_neg stopped] at up
      exact absurd up down
    · -- no other handler brings a session up
      have still : loop.core.Attended fun _ => True := fun up => absurd up session
      rcases step.attended (by simp) good.1 (by rintro _ _ ⟨⟩; cases ends) still up with
        ⟨_, _, never⟩
      exact absurd trivial never
  · have attended := kept.resolve_right ?_
    · exact step.attended (by simp) good.1
        (fun _ _ _ confirmed => (good.2 confirmed).resolve_right notified) attended
    · rintro ⟨other, member, isNotification⟩
      rcases List.mem_cons.mp member with rfl | later
      · exact ends isNotification
      · exact notified ⟨other, later, isNotification⟩

theorem kept_other (wires : Wires) (input : LoopInput)
    (incoming : List (Option (Outcome Error (List Message)))) (kept : wires.Kept)
    (good : Attended env wires (.other input incoming)) :
    (wires.apply env (.other input incoming)).Kept := by
  dsimp only [apply]
  split_ifs with fromTask
  · exact kept
  refine kept.imp_left fun attended => ?_
  have apart : wires.loop.core.Attended fun stream =>
      wires.Ended stream ∨ input.opens = some stream := by
    intro up
    rcases attended up with ⟨stream, member, there⟩
    rcases List.mem_map.mp member with ⟨conn, tracked, rfl⟩
    exact ⟨_, member, not_or.mpr ⟨there, fun opens => good.2 _ opens conn tracked rfl⟩⟩
  intro up
  rcases (PeerLoop.apply_step env wires.loop input).attended
    (by rintro port rfl; exact fromTask rfl) good.1
    (by rintro _ _ rfl; exact absurd rfl fromTask) apart up with ⟨stream, member, there⟩
  rcases not_or.mp there with ⟨lives, other⟩
  refine ⟨stream, member, fun ended => lives fun task found same => ended task ?_ same⟩
  dsimp only
  split
  · rename_i opened opens
    refine List.mem_cons_of_mem _ (List.mem_filter.mpr ⟨found, ?_⟩)
    rw [same, decide_eq_true_eq]
    rintro rfl
    exact other opens
  · exact found

theorem kept_apply (wires : Wires) (input : WireInput) (kept : wires.Kept)
    (good : Attended env wires input) : (wires.apply env input).Kept := by
  cases input with
  | round stream => exact kept_round wires stream kept good
  | deliver => exact kept_deliver wires kept good
  | other input incoming => exact kept_other wires input incoming kept good

/-- In every run that meets the condition no session is left without a stream.  A task that is
there at its end comes to an end only by a panic of the decoder. -/
theorem run_not_lost {info : PeerInfo} {localInfo : LocalInfo} {keepaliveTime : ℕ}
    {exporter : Bool} {now : ℕ} {inputs : List WireInput}
    (steps : AllSteps (apply env) (Attended env)
      (.new (.new info localInfo keepaliveTime exporter now)) inputs) :
    (∀ task ∈ (inputs.foldl (apply env)
        (.new (.new info localInfo keepaliveTime exporter now))).tasks,
      (∃ count, task.rounds count = none) ↔ some .panic ∈ task.incoming) ∧
      ¬(inputs.foldl (apply env) (.new (.new info localInfo keepaliveTime exporter now))).Lost := by
  refine ⟨fun task _ => task.ends_iff_panics, fun ⟨up, handled, ended⟩ => ?_⟩
  have kept := foldl_invariant Kept kept_apply (.inl (by rintro ⟨⟩)) steps
  rcases kept with attended | ⟨event, member, -⟩
  · rcases attended up with ⟨stream, member, there⟩
    rcases List.mem_map.mp member with ⟨conn, tracked, rfl⟩
    exact there (ended conn tracked)
  · rw [handled] at member
    cases member

/-- The session comes up, and then the neighbour sends more and closes the connection. -/
def sampleInputs (more : List Message) : List WireInput :=
  [.other (.admin .manualStart) [],
    .other (.connected sampleActive)
      [some (.ok [sampleOpen]), some (.ok [.keepalive]), some (.ok more)],
    .round sampleActive, .deliver, .round sampleActive, .deliver, .round sampleActive, .deliver]

theorem run_not_lost_of_notification :
    ¬((sampleInputs [.notification .cease none []]).foldl (apply sampleLoopEnv)
      (.new sampleLoop)).Lost := by
  have served : ∀ core : Core, core.Served sampleLoopEnv := fun _ _ _ _ _ limit => nomatch limit
  refine (run_not_lost ?_).2
  refine ⟨⟨served _, fun _ opens => nomatch opens⟩, ⟨served _, fun _ _ conn member => ?_⟩,
    fun up => absurd up (by decide +kernel),
    ⟨served _, fun confirmed => absurd confirmed (by decide +kernel)⟩,
    fun up => absurd up (by decide +kernel), ⟨served _, fun _ => .inl (by decide +kernel)⟩,
    fun _ _ _ => .inr ⟨PeerLoop.sampleCease, by decide +kernel, trivial⟩,
    ⟨served _, fun confirmed => absurd confirmed (by decide +kernel)⟩, trivial⟩
  cases member

/-- The task goes on at the end of the stream, and the session stays up when the neighbour closes
the connection. -/
theorem run_lost :
    (∀ task ∈ ((sampleInputs [.keepalive]).foldl (apply sampleLoopEnv) (.new sampleLoop)).tasks,
      ∀ count, task.rounds count ≠ none) ∧
    ((sampleInputs [.keepalive]).foldl (apply sampleLoopEnv) (.new sampleLoop)).Lost := by
  refine ⟨fun task member count ends => ?_, by decide +kernel, by decide +kernel,
    by decide +kernel⟩
  have panics := task.ends_iff_panics.mp ⟨count, ends⟩
  rw [List.mem_singleton.mp member] at panics
  cases panics

end Wires

end Sart
