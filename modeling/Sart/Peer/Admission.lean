import Sart.Lib.Run
import Sart.Peer.Machine

/-!
# Established with the configured neighbour

The connection of a session is to have brought an OPEN with the AS number of the neighbour and an
acceptable hold time, and a KEEPALIVE after it.

The AS number of an OPEN is never looked at.  And the state is one for both connections: a
KEEPALIVE on one without an OPEN brings the session up.
-/

namespace Sart

open Sart.Lib

def Message.announcedAsn (asNum : UInt32) (caps : List Cap) : UInt32 :=
  (caps.findSome? fun cap =>
    match cap with
    | .fourOctetASNumber asn => some asn
    | _ => none).getD asNum

def Message.HoldTimeOk (time : UInt16) : Prop := time.toNat = 0 ∨ 3 ≤ time.toNat
  deriving Decidable

namespace LoopInput

def Ports (stream : Stream) (localPort peerPort : UInt16) : Prop :=
  localPort = stream.localPort ∧ peerPort = stream.peerPort

def Opens (asn : UInt32) (stream : Stream) : LoopInput → Prop
  | .message (.bgpOpen localPort peerPort (.open _ asNum time _ caps)) =>
    Ports stream localPort peerPort ∧ Message.announcedAsn asNum caps = asn ∧
      Message.HoldTimeOk time
  | _ => False

def Confirms (stream : Stream) : LoopInput → Prop
  | .message (.keepAliveMsg localPort peerPort) => Ports stream localPort peerPort
  | _ => False

def Tracks (stream : Stream) : LoopInput → Prop
  | .connected other | .connection (.tcpConnectionConfirmed other) =>
    Ports stream other.localPort other.peerPort
  | _ => False

def Opened (asn : UInt32) (stream : Stream) (seen : List LoopInput) : Prop :=
  Pending (Opens asn stream) (Tracks stream) seen

def Admitted (asn : UInt32) (stream : Stream) (seen : List LoopInput) : Prop :=
  ∃ before input after, seen = before ++ input :: after ∧ Opened asn stream before ∧
    input.Confirms stream ∧ ∀ later ∈ after, ¬later.Tracks stream

variable {asn : UInt32} {stream : Stream} {seen : List LoopInput} {input : LoopInput}

theorem Opened.snoc (opened : Opened asn stream seen) (other : ¬input.Tracks stream) :
    Opened asn stream (seen ++ [input]) :=
  pending_append.mpr (.inl ⟨opened, by simpa using other⟩)

theorem opened_of_opens (opens : input.Opens asn stream) : Opened asn stream (seen ++ [input]) :=
  pending_append.mpr (.inr (.inl ⟨opens, by simp⟩))

theorem Opened.admitted (opened : Opened asn stream seen) (confirms : input.Confirms stream) :
    Admitted asn stream (seen ++ [input]) :=
  ⟨seen, input, [], rfl, opened, confirms, by simp⟩

theorem Admitted.snoc (admitted : Admitted asn stream seen) (other : ¬input.Tracks stream) :
    Admitted asn stream (seen ++ [input]) := by
  rcases admitted with ⟨before, keepalive, after, rfl, opened, confirms, quiet⟩
  refine ⟨before, keepalive, after ++ [input], by simp, opened, confirms, ?_⟩
  intro later member
  rcases List.mem_append.mp member with earlier | now
  · exact quiet later earlier
  · rwa [List.mem_singleton.mp now]

theorem not_admitted (none : ∀ input ∈ seen, ¬input.Opens asn stream) :
    ¬Admitted asn stream seen := by
  rintro ⟨before, keepalive, after, rfl, opened, -, -⟩
  exact not_pending (fun input member => none input (List.mem_append_left _ member)) opened

end LoopInput

namespace Connection

variable {connections final : List Connection} {conn : Connection} {passive preferLocalConn : Bool}

def Fresh (state : State) : Prop := state = .connect ∨ state = .openSent

def Apart (connections : List Connection) : Prop :=
  connections.Pairwise fun left right => left.isPassive ≠ right.isPassive

theorem Apart.length_le (apart : Apart connections) : connections.length ≤ 2 := by
  rcases connections with _ | ⟨first, _ | ⟨second, _ | ⟨third, rest⟩⟩⟩
  · simp
  · simp
  · simp
  · simp only [Apart, List.pairwise_cons, List.mem_cons] at apart
    have one := apart.1 second (.inl rfl)
    have two := apart.1 third (.inr (.inl rfl))
    have three := apart.2.1 third (.inl rfl)
    revert one two three
    cases first.isPassive <;> cases second.isPassive <;> cases third.isPassive <;> simp

theorem Apart.of_streams (apart : Apart connections)
    (same : final.map toStream = connections.map toStream) : Apart final := by
  have streams : (connections.map toStream).Pairwise fun left right : Stream =>
      left.isPassive ≠ right.isPassive := List.pairwise_map.mpr apart
  rw [← same, List.pairwise_map] at streams
  exact streams

theorem fresh_of_states (fresh : ∀ conn ∈ connections, Fresh conn.state)
    (same : final.map Connection.state = connections.map Connection.state) :
    ∀ conn ∈ final, Fresh conn.state := by
  have states : ∀ state ∈ connections.map Connection.state, Fresh state :=
    List.forall_mem_map.mpr fresh
  rw [← same] at states
  exact List.forall_mem_map.mp states

theorem map_modify {α : Type} {field : Connection → α} {change : Connection → Connection}
    (same : ∀ conn, field (change conn) = field conn) (index : ℕ) :
    (connections.modify index change).map field = connections.map field := by
  induction connections generalizing index with
  | nil => simp
  | cons first rest ih => cases index <;> simp [same, ih]

theorem toStream_opened (conn : Connection) : conn.opened.toStream = conn.toStream := by
  unfold opened
  split_ifs <;> rfl

theorem Fresh.opened (fresh : Fresh conn.state) : Fresh conn.opened.state := by
  unfold Connection.opened
  split_ifs with up
  · exact fresh
  · exact .inr rfl

theorem openFirst_eq_some {opened : Connection}
    (opens : openFirst passive connections = some (opened, final)) :
    final.map toStream = connections.map toStream ∧
      ((∀ conn ∈ connections, Fresh conn.state) → ∀ conn ∈ final, Fresh conn.state) := by
  induction connections generalizing opened final with
  | nil => simp [openFirst] at opens
  | cons first rest ih =>
    rw [openFirst] at opens
    split_ifs at opens
    · simp only [Option.some.injEq, Prod.mk.injEq] at opens
      rcases opens with ⟨-, rfl⟩
      refine ⟨by simp [toStream_opened], fun fresh conn member => ?_⟩
      rcases List.mem_cons.mp member with rfl | later
      · exact (fresh first List.mem_cons_self).opened
      · exact fresh conn (List.mem_cons_of_mem _ later)
    rcases Option.map_eq_some_iff.mp opens with ⟨⟨found, others⟩, inner, made⟩
    rcases made with ⟨rfl, rfl⟩
    rcases ih inner with ⟨same, kept⟩
    refine ⟨by simp [same], fun fresh conn member => ?_⟩
    rcases List.mem_cons.mp member with rfl | later
    · exact fresh conn List.mem_cons_self
    · exact kept (fun other member => fresh other (List.mem_cons_of_mem _ member)) conn later

theorem drop_of_fresh {incoming colliding : Connection × ℕ} (fresh : Fresh colliding.1.state) :
    drop preferLocalConn incoming colliding = some colliding.2 := by
  unfold drop
  rcases fresh with state | state <;> rw [state]

theorem toStream_ne {first second : Connection} (different : first.isPassive ≠ second.isPassive) :
    (second.toStream != first.toStream) = true := by
  rw [bne_iff_ne]
  intro same
  exact different (congrArg Stream.isPassive same.symm)

theorem decided_single (direction : conn.isPassive = passive) :
    decided preferLocalConn passive [conn] = some [conn] := by
  simp [decided, direction]

variable {other : Connection}

theorem decided_first (direction : conn.isPassive = passive)
    (different : conn.isPassive ≠ other.isPassive) (fresh : Fresh other.state) :
    decided preferLocalConn passive [conn, other] = some [conn] := by
  have found := @drop_of_fresh preferLocalConn (conn, 0) (other, 1) fresh
  simp [decided, direction, toStream_ne different, found]

theorem decided_second (direction : conn.isPassive = passive)
    (different : conn.isPassive ≠ other.isPassive) (fresh : Fresh other.state) :
    decided preferLocalConn passive [other, conn] = some [conn] := by
  have found := @drop_of_fresh preferLocalConn (conn, 1) (other, 0) fresh
  have unlike : other.isPassive ≠ passive := fun same => different (direction.trans same.symm)
  simp [decided, direction, unlike, toStream_ne different, found]

theorem confirm_of_ne (different : conn.isPassive ≠ passive) :
    (if conn.isPassive = passive then { conn with state := .openConfirm } else conn) = conn :=
  if_neg different

theorem decided_eq_some (apart : Apart connections)
    (fresh : connections.length = 2 → ∀ conn ∈ connections, Fresh conn.state)
    (member : conn ∈ connections) (direction : conn.isPassive = passive)
    (left : decided preferLocalConn passive (confirm passive connections) = some final) :
    final = [{ conn with state := .openConfirm }] := by
  have short := apart.length_le
  have marked : ({ conn with state := .openConfirm } : Connection).isPassive = passive := direction
  rcases connections with _ | ⟨first, _ | ⟨second, _ | ⟨third, rest⟩⟩⟩
  · simp at member
  · rw [List.mem_singleton] at member
    subst member
    rw [confirm, List.map_singleton, if_pos direction, decided_single marked] at left
    exact (Option.some.inj left).symm
  · have different : first.isPassive ≠ second.isPassive := by
      simpa [Apart] using apart
    simp only [List.mem_cons, List.not_mem_nil, or_false] at member
    rcases member with rfl | rfl
    · have unlike : second.isPassive ≠ passive := fun same => different (direction.trans same.symm)
      rw [confirm, List.map_cons, List.map_singleton, if_pos direction, confirm_of_ne unlike,
        decided_first marked different (fresh rfl second (by simp))] at left
      exact (Option.some.inj left).symm
    have unlike : first.isPassive ≠ passive := fun same => different (same.trans direction.symm)
    rw [confirm, List.map_cons, List.map_singleton, if_pos direction, confirm_of_ne unlike,
      decided_second marked (Ne.symm different) (fresh rfl first (by simp))] at left
    exact (Option.some.inj left).symm
  · simp at short

end Connection

namespace Core

def Hears (core : Core) (localPort peerPort : UInt16) : Prop :=
  ∃ conn ∈ core.connections, LoopInput.Ports conn.toStream localPort peerPort

/-- The condition on a turn, with what was received before.  A new connection comes before the OPEN
of the first one is accepted, and in the other direction.  An OPEN comes on a tracked connection,
with the AS number of the neighbour and an acceptable hold time.  A KEEPALIVE that brings the
session up comes on a tracked connection with an OPEN.  The manager takes what a release sends. -/
def Proper (env : LoopEnv) (asn : UInt32) (seen : List LoopInput) (core : Core)
    (input : LoopInput) : Prop :=
  core.Served env ∧
  match input with
  | .connected stream | .connection (.tcpConnectionConfirmed stream) =>
    core.fsm ≠ .openConfirm ∧ core.fsm ≠ .established ∧
      ∀ conn ∈ core.connections, conn.isPassive ≠ stream.isPassive
  | .message (.bgpOpen localPort peerPort (.open _ asNum time _ caps)) =>
    core.fsm = .active ∨ core.fsm = .openSent ∨ core.fsm = .openConfirm →
      core.Hears localPort peerPort ∧ Message.announcedAsn asNum caps = asn ∧
        (core.fsm ≠ .openConfirm ∧ 3 ≤ core.holdTime ∨ Message.HoldTimeOk time)
  | .message (.keepAliveMsg localPort peerPort) =>
    core.fsm = .openConfirm → core.Hears localPort peerPort ∧
      (core.connections.length = 2 → ∀ conn ∈ core.connections,
        LoopInput.Ports conn.toStream localPort peerPort → LoopInput.Opened asn conn.toStream seen)
  | .connClosed _ => core.fsm = .openConfirm → core.connections.length ≤ 1
  | _ => True

/-- In OpenConfirm the only connection has brought an OPEN, and in Established a KEEPALIVE after
it. -/
structure Admissible (asn : UInt32) (seen : List LoopInput) (core : Core) : Prop where
  live : core.Live
  apart : Connection.Apart core.connections
  fresh : core.fsm ≠ .openConfirm → core.fsm ≠ .established →
    ∀ conn ∈ core.connections, Connection.Fresh conn.state
  pair : core.connections.length = 2 → ∀ conn ∈ core.connections, Connection.Fresh conn.state
  opened : core.fsm = .openConfirm → ∀ stream, core.connections.map Connection.toStream = [stream] →
    LoopInput.Opened asn stream seen
  admitted : core.fsm = .established → ∃ stream,
    core.connections.map Connection.toStream = [stream] ∧ LoopInput.Admitted asn stream seen

variable {env : LoopEnv} {asn : UInt32} {seen : List LoopInput} {core core' : Core}
  {input : LoopInput}

theorem Proper.not_tracks (proper : core.Proper env asn seen input)
    (up : core.fsm = .openConfirm ∨ core.fsm = .established) (stream : Stream) :
    ¬input.Tracks stream := by
  intro tracks
  have never : ¬(core.fsm ≠ .openConfirm ∧ core.fsm ≠ .established) := by
    rintro ⟨left, right⟩
    rcases up with up | up
    · exact left up
    · exact right up
  rcases proper with ⟨-, proper⟩
  unfold LoopInput.Tracks at tracks
  split at tracks
  · exact never ⟨proper.1, proper.2.1⟩
  · exact never ⟨proper.1, proper.2.1⟩
  · exact tracks

variable {stream : Stream} {conn : Connection} {time localPort peerPort : UInt16}
  {connections : List Connection}

theorem Proper.connected (proper : core.Proper env asn seen input)
    (source : input = .connected stream ∨ input = .connection (.tcpConnectionConfirmed stream)) :
    core.fsm ≠ .openConfirm ∧ core.fsm ≠ .established ∧
      ∀ conn ∈ core.connections, conn.isPassive ≠ stream.isPassive := by
  rcases source with rfl | rfl
  all_goals exact proper.2

theorem Admissible.keep (admissible : core.Admissible asn seen)
    (proper : core.Proper env asn seen input) (live : core'.Live)
    (streams : core'.connections.map Connection.toStream = core.connections.map Connection.toStream)
    (states : core'.connections.map Connection.state = core.connections.map Connection.state)
    (confirmed : core'.fsm = .openConfirm ↔ core.fsm = .openConfirm)
    (session : core'.fsm = .established ↔ core.fsm = .established) :
    core'.Admissible asn (seen ++ [input]) := by
  refine ⟨live, admissible.apart.of_streams streams, ?_, ?_, ?_, ?_⟩
  · intro unconfirmed down
    refine Connection.fresh_of_states (admissible.fresh ?_ ?_) states
    · exact fun isConfirmed => unconfirmed (confirmed.mpr isConfirmed)
    · exact fun up => down (session.mpr up)
  · intro two
    refine Connection.fresh_of_states (admissible.pair ?_) states
    have length := congrArg List.length streams
    simpa [two] using length.symm
  · intro isConfirmed stream only
    rw [streams] at only
    have before := confirmed.mp isConfirmed
    exact (admissible.opened before stream only).snoc (proper.not_tracks (.inl before) stream)
  · intro up
    have before := session.mp up
    rcases admissible.admitted before with ⟨stream, only, admitted⟩
    exact ⟨stream, streams.trans only, admitted.snoc (proper.not_tracks (.inr before) stream)⟩

theorem admissible_of_fresh (live : core'.Live) (apart : Connection.Apart core'.connections)
    (fresh : ∀ conn ∈ core'.connections, Connection.Fresh conn.state)
    (unconfirmed : core'.fsm ≠ .openConfirm) (down : core'.fsm ≠ .established) :
    core'.Admissible asn (seen ++ [input]) :=
  ⟨live, apart, fun _ _ => fresh, fun _ => fresh, fun isConfirmed => absurd isConfirmed unconfirmed,
    fun up => absurd up down⟩

theorem admissible_of_single (live : core'.Live) (only : core'.connections = [conn])
    (up : core'.fsm = .openConfirm ∨ core'.fsm = .established)
    (opened : core'.fsm = .openConfirm → LoopInput.Opened asn conn.toStream (seen ++ [input]))
    (admitted : core'.fsm = .established → LoopInput.Admitted asn conn.toStream (seen ++ [input])) :
    core'.Admissible asn (seen ++ [input]) := by
  refine ⟨live, ?_, fun unconfirmed down => absurd up (by simp [unconfirmed, down]), ?_, ?_, ?_⟩
  · rw [only]
    exact List.pairwise_singleton _ _
  · rw [only]
    simp
  · intro isConfirmed stream isOnly
    rw [only, List.map_singleton, List.cons.injEq] at isOnly
    rw [← isOnly.1]
    exact opened isConfirmed
  · intro isUp
    exact ⟨conn.toStream, by rw [only, List.map_singleton], admitted isUp⟩

theorem holdTimeOk_of_agreed {holdTime : ℕ} (acceptable : 3 ≤ holdTime)
    (agreed : Negotiable holdTime time.toNat) : Message.HoldTimeOk time := by
  unfold Negotiable at agreed
  unfold Message.HoldTimeOk
  split_ifs at agreed with greater
  · omega
  · omega

theorem Proper.opens {version : UInt8} {asNum : UInt32} {routerId : Ipv4Addr} {caps : List Cap}
    (proper : core.Proper env asn seen
      (.message (.bgpOpen localPort peerPort (.open version asNum time routerId caps))))
    (state : core.fsm = .active ∨ core.fsm = .openSent ∨ core.fsm = .openConfirm)
    (agreed : core.fsm ≠ .openConfirm → Negotiable core.holdTime time.toNat) :
    ∃ conn ∈ core.connections, (conn.isPassive = (localPort == Bgp.BGP_PORT)) ∧
      LoopInput.Opens asn conn.toStream
        (.message (.bgpOpen localPort peerPort (.open version asNum time routerId caps))) := by
  rcases proper.2 state with ⟨⟨conn, member, ports⟩, isAsn, hold⟩
  refine ⟨conn, member, ?_, ports, isAsn, ?_⟩
  · rw [ports.1]
    rfl
  rcases hold with ⟨unconfirmed, acceptable⟩ | ok
  · exact holdTimeOk_of_agreed acceptable (agreed unconfirmed)
  · exact ok

section

variable (admissible : core.Admissible asn seen)

include admissible

theorem Admissible.confirm (live : core'.Live)
    (streams : core'.connections.map Connection.toStream = core.connections.map Connection.toStream)
    (fresh : ∀ conn ∈ core'.connections, Connection.Fresh conn.state)
    (confirmed : core'.fsm = .openConfirm) (member : conn ∈ core.connections)
    (opens : input.Opens asn conn.toStream) : core'.Admissible asn (seen ++ [input]) := by
  refine ⟨live, admissible.apart.of_streams streams, fun _ _ => fresh, fun _ => fresh, ?_, ?_⟩
  · intro _ stream only
    have found : conn.toStream ∈ [stream] := by
      rw [← only, streams]
      exact List.mem_map_of_mem member
    rw [← List.mem_singleton.mp found]
    exact LoopInput.opened_of_opens opens
  intro up
  rw [confirmed] at up
  simp at up

theorem Admissible.connected (live : core'.Live)
    (opens : Connection.openFirst stream.isPassive (core.connections ++ [.new stream]) =
      some (conn, core'.connections)) (unconfirmed : core.fsm ≠ .openConfirm)
    (down : core.fsm ≠ .established)
    (other : ∀ conn ∈ core.connections, conn.isPassive ≠ stream.isPassive)
    (state : core'.fsm = core.fsm ∨ core'.fsm = core.fsm.mv Event.CONNECTION_TCP_CR_ACKED) :
    core'.Admissible asn (seen ++ [input]) := by
  rcases Connection.openFirst_eq_some opens with ⟨streams, fresh⟩
  have apart : Connection.Apart (core.connections ++ [.new stream]) := by
    refine List.pairwise_append.mpr ⟨admissible.apart, List.pairwise_singleton _ _, ?_⟩
    intro first member second new
    rw [List.mem_singleton.mp new]
    exact other first member
  refine admissible_of_fresh live (apart.of_streams streams) (fresh ?_) ?_ ?_
  · intro conn member
    rcases List.mem_append.mp member with tracked | new
    · exact admissible.fresh unconfirmed down conn tracked
    · rw [List.mem_singleton.mp new]
      exact .inl rfl
  all_goals
    rcases state with same | moved
    · rwa [same]
    · rw [moved]
      cases core.fsm <;> decide

theorem Admissible.decided
    (proper : core.Proper env asn seen input) (confirmed : core.fsm = .openConfirm) {fsm : State}
    (source : input = .message (.keepAliveMsg localPort peerPort) ∧ fsm = .established ∨
      ∃ version asNum time routerId caps, fsm = .openConfirm ∧ input =
        .message (.bgpOpen localPort peerPort (.open version asNum time routerId caps)))
    (left : Connection.decided core.preferLocalConn (localPort == Bgp.BGP_PORT)
      (Connection.confirm (localPort == Bgp.BGP_PORT) core.connections) = some connections)
    (live : Live { core with connections := connections, fsm := fsm }) :
    Admissible asn (seen ++ [input]) { core with connections := connections, fsm := fsm } := by
  rcases source with ⟨rfl, rfl⟩ | ⟨version, asNum, time, routerId, caps, rfl, rfl⟩
  · rcases proper.2 confirmed with ⟨⟨conn, member, ports⟩, pair⟩
    have direction : conn.isPassive = (localPort == Bgp.BGP_PORT) := by
      rw [ports.1]
      rfl
    have only := Connection.decided_eq_some admissible.apart admissible.pair member direction left
    have opened : LoopInput.Opened asn conn.toStream seen := by
      by_cases two : core.connections.length = 2
      · exact pair two conn member ports
      have positive := List.length_pos_of_mem member
      have short := admissible.apart.length_le
      have one : core.connections.length = 1 := by omega
      rcases List.length_eq_one_iff.mp one with ⟨first, single⟩
      rw [single, List.mem_singleton] at member
      refine admissible.opened confirmed conn.toStream ?_
      rw [single, member, List.map_singleton]
    exact admissible_of_single live only (.inr rfl) (fun isConfirmed => by simp at isConfirmed)
      fun _ => opened.admitted ports
  · rcases proper.opens (.inr (.inr confirmed)) (absurd confirmed) with
      ⟨conn, member, direction, opens⟩
    have only := Connection.decided_eq_some admissible.apart admissible.pair member direction left
    exact admissible_of_single live only (.inl rfl) (fun _ => LoopInput.opened_of_opens opens)
      fun up => by simp at up

theorem Admissible.closed (proper : core.Proper env asn seen (.connClosed localPort))
    (fewer : connections.Sublist core.connections) (others : connections ≠ [])
    (live : (core.withConnections connections).Live) :
    (core.withConnections connections).Admissible asn (seen ++ [.connClosed localPort]) := by
  by_cases up : core.fsm = .openConfirm ∨ core.fsm = .established
  · have single : core.connections.length ≤ 1 := by
      rcases up with isConfirmed | isUp
      · exact proper.2 isConfirmed
      · rcases admissible.admitted isUp with ⟨stream, only, -⟩
        simpa using (congrArg List.length only).le
    have same : connections = core.connections :=
      fewer.eq_of_length_le (single.trans (List.length_pos_of_ne_nil others))
    subst same
    exact admissible.keep proper live rfl rfl Iff.rfl Iff.rfl
  rcases not_or.mp up with ⟨unconfirmed, down⟩
  refine admissible_of_fresh live (admissible.apart.sublist fewer) ?_ unconfirmed down
  exact fun conn member => admissible.fresh unconfirmed down conn (fewer.subset member)

end

theorem Step.admissible (step : core.Step env input core') (admissible : core.Admissible asn seen)
    (proper : core.Proper env asn seen input) : core'.Admissible asn (seen ++ [input]) := by
  have live := step.live admissible.live
  cases step with
  | quiet | updated | disseminated => exact admissible.keep proper live rfl rfl Iff.rfl Iff.rfl
  | moved event session confirmed => exact admissible.keep proper live rfl rfl confirmed session
  | released event down =>
    have none := released_connections admissible.live
    have moved : (core.released.move event).fsm = core.fsm.mv event := by
      rw [move, released_fsm]
    refine admissible_of_fresh live ?_ ?_ ?_ ?_
    · rw [move, none]
      exact List.Pairwise.nil
    · rw [move, none]
      simp
    all_goals
      rw [moved]
      rcases down with down | down <;> simp [down]
  | stuck stuck => exact absurd proper.1 stuck.not_served
  | connected source busy room opens state =>
    rcases proper.connected source with ⟨unconfirmed, down, other⟩
    refine admissible.connected live opens unconfirmed down other ?_
    rcases state with same | ⟨-, moved⟩
    · exact .inl same
    · exact .inr moved
  | answered active only requests state agreed =>
    have fresh := admissible.fresh (by simp [active]) (by simp [active])
    rcases state with rfl | rfl
    · exact admissible_of_fresh live admissible.apart fresh (by simp) (by simp)
    · rcases proper.opens (.inl active) fun _ => agreed with ⟨conn, member, -, opens⟩
      exact admissible.confirm live rfl fresh rfl member opens
  | accepted sent opens requests state agreed =>
    rcases Connection.openFirst_eq_some opens with ⟨streams, kept⟩
    have fresh := kept (admissible.fresh (by simp [sent]) (by simp [sent]))
    rcases state with rfl | rfl
    · exact admissible_of_fresh live (admissible.apart.of_streams streams) fresh (by simp) (by simp)
    · rcases proper.opens (.inr (.inl sent)) fun _ => agreed with ⟨conn, member, -, opens⟩
      exact admissible.confirm live streams fresh rfl member opens
  | unanswered sent opens =>
    rcases Connection.openFirst_eq_some opens with ⟨streams, kept⟩
    have fresh := kept (admissible.fresh (by simp [sent]) (by simp [sent]))
    refine admissible_of_fresh live (admissible.apart.of_streams streams) fresh ?_ ?_
    all_goals simp [withConnections, sent]
  | decided confirmed source left => exact admissible.decided proper confirmed source left live
  | closed others => exact admissible.closed proper List.eraseP_sublist others live
  | closedLast last =>
    have none : ((core.withConnections []).released.move
        Event.CONNECTION_TCP_CONNECTION_FAIL).connections = [] :=
      released_connections fun tracked => absurd rfl tracked
    have moved : ((core.withConnections []).released.move
        Event.CONNECTION_TCP_CONNECTION_FAIL).fsm =
          core.fsm.mv Event.CONNECTION_TCP_CONNECTION_FAIL := by
      rw [move, released_fsm]
      rfl
    refine admissible_of_fresh live ?_ ?_ ?_ ?_
    · rw [none]
      exact List.Pairwise.nil
    · rw [none]
      simp
    all_goals
      rw [moved]
      cases core.fsm <;> decide
  | dropped index =>
    refine admissible.keep proper live ?_ ?_ Iff.rfl Iff.rfl
    all_goals exact Connection.map_modify (fun conn => by rfl) index

end Core

namespace PeerLoop

variable {env : LoopEnv} {loop : PeerLoop}

def watch (env : LoopEnv) (state : PeerLoop × List LoopInput) (input : LoopInput) :
    PeerLoop × List LoopInput :=
  (apply env state.1 input, state.2 ++ [input])

theorem foldl_watch (env : LoopEnv) (inputs : List LoopInput) (state : PeerLoop × List LoopInput) :
    inputs.foldl (watch env) state = (run env state.1 inputs, state.2 ++ inputs) := by
  induction inputs generalizing state with
  | nil => simp [run]
  | cons input rest ih => simp [ih, watch, run]

def AdmittedOnly (asn : UInt32) (seen : List LoopInput) (loop : PeerLoop) : Prop :=
  loop.fsm = .established →
    ∃ conn, loop.connections = [conn] ∧ LoopInput.Admitted asn conn.toStream seen

theorem admissible_new (asn : UInt32) (info : PeerInfo) (localInfo : LocalInfo) (keepaliveTime : ℕ)
    (exporter : Bool) (now : ℕ) :
    (new info localInfo keepaliveTime exporter now).core.Admissible asn [] where
  live tracked := absurd rfl tracked
  apart := List.Pairwise.nil
  fresh _ _ conn member := absurd member List.not_mem_nil
  pair two := by simp [core, new] at two
  opened isConfirmed := by simp [core, new] at isConfirmed
  admitted up := by simp [core, new] at up

/-- In every run that meets the condition at each turn, a session is up only over a single
connection on which the neighbour has identified itself and confirmed. -/
theorem admittedOnly_of_proper {info : PeerInfo} {localInfo : LocalInfo} {keepaliveTime : ℕ}
    {exporter : Bool} {now : ℕ} {inputs : List LoopInput} (proper : AllSteps (watch env)
      (fun state input => state.1.core.Proper env info.neighbor.asn state.2 input)
      (new info localInfo keepaliveTime exporter now, []) inputs) :
    (run env (new info localInfo keepaliveTime exporter now) inputs).AdmittedOnly
      info.neighbor.asn inputs := by
  have admissible := foldl_invariant
    (fun state : PeerLoop × List LoopInput => state.1.core.Admissible info.neighbor.asn state.2)
    (fun state input admissible good => (apply_step env state.1 input).admissible admissible good)
    (admissible_new info.neighbor.asn info localInfo keepaliveTime exporter now) proper
  rw [foldl_watch] at admissible
  intro up
  rcases admissible.admitted up with ⟨stream, only, admitted⟩
  rcases List.map_eq_singleton_iff.mp only with ⟨conn, single, rfl⟩
  exact ⟨conn, single, admitted⟩

theorem admittedOnly_sampleEstablish :
    (run sampleLoopEnv sampleLoop sampleEstablish).fsm = .established ∧
      (run sampleLoopEnv sampleLoop sampleEstablish).AdmittedOnly 65001 sampleEstablish := by
  refine ⟨by decide +kernel, admittedOnly_of_proper ⟨?_, ?_, ?_, ?_, trivial⟩⟩
  · exact ⟨fun fresh => absurd fresh (by decide +kernel), trivial⟩
  · exact ⟨fun fresh => absurd fresh (by decide +kernel), by decide +kernel, by decide +kernel,
      by decide +kernel⟩
  · refine ⟨fun _ count short => absurd short (Nat.not_lt_zero count), fun _ => ⟨?_, rfl, ?_⟩⟩
    · exact ⟨_, List.mem_singleton_self _, rfl, rfl⟩
    · exact .inr (.inr (by decide +kernel))
  · refine ⟨fun _ count short => absurd short (Nat.not_lt_zero count), fun _ => ⟨?_, ?_⟩⟩
    · exact ⟨_, List.mem_singleton_self _, rfl, rfl⟩
    · exact fun two => absurd two (by decide +kernel)

def sampleStranger : List LoopInput :=
  [.admin .manualStart, .connected sampleActive,
    .message (.bgpOpen 50000 Bgp.BGP_PORT (.open 4 65002 180 0x0a000001 [])),
    .message (.keepAliveMsg 50000 Bgp.BGP_PORT)]

/-- A session with another AS than the one of the neighbour. -/
theorem not_admittedOnly_sampleStranger :
    sampleLoop.info.neighbor.asn = 65001 ∧
      ¬(run sampleLoopEnv sampleLoop sampleStranger).AdmittedOnly 65001 sampleStranger := by
  refine ⟨rfl, fun only => ?_⟩
  rcases only (by decide +kernel) with ⟨conn, -, admitted⟩
  refine LoopInput.not_admitted ?_ admitted
  intro input member opens
  simp only [sampleStranger, List.mem_cons, List.not_mem_nil, or_false] at member
  rcases member with rfl | rfl | rfl | rfl
  · exact opens
  · exact opens
  · exact absurd opens.2.1 (by decide +kernel)
  · exact opens

end PeerLoop

end Sart
