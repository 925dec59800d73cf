import Sart.Peer.Changes

/-!
# The published state of a peer

Every handler that moves the machine publishes the new state and tells the exporter.
A tick of the keepalive timer moves the machine and leaves the published copy as it was.
In the states in which the tick does not move the machine there is no difference.
-/

namespace Sart

open Sart.Lib Sart.Lib.Effect

/-- The published state is that of the machine, and an exporter was told it last. -/
def Face.Mirrored (face : Face) : Prop :=
  face.published = face.fsm ∧ (face.exporter = true → face.exported.getLast?.getD .idle = face.fsm)

theorem Face.Change.mirrored {moves : Bool} {face next : Face} (change : Change moves face next)
    (mirrored : face.Mirrored) : next.Mirrored := by
  cases change with
  | moved event allowed =>
    refine ⟨rfl, fun asked => ?_⟩
    change (if face.exporter ∧ face.fsm.mv event ≠ face.published then
      face.exported ++ [face.fsm.mv event] else face.exported).getLast?.getD .idle = _
    split_ifs with told
    · rw [List.getLast?_append, List.getLast?_singleton]
      rfl
    · rw [mirrored.2 asked, ← mirrored.1]
      exact (not_not.mp fun other => told ⟨asked, other⟩).symm
  | _ => exact mirrored

namespace PeerLoop

variable {env : LoopEnv} {loop : PeerLoop}

def Mirrored (loop : PeerLoop) : Prop := loop.face.Mirrored

theorem Changed.mirrored {moves : Bool} {start : PeerLoop} (changed : loop.Changed moves start.face)
    (mirrored : start.Mirrored) : loop.Mirrored :=
  Face.invariant Face.Mirrored (fun _ _ => Face.Change.mirrored) changed mirrored

/-- A due tick of the keepalive timer finds a session that is idle or has seen an OPEN. -/
def Calm (loop : PeerLoop) : LoopInput → Prop
  | .keepaliveTimer => loop.keepaliveTimer.next ≤ loop.now →
      loop.fsm = .idle ∨ loop.fsm = .openConfirm ∨ loop.fsm = .established
  | _ => True

theorem Mirrored.keepaliveTimer (mirrored : loop.Mirrored) (calm : loop.Calm .keepaliveTimer) :
    (handleKeepaliveTimer env loop).2.Mirrored := by
  by_cases due : loop.keepaliveTimer.next ≤ loop.now
  swap
  · refine Spec.final (Spec.readState fun start same => ?_) (rfl : loop = loop)
    subst same
    rw [if_neg due]
    exact Spec.pure fun _ same => same ▸ mirrored
  rcases handleKeepaliveTimer_ticked loop with ⟨face, changes, ends⟩
  have kept := Face.invariant Face.Mirrored (fun _ _ => Face.Change.mirrored) changes mirrored
  -- the tick does not move the machine in these states
  have stays : face.fsm.mv Event.TIMER_KEEPALIVE_TIMER_EXPIRE = face.fsm := by
    have same : face.fsm = loop.fsm := Face.fsm_eq_of_quiet changes
    rcases calm due with state | state | state <;> rw [same, state] <;> rfl
  rw [stays, or_self] at ends
  rw [Mirrored, ends]
  exact kept

theorem handle_mirrored (loop : PeerLoop) (input : LoopInput) (mirrored : loop.Mirrored)
    (calm : loop.Calm input) : (handle env input loop).2.Mirrored := by
  cases input with
  | wait seconds => exact mirrored
  | keepaliveTimer => exact mirrored.keepaliveTimer calm
  | _ => exact (handle_changed loop _ (by simp) (by simp)).mirrored mirrored

/-- In every run in which the keepalive timer is not due while an OPEN is awaited, the published
state is that of the machine and the exporter was told it. -/
theorem run_mirrored {start : PeerLoop} (fresh : start.Fresh) {inputs : List LoopInput}
    (steps : AllSteps (apply env) Calm start inputs) : (run env start inputs).Mirrored := by
  refine foldl_invariant Mirrored (fun loop input mirrored calm => ?_) ?_ steps
  · unfold apply
    split_ifs
    · exact mirrored
    · exact handle_mirrored loop input mirrored calm
  · rcases fresh with ⟨info, routerId, capabilities, keepaliveTime, exporter, now, rfl⟩
    exact ⟨rfl, fun _ => rfl⟩

theorem run_mirrored_of_openConfirm : (run sampleLoopEnv sampleLoop
    [.admin .manualStart, .connected sampleActive,
      .message (.bgpOpen 50000 Bgp.BGP_PORT sampleOpen), .keepaliveTimer]).Mirrored :=
  run_mirrored ⟨_, _, _, _, _, _, rfl⟩
    ⟨trivial, trivial, trivial, fun _ => by decide +kernel, trivial⟩

/-- An OPEN starts the keepalive timer and cannot be answered, as its connection is gone.  The tick
finds that the OPEN is still awaited, and stops the machine alone. -/
theorem run_not_mirrored : ¬(run sampleLoopEnv sampleLoop
    [.admin .manualStart, .connected sampleActive,
      .message (.bgpOpen Bgp.BGP_PORT 50001 sampleOpen), .keepaliveTimer]).Mirrored := by
  intro mirrored
  exact absurd mirrored.1 (by decide +kernel)

end PeerLoop

end Sart
