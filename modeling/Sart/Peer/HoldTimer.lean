import Sart.Peer.Changes

/-!
# The hold timer of a peer

A tick of the hold timer compares the seconds since the neighbour was heard with the
interval of the timer, and sleeps for the rest of the negotiated hold time.  The interval
and the hold time are set in different handlers.  The neighbour is given up twenty seconds
after the interval, but after the hold time there is no rest to sleep for.

So a tick is safe as long as the neighbour is not silent for longer than the hold time.
`tick_after_silence` shows what happens otherwise: a neighbour that is silent from one tick to the
next is met with the subtraction that has no result.
-/

namespace Sart

open Sart.Lib Sart.Lib.Effect

namespace Timer

def Due (timer : Timer) (time : ℕ) : Prop := ∃ deadline ∈ timer.ticker, deadline ≤ time
  deriving Decidable

/-- The neighbour is not silent for longer than the hold time.  The silence starts with a message,
with a connection, or with the end of a session.  A timer that was never started has only the tick
it was made with, and that one has not come. -/
def HeardBy (timer : Timer) (holdTime time : ℕ) : Prop :=
  if timer.interval = 18446744073709551615 then ¬timer.Due time else time ≤ timer.last + holdTime
  deriving Decidable

structure Kept (timer : Timer) (holdTime negotiated now : ℕ) : Prop where
  holdTime_eq : holdTime = Bgp.DEFAULT_HOLD_TIME
  negotiated_le : negotiated ≤ Bgp.DEFAULT_HOLD_TIME
  interval_le : timer.interval = 18446744073709551615 ∨ timer.interval ≤ FAR
  le_interval : negotiated ≤ timer.interval
  heardBy : timer.HeardBy negotiated now

namespace Kept

variable {timer : Timer} {holdTime negotiated now : ℕ}

theorem restarted (kept : timer.Kept holdTime negotiated now) {other : Timer} {next time : ℕ}
    (interval_le : other.interval ≤ FAR) (le_interval : next ≤ other.interval)
    (next_le : next ≤ Bgp.DEFAULT_HOLD_TIME) (heard : time ≤ other.last + next) :
      other.Kept holdTime next time where
  holdTime_eq := kept.holdTime_eq
  negotiated_le := next_le
  interval_le := .inr interval_le
  le_interval := le_interval
  heardBy := by
    rw [HeardBy, if_neg (interval_le.trans_lt (by decide)).ne]
    exact heard

theorem heard (kept : timer.Kept holdTime negotiated now) :
    { timer with last := now }.Kept holdTime negotiated now := by
  refine { kept with heardBy := ?_ }
  have heardBy := kept.heardBy
  unfold HeardBy at heardBy ⊢
  split_ifs at heardBy ⊢
  · exact heardBy
  · exact Nat.le_add_right now negotiated

theorem ticked (kept : timer.Kept holdTime negotiated now) {ticker : List ℕ}
    (later : ∀ deadline ∈ ticker, deadline ∈ timer.ticker ∨ now < deadline) :
    { timer with ticker := ticker }.Kept holdTime negotiated now := by
  refine { kept with heardBy := ?_ }
  have heardBy := kept.heardBy
  unfold HeardBy at heardBy ⊢
  split_ifs at heardBy ⊢
  · rintro ⟨deadline, member, due⟩
    rcases later deadline member with old | new
    · exact heardBy ⟨deadline, old, due⟩
    · omega
  · exact heardBy

end Kept

end Timer

def Face.TimerKept (face : Face) : Prop :=
  face.holdTimer.Kept face.holdTime face.negotiatedHoldTime face.now

theorem Face.Change.timerKept {moves : Bool} {face next : Face} (change : Change moves face next)
    (kept : face.TimerKept) : next.TimerKept := by
  have least : face.holdTime ≤ Bgp.DEFAULT_HOLD_TIME := kept.holdTime_eq.le
  have near : Bgp.DEFAULT_HOLD_TIME ≤ Timer.FAR := by decide
  cases change with
  | moved event allowed => exact kept
  | disconnected waits =>
    refine kept.restarted le_rfl near le_rfl ?_
    change (if waits then face.now + 1 else face.now) ≤ face.now + 180
    split_ifs <;> omega
  | negotiated time bound =>
    exact kept.restarted ((bound.trans least).trans near) le_rfl (bound.trans least)
      (Nat.le_add_right face.now time)
  | unlimited =>
    exact kept.restarted le_rfl (kept.negotiated_le.trans near) kept.negotiated_le
      (Nat.le_add_right face.now _)
  | connected =>
    exact kept.restarted (least.trans near) (kept.negotiated_le.trans_eq kept.holdTime_eq.symm)
      kept.negotiated_le (Nat.le_add_right face.now _)
  | heard => exact kept.heard
  | ticked deadline => exact kept.ticked fun _ member => .inl (List.mem_of_mem_erase member)
  | slept seconds =>
    refine kept.ticked fun deadline member => ?_
    rcases List.mem_append.mp member with old | new
    · exact .inl old
    · rw [List.mem_singleton.mp new]
      exact .inr (by omega)

namespace PeerLoop

variable {env : LoopEnv} (loop : PeerLoop) (input : LoopInput)

def TimerKept (loop : PeerLoop) : Prop := loop.face.TimerKept

theorem Changed.timerKept {moves : Bool} {start loop : PeerLoop}
    (changed : loop.Changed moves start.face) (kept : start.TimerKept) : loop.TimerKept :=
  Face.invariant Face.TimerKept (fun _ _ => Face.Change.timerKept) changed kept

/-- The condition on the time that passes before the next event. -/
def Heard (loop : PeerLoop) : LoopInput → Prop
  | .wait seconds => loop.holdTimer.HeardBy loop.negotiatedHoldTime (loop.now + seconds)
  | _ => True

theorem handle_timerKept (kept : loop.TimerKept) (heard : loop.Heard input) :
    (handle env input loop).2.TimerKept := by
  cases input with
  | wait seconds => exact { kept with heardBy := heard }
  | keepaliveTimer =>
    rcases handleKeepaliveTimer_ticked loop with ⟨face, changes, ends⟩
    have kept := Face.invariant Face.TimerKept (fun _ _ => Face.Change.timerKept) changes kept
    change (handleKeepaliveTimer env loop).2.TimerKept
    unfold TimerKept
    rcases ends with same | same <;> rw [same] <;> exact kept
  | _ => exact (handle_changed loop _ (by simp) (by simp)).timerKept kept

/-- A tick computes with numbers of 64 bits, and gives the neighbour up or leaves a later tick. -/
structure TickSafe (env : LoopEnv) (loop : PeerLoop) (deadline : ℕ) : Prop where
  comparison : loop.holdTimer.interval + 20 < 18446744073709551616
  expires : loop.now - loop.holdTimer.last > loop.holdTimer.interval + 20 →
    handle env (.holdTimer deadline) loop = holdTimerExpire env
      { loop with holdTimer.ticker := loop.holdTimer.ticker.erase deadline }
  subtraction : loop.now - loop.holdTimer.last ≤ loop.holdTimer.interval + 20 →
    loop.now - loop.holdTimer.last ≤ loop.negotiatedHoldTime ∧
      loop.negotiatedHoldTime - (loop.now - loop.holdTimer.last) + 10 < 18446744073709551616
  sleeps : loop.now - loop.holdTimer.last ≤ loop.holdTimer.interval + 20 →
    ∃ later, handle env (.holdTimer deadline) loop = (.ok ⟨⟩, later) ∧
      ∃ tick ∈ later.holdTimer.ticker,
        loop.now < tick ∧ tick ≤ loop.now + (loop.negotiatedHoldTime + 10)

theorem handle_holdTimer_eq {loop : PeerLoop} {deadline : ℕ}
    (pending : deadline ∈ loop.holdTimer.ticker) (due : deadline ≤ loop.now)
    (comparison : ¬loop.holdTimer.interval + 20 ≥ 18446744073709551616) :
    handle env (.holdTimer deadline) loop =
      (if loop.now - loop.holdTimer.last > loop.holdTimer.interval + 20 then holdTimerExpire env
      else if loop.now - loop.holdTimer.last > loop.negotiatedHoldTime then Effect.lift .panic
      else Effect.modify fun other =>
        { other with
          holdTimer.ticker := other.holdTimer.ticker ++
            [other.now + (other.negotiatedHoldTime - (loop.now - loop.holdTimer.last) + 10)] })
      { loop with holdTimer.ticker := loop.holdTimer.ticker.erase deadline } := by
  change (if deadline ∈ loop.holdTimer.ticker ∧ deadline ≤ loop.now then _ else _ : LoopM PUnit)
    loop = _
  rw [if_pos ⟨pending, due⟩]
  change (if loop.holdTimer.interval + 20 ≥ 18446744073709551616 then _ else _ : LoopM PUnit) _ = _
  rw [if_neg comparison]
  rfl

theorem TimerKept.due {loop : PeerLoop} (kept : loop.TimerKept) {deadline : ℕ}
    (pending : deadline ∈ loop.holdTimer.ticker) (due : deadline ≤ loop.now) :
    ¬loop.holdTimer.interval + 20 ≥ 18446744073709551616 ∧
      loop.now ≤ loop.holdTimer.last + loop.negotiatedHoldTime := by
  have heardBy : loop.holdTimer.HeardBy loop.negotiatedHoldTime loop.now := kept.heardBy
  have small : Timer.FAR + 20 < 18446744073709551616 := by decide
  have started : loop.holdTimer.interval ≠ 18446744073709551615 := by
    intro never
    rw [Timer.HeardBy, if_pos never] at heardBy
    exact heardBy ⟨deadline, pending, due⟩
  have near : loop.holdTimer.interval ≤ Timer.FAR := kept.interval_le.resolve_left started
  rw [Timer.HeardBy, if_neg started] at heardBy
  exact ⟨by omega, heardBy⟩

theorem TimerKept.tickSafe {loop : PeerLoop} (kept : loop.TimerKept) {deadline : ℕ}
    (pending : deadline ∈ loop.holdTimer.ticker) (due : deadline ≤ loop.now) :
    TickSafe env loop deadline := by
  rcases kept.due pending due with ⟨comparison, heard⟩
  have small : loop.negotiatedHoldTime ≤ 180 := kept.negotiated_le
  have subtraction : loop.now - loop.holdTimer.last ≤ loop.negotiatedHoldTime :=
    Nat.sub_le_iff_le_add'.mpr heard
  have taken := @handle_holdTimer_eq env loop deadline pending due comparison
  refine ⟨by omega, fun silent => ?_, fun _ => ⟨subtraction, by omega⟩, fun within => ?_⟩
  · rw [taken, if_pos silent]
  rw [taken, if_neg (Nat.not_lt.mpr within), if_neg (Nat.not_lt.mpr subtraction)]
  refine ⟨_, rfl, _, List.mem_append_right _ (List.mem_singleton_self _), ?_⟩
  dsimp only
  omega

/-- A neighbour that is silent from one tick to the next is met with a tick that is not safe. -/
theorem tick_after_silence {loop : PeerLoop} (running : loop.ended = false) (kept : loop.TimerKept)
    (heard : loop.holdTimer.last ≤ loop.now) {deadline : ℕ}
    (pending : deadline ∈ loop.holdTimer.ticker) (due : deadline ≤ loop.now) :
    let later := run env loop [.holdTimer deadline,
      .wait (loop.negotiatedHoldTime - (loop.now - loop.holdTimer.last) + 10)]
    ∃ tick ∈ later.holdTimer.ticker, tick ≤ later.now ∧ ¬TickSafe env later tick := by
  rcases kept.due pending due with ⟨comparison, within⟩
  have wide : loop.negotiatedHoldTime ≤ loop.holdTimer.interval := kept.le_interval
  have taken := @handle_holdTimer_eq env loop deadline pending due comparison
  rw [if_neg (by omega), if_neg (by omega)] at taken
  simp only [run, List.foldl_cons, List.foldl_nil, apply, running, Bool.false_eq_true, if_false,
    taken]
  refine ⟨_, List.mem_append_right _ (List.mem_singleton_self _), le_rfl, fun safe => ?_⟩
  have subtraction : loop.now + (loop.negotiatedHoldTime - (loop.now - loop.holdTimer.last) + 10) -
      loop.holdTimer.last ≤ loop.negotiatedHoldTime :=
    (safe.subtraction (show loop.now + (loop.negotiatedHoldTime -
      (loop.now - loop.holdTimer.last) + 10) - loop.holdTimer.last ≤ loop.holdTimer.interval + 20
      by omega)).1
  omega

/-- In every run in which the neighbour is not silent for longer than the hold time, each due tick
is safe. -/
theorem run_tickSafe {start : PeerLoop} (fresh : start.Fresh) {inputs : List LoopInput}
    (steps : AllSteps (apply env) Heard start inputs) {deadline : ℕ}
    (pending : deadline ∈ (run env start inputs).holdTimer.ticker)
    (due : deadline ≤ (run env start inputs).now) :
    TickSafe env (run env start inputs) deadline := by
  have kept : (run env start inputs).TimerKept := by
    refine foldl_invariant TimerKept (fun loop input kept heard => ?_) ?_ steps
    · unfold apply
      split_ifs
      · exact kept
      · exact handle_timerKept loop input kept heard
    rcases fresh with ⟨info, routerId, capabilities, keepaliveTime, exporter, now, rfl⟩
    refine ⟨rfl, le_rfl, .inl rfl, (by decide : 180 ≤ 18446744073709551615), ?_⟩
    rintro ⟨deadline, member, due⟩
    rw [List.mem_singleton.mp member] at due
    exact absurd due (Nat.not_le.mpr (Nat.lt_add_of_pos_right (by decide)))
  exact kept.tickSafe pending due

theorem run_tickSafe_of_keepalive :
    TickSafe sampleLoopEnv (run sampleLoopEnv sampleLoop (sampleEstablish ++
      [.wait 60, .message (.keepAliveMsg 50000 Bgp.BGP_PORT), .wait 120])) 180 := by
  refine run_tickSafe ⟨_, _, _, _, _, _, rfl⟩ ?_ (by decide +kernel) (by decide +kernel)
  have pause : Timer.HeardBy (run sampleLoopEnv sampleLoop sampleEstablish).holdTimer 180 60 := by
    decide +kernel
  have rest : Timer.HeardBy (run sampleLoopEnv sampleLoop (sampleEstablish ++
      [.wait 60, .message (.keepAliveMsg 50000 Bgp.BGP_PORT)])).holdTimer 180 180 := by
    decide +kernel
  exact ⟨trivial, trivial, trivial, trivial, pause, trivial, rest, trivial⟩

/-- The tick at the end of the hold time finds the neighbour silent for that long and comes again
after ten seconds, and then it subtracts too much. -/
theorem run_not_tickSafe : ¬TickSafe sampleLoopEnv (run sampleLoopEnv sampleLoop (sampleEstablish ++
    [.wait 180, .holdTimer 180, .wait 10])) 190 := by
  intro safe
  have within := (safe.subtraction (by decide +kernel)).1
  exact absurd within (by decide +kernel)

end PeerLoop

end Sart
