import Sart.Lib.Table
import Sart.Server.Channels

/-!
# Waiting on channels

An event for the manager makes it send at most two messages to each peer.  So when there is room
for two messages in every channel before the event is taken, the server loop does not wait for a
peer.  It does not wait for itself when there is room for the event it passes on.
-/

namespace Sart

open Sart.Lib Sart.Lib.Effect

namespace Output

def isTo (peer : NeighborPair) : Output → Bool
  | .send other _ => other == peer
  | _ => false

end Output

def RibState.toldTo (peer : NeighborPair) (state : RibState) : ℕ :=
  state.sent.countP (Output.isTo peer)

theorem RibEvent.messages_le_two (event : RibEvent) : event.messages ≤ 2 := by
  cases event <;> simp [messages]

namespace RibManager

variable {env : Env} {peer : NeighborPair} {family : AddressFamily} {applyToFib : Bool}

abbrev Tells {α : Type} (peer : NeighborPair) (count : ℕ) (effect : RibM α) : Prop :=
  Grows (RibState.toldTo peer) count effect

theorem output_grows (out : Output) :
    Tells peer (if out.isTo peer then 1 else 0) (RibM.output env out) := by
  intro state
  have put : (state.put out).toldTo peer = state.toldTo peer + if out.isTo peer then 1 else 0 := by
    rw [RibState.toldTo, RibState.put, List.countP_append, List.countP_singleton]
    rfl
  unfold RibM.output
  split
  · exact put.le
  all_goals exact Nat.le_add_right _ _

theorem output_fib_grows (request : FibRequest) :
    Tells peer 0 (RibM.output env (.fib request)) :=
  output_grows _

theorem onLocRib_grows (call : LocRib → Except Error LocRibStatus × LocRib) :
    Tells peer 0 (RibM.onLocRib call) := by
  refine .of_same fun state => ?_
  unfold RibM.onLocRib
  split
  · rfl
  · rfl

theorem applyPath_grows (request : RibManager → Path → IpAddr → FibRequest) (path : Path) :
    Tells peer 0 (applyPath env applyToFib request path) := by
  unfold applyPath
  grind [output_fib_grows]

theorem applyRequest_grows (request : RibManager → FibRequest) :
    Tells peer 0 (applyRequest env applyToFib request) := by
  unfold applyRequest
  grind [output_fib_grows]

theorem installPath_grows (path : Path) : Tells peer 0
    (installPath env family applyToFib path) := by
  refine (onLocRib_grows _).after fun status => ?_
  cases status <;> grind [applyPath_grows]

theorem findPath_grows (pfx : IpNet) (id : UInt64) : Tells peer 0 (findPath family pfx id) := by
  unfold findPath
  grind

theorem dropPath_grows (pathId : IpNet × UInt64) :
    Tells peer 0 (dropPath env family applyToFib pathId) := by
  refine (onLocRib_grows _).after fun status => ?_
  cases status with
  | multiPathWithdrawn pfx id gateway =>
    cases gateway <;> grind [findPath_grows, applyRequest_grows]
  | _ => grind [findPath_grows, applyPath_grows, applyRequest_grows]

theorem forEach_peers_grows (rib : RibManager) {body : NeighborPair → RibM PUnit}
    (grows : ∀ other, Tells peer (if other = peer then 1 else 0) (body other)) :
    Tells peer 1 (Effect.forEach body rib.peers) := by
  refine (Grows.forEach grows rib.peers).mono ?_
  have once := List.nodup_iff_count_le_one.mp rib.peersTx.keys_nodup peer
  have counts : ∀ peers : List NeighborPair,
      (peers.map fun other => if other = peer then 1 else 0).sum = peers.count peer := by
    intro peers
    induction peers with
    | nil => rfl
    | cons other rest ih =>
      rw [List.map_cons, List.sum_cons, ih, List.count_cons, Nat.add_comm]
      simp
  rw [counts]
  exact once

theorem send_grows (other : NeighborPair) (event : RibEvent) :
    Tells peer (if other = peer then 1 else 0)
      (RibM.output env (.send other event)) := by
  have grows := @output_grows env peer (.send other event)
  simpa [Output.isTo] using grows

theorem advertise_grows (skip : RibManager → NeighborPair → PathKind → Bool)
    (changed : List (IpNet × UInt64)) :
    Tells peer 1 (advertise env family skip changed) := by
  refine .read fun rib => forEach_peers_grows rib fun other => .lift fun paths => ?_
  by_cases nothing : paths.isEmpty = true
  · rw [if_pos nothing]
    exact .pure
  · rw [if_neg nothing]
    exact send_grows other _

variable (neighbor : NeighborPair)

theorem withdraw_grows (withdrawn : List (IpNet × PathKind)) :
    Tells peer 1 (withdraw env neighbor withdrawn) := by
  refine .read fun rib => forEach_peers_grows rib fun other => ?_
  by_cases nothing : (rib.withdrawnFor neighbor other withdrawn).isEmpty = true
  · rw [if_pos nothing]
    exact .pure
  · rw [if_neg nothing]
    exact send_grows other _

theorem installPaths_grows (paths : List Path) :
    Tells peer 1 (installPaths env neighbor paths applyToFib) := by
  cases paths with
  | nil => exact .pure
  | cons first rest =>
    exact (Grows.collect installPath_grows _).after fun changed => advertise_grows _ changed

theorem dropPaths_grows (pathIds : List (IpNet × UInt64)) :
    Tells peer 2 (dropPaths env neighbor family pathIds applyToFib) := by
  refine (Grows.collect dropPath_grows pathIds).after fun notices => ?_
  exact (withdraw_grows neighbor _).bind fun _ => advertise_grows _ _

theorem init_grows : Tells peer 1 (init env family neighbor) := by
  refine .read fun rib => ?_
  cases rib.locRib.getAllBest family with
  | none => exact .pure
  | some paths =>
    dsimp only
    by_cases known : neighbor ∈ rib.peersTx
    · rw [if_pos known]
      refine (send_grows neighbor _).mono ?_
      split_ifs <;> omega
    · rw [if_neg known]
      exact .fail

theorem query_grows (view : RibManager → Option (List Path)) :
    Tells peer 0 (Effect.read RibState.rib >>= fun rib =>
      match view rib with
      | some paths => RibM.output env (.api paths)
      | none => pure ⟨⟩) := by
  refine .read fun rib => ?_
  cases view rib with
  | none => exact .pure
  | some paths => exact output_grows _

theorem modifyRib_grows (change : RibManager → RibManager) :
    Tells peer 0 (RibM.modifyRib change) :=
  .of_same fun _ => rfl

theorem handle_grows (event : RibEvent) : Tells peer event.messages (handle env event) := by
  cases event with
  | setAsn asn | setRouterId id | setMultiPath enable => exact modifyRib_grows _
  | addPeer neighbor =>
    refine .read fun rib => ?_
    split_ifs
    · exact .fail
    · exact modifyRib_grows _
  | deletePeer neighbor =>
    refine .read fun rib => ?_
    split_ifs
    · exact modifyRib_grows _
    · exact .fail
  | init family neighbor => exact init_grows neighbor
  | flush family neighbor => exact .pure
  | addPath networks attrs =>
    exact .read fun state => .lift fun paths => installPaths_grows _ paths
  | deletePath family networks => exact .read fun rib => dropPaths_grows _ _
  | installPaths neighbor paths => exact installPaths_grows neighbor paths
  | dropPaths neighbor family pathIds => exact dropPaths_grows neighbor pathIds
  | getPath family => exact query_grows fun rib => rib.locRib.getAll family
  | getPathByPrefix pfx family => exact query_grows fun rib => rib.locRib.get family pfx
  | advertise paths => exact .fail
  | withdraw networks => exact .fail

end RibManager

namespace Daemon

variable {daemon : Daemon} {channel : ℕ}

def queued (peers : List PeerTask) (channel : ℕ) : ℕ :=
  (peers[channel]?.map fun task => task.queue.length).getD 0

structure Fits (daemon : Daemon) : Prop where
  rib : daemon.ribQueue.length + daemon.waiting ≤ CAPACITY
  peers : ∀ channel, queued daemon.peers channel + daemon.pending.countP (Sending.isFor channel) ≤
    CAPACITY

structure Numbered (daemon : Daemon) : Prop where
  below : ∀ peer channel, daemon.registered.lookup peer = some channel → channel < daemon.seen
  injective : ∀ peer other channel, daemon.registered.lookup peer = some channel →
    daemon.registered.lookup other = some channel → peer = other

theorem Fits.not_deadlocked (fits : daemon.Fits) : ¬daemon.Deadlocked := by
  rintro (⟨event, rest, pending, full⟩ | ⟨channel, event, rest, task, pending, isTask, full, -, -⟩)
  · have room := fits.rib
    rw [waiting, pending, List.countP_cons_of_pos (by rfl)] at room
    omega
  have room := fits.peers channel
  rw [pending, List.countP_cons_of_pos (by simp [Sending.isFor])] at room
  simp only [queued, isTask, Option.map_some, Option.getD_some] at room
  omega

theorem queued_of_getElem? {peers : List PeerTask} {task : PeerTask}
    (isTask : peers[channel]? = some task) : queued peers channel = task.queue.length := by
  rw [queued, isTask]
  rfl

theorem queued_set {peers : List PeerTask} {old task : PeerTask}
    (isTask : peers[channel]? = some old)
    (other : ℕ) : queued (peers.set channel task) other =
      if other = channel then task.queue.length else queued peers other := by
  have inside := (List.getElem?_eq_some_iff.mp isTask).1
  by_cases same : other = channel
  · subst same
    simp [queued, inside]
  · simp [queued, same, Ne.symm same]

theorem queued_set_le {peers : List PeerTask} {old task : PeerTask}
    (isTask : peers[channel]? = some old) (shorter : task.queue.length ≤ old.queue.length)
    (other : ℕ) :
    queued (peers.set channel task) other ≤ queued peers other := by
  rw [queued_set isTask]
  split_ifs with same
  · rw [same, queued_of_getElem? isTask]
    exact shorter
  · exact le_refl _

theorem queued_start (peers : List PeerTask) (event : RibEvent) (other : ℕ) :
    queued (start peers event) other = queued peers other := by
  cases event with
  | addPeer neighbor =>
    rw [start, queued, queued]
    rcases Nat.lt_trichotomy other peers.length with inside | rfl | outside
    · rw [List.getElem?_append_left inside]
    · simp
    · rw [List.getElem?_eq_none (by simp; omega), List.getElem?_eq_none (by omega)]
  | _ => rfl

theorem waiting_sendings (registered : AList fun _ : NeighborPair => ℕ) (outputs : List Output) :
    (sendings registered outputs).countP Sending.isRib = 0 := by
  rw [List.countP_eq_zero]
  intro sending member
  rcases List.mem_filterMap.mp member with ⟨out, -, made⟩
  cases out with
  | send peer event =>
    rcases Option.map_eq_some_iff.mp made with ⟨channel, -, rfl⟩
    simp [Sending.isRib]
  | fib request => cases made
  | api paths => cases made

theorem countP_sendings_of_unowned {outputs : List Output}
    (unowned : ∀ peer, daemon.registered.lookup peer ≠ some channel) :
    (sendings daemon.registered outputs).countP (Sending.isFor channel) = 0 := by
  refine List.countP_eq_zero.mpr fun sending member counted => ?_
  rcases List.mem_filterMap.mp member with ⟨out, -, made⟩
  cases out with
  | send peer event =>
    rcases Option.map_eq_some_iff.mp made with ⟨number, found, rfl⟩
    simp only [Sending.isFor, beq_iff_eq] at counted
    exact unowned peer (counted ▸ found)
  | fib request => cases made
  | api paths => cases made

theorem countP_sendings_le (numbered : daemon.Numbered) (channel : ℕ) {outputs : List Output}
    {bound : ℕ}
    (most : ∀ peer, outputs.countP (Output.isTo peer) ≤ bound) :
    (sendings daemon.registered outputs).countP (Sending.isFor channel) ≤ bound := by
  by_cases owned : ∃ peer, daemon.registered.lookup peer = some channel
  · rcases owned with ⟨peer, isChannel⟩
    refine le_trans ?_ (most peer)
    rw [sendings, List.countP_filterMap]
    refine List.countP_mono_left fun out _ counted => ?_
    cases out with
    | send other event =>
      cases found : daemon.registered.lookup other with
      | none => simp [found] at counted
      | some number =>
        simp only [found, Option.map_some, Sending.isFor, Option.getD_some, beq_iff_eq] at counted
        subst counted
        simp [Output.isTo, numbered.injective other peer channel found isChannel]
    | fib request | api paths => simp at counted
  · rw [countP_sendings_of_unowned (not_exists.mp owned)]
    exact Nat.zero_le _

theorem Numbered.countP_onRibEvent_le (numbered : daemon.Numbered) (env : Env) (event : RibEvent)
    (rest : List RibEvent) (channel : ℕ) :
    (daemon.onRibEvent env event rest).pending.countP (Sending.isFor channel) ≤
      event.messages := by
  refine countP_sendings_le numbered channel fun peer => ?_
  have grown := @RibManager.handle_grows env peer event ⟨daemon.rib, []⟩
  simpa [RibState.toldTo] using grown

theorem register_cases (daemon : Daemon) (event : RibEvent) :
    (∃ neighbor, event = .addPeer neighbor ∧
      daemon.register event = daemon.registered.insert neighbor daemon.seen) ∨
    (∃ neighbor, daemon.register event = daemon.registered.erase neighbor) ∨
    daemon.register event = daemon.registered := by
  cases event with
  | addPeer neighbor =>
    rw [register]
    split_ifs
    · exact .inr (.inr rfl)
    · exact .inl ⟨neighbor, rfl, rfl⟩
  | deletePeer neighbor => exact .inr (.inl ⟨neighbor, rfl⟩)
  | _ => exact .inr (.inr rfl)

theorem Numbered.onRibEvent (numbered : daemon.Numbered) (env : Env) (event : RibEvent)
    (rest : List RibEvent) : (daemon.onRibEvent env event rest).Numbered := by
  have later : daemon.seen ≤ (daemon.onRibEvent env event rest).seen := by
    cases event <;> simp [Daemon.onRibEvent]
  have same : (daemon.onRibEvent env event rest).registered = daemon.register event := rfl
  rcases daemon.register_cases event with ⟨neighbor, rfl, inserted⟩ | ⟨neighbor, erased⟩ | kept
  · -- The new peer has a number that no other peer has.
    have fresh : ∀ peer channel, daemon.registered.lookup peer = some channel →
        channel ≠ daemon.seen :=
      fun peer channel found => (numbered.below peer channel found).ne
    have found : ∀ peer channel,
        (daemon.onRibEvent env (.addPeer neighbor) rest).registered.lookup peer = some channel ↔
          peer = neighbor ∧ channel = daemon.seen ∨
            peer ≠ neighbor ∧ daemon.registered.lookup peer = some channel := by
      intro peer channel
      rw [same, inserted, Lib.Table.lookup_insert]
      by_cases here : peer = neighbor
      · simp [here, eq_comm]
      · simp [here]
    refine ⟨fun peer channel known => ?_, fun peer other channel known known' => ?_⟩
    · rcases (found peer channel).mp known with ⟨-, rfl⟩ | ⟨-, old⟩
      · exact Nat.lt_succ_self _
      · exact (numbered.below peer channel old).trans_le later
    rcases (found peer channel).mp known with ⟨rfl, rfl⟩ | ⟨-, old⟩
    · rcases (found other daemon.seen).mp known' with ⟨rfl, -⟩ | ⟨-, old'⟩
      · rfl
      · exact absurd rfl (fresh other _ old')
    rcases (found other channel).mp known' with ⟨-, rfl⟩ | ⟨-, old'⟩
    · exact absurd rfl (fresh peer _ old)
    · exact numbered.injective peer other channel old old'
  · have old : ∀ peer channel,
        (daemon.onRibEvent env event rest).registered.lookup peer = some channel →
          daemon.registered.lookup peer = some channel := by
      intro peer channel known
      rw [same, erased] at known
      exact (Lib.Table.lookup_erase_eq_some.mp known).2
    refine ⟨fun peer channel known => ?_, fun peer other channel known known' => ?_⟩
    · exact (numbered.below peer channel (old peer channel known)).trans_le later
    · exact numbered.injective peer other channel (old peer channel known)
        (old other channel known')
  · refine ⟨fun peer channel found => ?_, ?_⟩
    · rw [same, kept] at found
      exact (numbered.below peer channel found).trans_le later
    · rw [same, kept]
      exact numbered.injective

inductive Stepped (daemon : Daemon) : DaemonStep → Daemon → Prop
  | unchanged {step : DaemonStep} : Stepped daemon step daemon
  | taken {event : ControlEvent} (idle : daemon.pending = []) :
      Stepped daemon (.control event) { daemon with
        server := daemon.server.handleEvent event
        pending := (daemon.server.request event).toList.map .rib }
  | handled {env : Env} {event : RibEvent} {rest : List RibEvent} (idle : daemon.pending = [])
      (queue : daemon.ribQueue = event :: rest) :
      Stepped daemon (.handle env) (daemon.onRibEvent env event rest)
  | requested {event : RibEvent} {rest : List Sending}
      (pending : daemon.pending = .rib event :: rest)
      (room : daemon.ribQueue.length < CAPACITY) :
      Stepped daemon .deliver { daemon with
        ribQueue := daemon.ribQueue ++ [event], pending := rest
        peers := start daemon.peers event }
  | skipped {sending : Sending} {rest : List Sending} (pending : daemon.pending = sending :: rest) :
      Stepped daemon .deliver { daemon with pending := rest }
  | told {channel : ℕ} {event : RibEvent} {rest : List Sending} {task : PeerTask}
      (pending : daemon.pending = .peer channel event :: rest)
      (isTask : daemon.peers[channel]? = some task) :
      Stepped daemon .deliver { daemon with
        pending := rest
        peers := daemon.peers.set channel { task with queue := task.queue ++ [event] } }
  | woken {channel : ℕ} {reports : List PeerReport} {task : PeerTask}
      (isTask : daemon.peers[channel]? = some task) :
      Stepped daemon (.wake channel reports) { daemon with
        peers := daemon.peers.set channel
          { task with reports := reports.map (PeerReport.event task.neighbor) } }
  | reported {channel : ℕ} {event : RibEvent} {rest : List RibEvent} {task : PeerTask}
      (isTask : daemon.peers[channel]? = some task) (room : daemon.ribQueue.length < CAPACITY) :
      Stepped daemon (.report channel) { daemon with
        ribQueue := daemon.ribQueue ++ [event]
        peers := daemon.peers.set channel { task with reports := rest } }
  | received {channel : ℕ} {task : PeerTask} (isTask : daemon.peers[channel]? = some task) :
      Stepped daemon (.receive channel) { daemon with
        peers := daemon.peers.set channel { task with queue := task.queue.tail } }

theorem step_stepped (daemon : Daemon) (step : DaemonStep) :
    daemon.Stepped step (daemon.step step) := by
  unfold Daemon.step
  cases step with
  | control event =>
    dsimp only
    split_ifs with idle
    · exact .taken idle
    · exact .unchanged
  | handle env =>
    dsimp only
    split
    · rename_i idle queue
      exact .handled idle queue
    · exact .unchanged
  | deliver =>
    dsimp only
    split
    · exact .unchanged
    · rename_i pending
      split_ifs with room
      · exact .requested pending room
      · exact .unchanged
    · rename_i pending
      split
      · exact .skipped pending
      rename_i isTask
      split_ifs
      · exact .told pending isTask
      · exact .unchanged
  | wake channel reports =>
    dsimp only
    split
    · exact .unchanged
    rename_i isTask
    split_ifs
    · exact .woken isTask
    · exact .unchanged
  | report channel =>
    dsimp only
    split
    · exact .unchanged
    rename_i isTask
    split
    · exact .unchanged
    split_ifs with room
    · exact .reported isTask room
    · exact .unchanged
  | receive channel =>
    dsimp only
    split
    · exact .unchanged
    rename_i isTask
    split_ifs
    · exact .received isTask
    · exact .unchanged

theorem Stepped.numbered {step : DaemonStep} {next : Daemon} (stepped : daemon.Stepped step next)
    (numbered : daemon.Numbered) : next.Numbered := by
  cases stepped with
  | handled idle queue => exact numbered.onRibEvent _ _ _
  | _ => exact ⟨numbered.below, numbered.injective⟩

theorem Stepped.fits {step : DaemonStep} {next : Daemon} (stepped : daemon.Stepped step next)
    (numbered : daemon.Numbered) (fits : daemon.Fits) (roomy : daemon.Roomy step) : next.Fits := by
  cases stepped with
  | unchanged => exact fits
  | @taken event idle =>
    have room := fits.rib
    refine ⟨?_, fun channel => ?_⟩
    · rw [waiting]
      cases asked : daemon.server.request event with
      | none => exact (Nat.le_add_right _ _).trans room
      | some request => exact roomy idle (by simp [asked])
    have none : ((daemon.server.request event).toList.map Sending.rib).countP
        (Sending.isFor channel) = 0 := by
      cases daemon.server.request event <;> rfl
    rw [none]
    exact (Nat.le_add_right _ _).trans (fits.peers channel)
  | @handled env event rest idle queue =>
    have room := fits.rib
    rw [queue] at room
    refine ⟨?_, fun channel => ?_⟩
    · have none : (daemon.onRibEvent env event rest).waiting = 0 := waiting_sendings _ _
      have shorter : (daemon.onRibEvent env event rest).ribQueue.length = rest.length := rfl
      rw [List.length_cons] at room
      omega
    by_cases owned : ∃ peer, daemon.registered.lookup peer = some channel
    swap
    · have none : (daemon.onRibEvent env event rest).pending.countP (Sending.isFor channel) = 0 :=
        countP_sendings_of_unowned (not_exists.mp owned)
      rw [none]
      exact (Nat.le_add_right _ _).trans (fits.peers channel)
    rcases owned with ⟨peer, isChannel⟩
    have free : queued daemon.peers channel + event.messages ≤ CAPACITY := by
      cases isTask : daemon.peers[channel]? with
      | none =>
        rw [queued, isTask]
        exact (Nat.zero_add _).trans_le (event.messages_le_two.trans (by decide))
      | some task =>
        rw [queued_of_getElem? isTask]
        exact roomy idle event (by simp [queue]) peer channel task isChannel isTask
    exact (Nat.add_le_add_left (numbered.countP_onRibEvent_le env event rest channel) _).trans free
  | @requested event rest pending room =>
    have both := fits.rib
    rw [waiting, pending, List.countP_cons_of_pos (by rfl)] at both
    refine ⟨?_, fun channel => ?_⟩
    · rw [waiting]
      dsimp only
      rw [List.length_append, List.length_singleton]
      omega
    have old := fits.peers channel
    rw [pending, List.countP_cons_of_neg (by simp [Sending.isFor])] at old
    rw [queued_start]
    exact old
  | @skipped sending rest pending =>
    have both := fits.rib
    rw [waiting, pending, List.countP_cons] at both
    refine ⟨?_, fun channel => ?_⟩
    · rw [waiting]
      dsimp only
      omega
    have old := fits.peers channel
    rw [pending, List.countP_cons] at old
    dsimp only
    omega
  | @told channel event rest task pending isTask =>
    have both := fits.rib
    rw [waiting, pending, List.countP_cons_of_neg (by simp [Sending.isRib])] at both
    refine ⟨both, fun other => ?_⟩
    have old := fits.peers other
    rw [pending, List.countP_cons] at old
    dsimp only
    rw [queued_set isTask]
    by_cases same : other = channel
    · subst same
      rw [queued_of_getElem? isTask] at old
      simp only [Sending.isFor, beq_self_eq_true, if_true] at old
      rw [if_pos rfl, List.length_append, List.length_singleton]
      omega
    · rw [if_neg same]
      omega
  | @woken channel reports task isTask =>
    refine ⟨fits.rib, fun other => le_trans ?_ (fits.peers other)⟩
    exact Nat.add_le_add_right (queued_set_le isTask (by exact le_refl _) other) _
  | @reported channel event rest task isTask room =>
    refine ⟨?_, fun other => ?_⟩
    · have left : daemon.waiting ≠ 0 → daemon.ribQueue.length + daemon.waiting < CAPACITY := roomy
      have same : daemon.pending.countP Sending.isRib = daemon.waiting := rfl
      rw [waiting]
      rw [List.length_append, List.length_singleton, same]
      by_cases none : daemon.waiting = 0
      · omega
      · have free := left none
        omega
    · refine le_trans ?_ (fits.peers other)
      exact Nat.add_le_add_right (queued_set_le isTask (by exact le_refl _) other) _
  | @received channel task isTask =>
    have shorter : task.queue.tail.length ≤ task.queue.length := by simp
    refine ⟨fits.rib, fun other => le_trans ?_ (fits.peers other)⟩
    exact Nat.add_le_add_right (queued_set_le isTask shorter other) _

theorem new_fits (asn : UInt32) (routerId : Ipv4Addr) (endpoint : Bool) (tableId : UInt8)
    (multiPath : Bool) : (new asn routerId endpoint tableId multiPath).Fits :=
  ⟨Nat.zero_le _, fun channel => by simp [new, queued]⟩

theorem new_numbered (asn : UInt32) (routerId : Ipv4Addr) (endpoint : Bool) (tableId : UInt8)
    (multiPath : Bool) : (new asn routerId endpoint tableId multiPath).Numbered := by
  refine ⟨fun peer channel found => ?_, fun peer other channel found => ?_⟩
  all_goals
    rw [new, AList.lookup_empty] at found
    cases found

/-- In every run whose steps meet the condition, the server loop neither waits for itself nor for a
peer that waits for it. -/
theorem not_deadlocked_of_roomy (asn : UInt32) (routerId : Ipv4Addr) (endpoint : Bool)
    (tableId : UInt8) (multiPath : Bool) {steps : List DaemonStep}
    (roomy : AllSteps step Roomy (new asn routerId endpoint tableId multiPath) steps) :
    ¬(steps.foldl step (new asn routerId endpoint tableId multiPath)).Deadlocked := by
  have kept := foldl_invariant (fun daemon : Daemon => daemon.Numbered ∧ daemon.Fits)
    (fun daemon step holds meets => ⟨(daemon.step_stepped step).numbered holds.1,
      (daemon.step_stepped step).fits holds.1 holds.2 meets⟩)
    ⟨new_numbered asn routerId endpoint tableId multiPath,
      new_fits asn routerId endpoint tableId multiPath⟩ roomy
  exact kept.2.not_deadlocked

def sampleDaemon : Daemon := new 65000 0x0a000002 false 254 false

def sampleNeighbor : NeighborPair := ⟨.v4 0x0a000001, 65001⟩

def sampleAdd : List DaemonStep := [.control (.addPeer sampleNeighbor), .deliver]

theorem not_deadlocked_sampleAdd : ¬(sampleAdd.foldl step sampleDaemon).Deadlocked :=
  not_deadlocked_of_roomy 65000 0x0a000002 false 254 false
    ⟨fun _ _ => by decide, trivial, trivial⟩

def sampleAnnounce : ControlEvent := .addPath [.v4 (.ofLength 0xc0a80000 24)] []

def sampleFill : List DaemonStep :=
  (List.replicate 128 [DaemonStep.control sampleAnnounce, .deliver]).flatten ++
    [.control sampleAnnounce]

/-- The server loop waits for itself. -/
theorem deadlocked_sampleFill : (sampleFill.foldl step sampleDaemon).Deadlocked := by
  refine .inl ⟨.addPath [.v4 ⟨0xc0a80000, 24, by decide⟩] [], [], ?_, ?_⟩
  all_goals decide +kernel

theorem Stepped.pending_le_two {step : DaemonStep} {next : Daemon}
    (stepped : daemon.Stepped step next) (numbered : daemon.Numbered) (channel : ℕ)
    (most : daemon.pending.countP (Sending.isFor channel) ≤ 2) :
    next.pending.countP (Sending.isFor channel) ≤ 2 := by
  cases stepped with
  | @taken event idle =>
    cases daemon.server.request event <;> exact Nat.zero_le 2
  | @handled env event rest idle queue =>
    exact (numbered.countP_onRibEvent_le env event rest channel).trans event.messages_le_two
  | requested pending | skipped pending | told pending =>
    rw [pending] at most
    exact ((List.sublist_cons_self _ _).countP_le).trans most
  | _ => exact most

/-- In every run at most two messages wait for the channel of a peer. -/
theorem run_pending_le_two (asn : UInt32) (routerId : Ipv4Addr) (endpoint : Bool) (tableId : UInt8)
    (multiPath : Bool) (steps : List DaemonStep) (channel : ℕ) :
    (steps.foldl step (new asn routerId endpoint tableId multiPath)).pending.countP
      (Sending.isFor channel) ≤ 2 := by
  have kept := List.foldlRecOn steps step (motive := fun daemon : Daemon =>
      daemon.Numbered ∧ daemon.pending.countP (Sending.isFor channel) ≤ 2)
    ⟨new_numbered asn routerId endpoint tableId multiPath, Nat.zero_le 2⟩
    fun daemon holds step _ => ⟨(daemon.step_stepped step).numbered holds.1,
      (daemon.step_stepped step).pending_le_two holds.1 channel holds.2⟩
  exact kept.2

end Daemon

end Sart
