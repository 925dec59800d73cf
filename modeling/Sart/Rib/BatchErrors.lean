import Sart.Rib.SplitHorizon

/-!
# Batches that fail

A batch changes the Loc-RIB element by element and tells the peers at the end.
When an element fails, what the elements before it changed stays in the table,
and no peer is told.  When a path that is to be announced was dropped again by the
same batch, the handler returns before the first announcement.
-/

namespace Sart

open Sart.Lib Sart.Lib.Effect

namespace Output

def announces (peer : NeighborPair) (pfx : IpNet) (id : UInt64) : Output → Bool
  | .send receiver (.advertise paths) =>
    receiver == peer && paths.any fun path => path.pfx == pfx && path.id == id
  | _ => false

def withdraws (peer : NeighborPair) (pfx : IpNet) : Output → Bool
  | .send receiver (.withdraw networks) => receiver == peer && networks.contains pfx
  | _ => false

end Output

namespace RibManager

open RibM

/-- A best-path change: a path to announce, or the last path of a network that went. -/
inductive Change where
  | announced (pfx : IpNet) (id : UInt64) (path : Path)
  | withdrawn (pfx : IpNet) (path : Path)

namespace Change

def pfx : Change → IpNet
  | announced pfx _ _ => pfx
  | withdrawn pfx _ => pfx

def path : Change → Path
  | announced _ _ path => path
  | withdrawn _ path => path

def notice : Change → Notice
  | announced pfx id _ => .advertise pfx id
  | withdrawn pfx path => .withdraw pfx path.kind

def Reached (rib : RibManager) (new : List Output) (change : Change) : Prop :=
  ∀ peer ∈ rib.peers, Offerable rib.asn peer change.path →
    ∃ out ∈ new, match change with
      | announced pfx id _ => out.announces peer pfx id
      | withdrawn pfx _ => out.withdraws peer pfx

def WithdrawnFrom (rib : RibManager) (neighbor peer : NeighborPair) : Change → Prop
  | announced _ _ _ => False
  | withdrawn _ path => rib.skips neighbor peer path.kind = false

instance (rib : RibManager) (neighbor peer : NeighborPair) : (change : Change) →
    Decidable (change.WithdrawnFrom rib neighbor peer)
  | announced _ _ _ => isFalse id
  | withdrawn _ _ => inferInstanceAs (Decidable (_ = _))

end Change

def insertChange (family : AddressFamily) (locRib : LocRib) (path : Path) : Option Change :=
  match (locRib.insert family path).1 with
  | .ok (.bestPathChanged pfx id) => some (.announced pfx id path)
  | _ => none

/-- The change a dropped path makes: its successor is announced, or it was the last one. -/
def dropChange (family : AddressFamily) (locRib : LocRib) (pathId : IpNet × UInt64) :
    Option Change :=
  match (locRib.drop family pathId.1 pathId.2).1 with
  | .ok (.bestPathChanged pfx id) =>
    ((locRib.drop family pathId.1 pathId.2).2.getById family pfx id).map (.announced pfx id)
  | .ok (.withdrawn pfx _) =>
    (locRib.getById family pathId.1 pathId.2).map (.withdrawn pfx)
  | _ => none

variable {entry : Change} {path : Path} {pathIds : List (IpNet × UInt64)}

variable {α : Type} (call : LocRib → α → LocRib) (change : LocRib → α → Option Change)

def changes : LocRib → List α → List Change
  | _, [] => []
  | locRib, item :: rest =>
    (change locRib item).toList ++ changes (call locRib item) rest

variable {call change}

theorem changes_append (locRib : LocRib) (items more : List α) :
    changes call change locRib (items ++ more) =
      changes call change locRib items ++ changes call change (items.foldl call locRib) more := by
  induction items generalizing locRib with
  | nil => rfl
  | cons item rest ih => simp [changes, ih]

theorem lt_of_mem_changes {ν : Type} [Preorder ν] (measure : LocRib → IpNet → ν)
    (keeps : ∀ locRib item pfx, measure locRib pfx ≤ measure (call locRib item) pfx)
    (raises : ∀ locRib item entry, change locRib item = some entry →
      measure locRib entry.pfx < measure (call locRib item) entry.pfx) {locRib : LocRib}
    {items : List α} (member : entry ∈ changes call change locRib items) :
    measure locRib entry.pfx < measure (items.foldl call locRib) entry.pfx := by
  have grows : ∀ (items : List α) (locRib : LocRib),
      measure locRib entry.pfx ≤ measure (items.foldl call locRib) entry.pfx := by
    intro items
    induction items with
    | nil => exact fun _ => le_rfl
    | cons item rest ih => exact fun locRib => (keeps locRib item entry.pfx).trans (ih _)
  induction items generalizing locRib with
  | nil => simp [changes] at member
  | cons item rest ih =>
    rcases List.mem_append.mp member with here | later
    · exact (raises locRib item entry (Option.mem_toList.mp here)).trans_le (grows rest _)
    · exact (keeps locRib item entry.pfx).trans_lt (ih later)

def insertCall (family : AddressFamily) (locRib : LocRib) (path : Path) : LocRib :=
  (locRib.insert family path).2

def dropCall (family : AddressFamily) (locRib : LocRib) (pathId : IpNet × UInt64) : LocRib :=
  (locRib.drop family pathId.1 pathId.2).2

def insertChanges (family : AddressFamily) : LocRib → List Path → List Change :=
  changes (insertCall family) (insertChange family)

def dropChanges (family : AddressFamily) : LocRib → List (IpNet × UInt64) → List Change :=
  changes (dropCall family) (dropChange family)

section Sizes

variable {family : AddressFamily} {locRib : LocRib}

def size (family : AddressFamily) (locRib : LocRib) (pfx : IpNet) : ℕ :=
  (locRib.paths family.afi pfx).length

theorem size_le_insertCall (path : Path) (pfx : IpNet) :
    size family locRib pfx ≤ size family (insertCall family locRib path) pfx := by
  refine LocRib.insert_forall (fun afi pfx list => (locRib.paths afi pfx).length ≤ list.length)
    (fun _ _ => le_rfl) ?_ family.afi pfx
  intro _ _ inserted
  have more := inserted.perm.length_eq
  simp only [List.length_map, List.length_cons] at more
  omega

theorem size_lt_insertCall (changed : insertChange family locRib path = some entry) :
    size family locRib entry.pfx < size family (insertCall family locRib path) entry.pfx := by
  unfold insertChange at changed
  rcases locRib.insert_cases family path with
    ⟨⟨cause, failed⟩, _⟩ | ⟨status, stored, returned, inserted, updated⟩
  · simp [failed] at changed
  have more := inserted.perm.length_eq
  simp only [List.length_map, List.length_cons] at more
  have grown : size family locRib path.pfx <
      size family (insertCall family locRib path) path.pfx := by
    unfold size insertCall
    rw [updated, if_pos ⟨rfl, rfl⟩]
    omega
  rw [returned] at changed
  cases inserted with
  | changed _ _ _ _ =>
    simp only [Option.some.injEq] at changed
    rw [← changed]
    exact grown
  | joined _ _ _ _ | placed _ _ _ => simp at changed

theorem size_dropCall_le (pathId : IpNet × UInt64) (pfx : IpNet) :
    size family (dropCall family locRib pathId) pfx ≤ size family locRib pfx := by
  refine LocRib.drop_forall (fun afi pfx list => list.length ≤ (locRib.paths afi pfx).length)
    (fun _ _ => le_rfl) ?_ family.afi pfx
  intro before removed after _ _ shape _ dropped
  have fewer := congrArg List.length dropped.map_unmarked
  rw [shape]
  simp only [List.length_map, List.length_append, List.length_cons] at fewer ⊢
  omega

end Sizes

section DropChange

variable {family : AddressFamily} {locRib : LocRib} {pathId : IpNet × UInt64}

theorem noticesOf_eq_change {status : LocRibStatus}
    (returned : (locRib.drop family pathId.1 pathId.2).1 = .ok status) :
    noticesOf status = (dropChange family locRib pathId).toList.map Change.notice := by
  have reports := LocRib.drop_reportsOn returned
  rcases LocRib.drop_ok returned with ⟨before, removed, after, stored, split, _, dropped, _⟩
  unfold dropChange
  rw [returned]
  cases dropped with
  | unchanged _ => rfl
  | emptied _ _ =>
    rw [LocRib.getById_of_splitById split]
    rfl
  | succeeded _ _ | recomputed _ _ _ _ =>
    rcases reports with ⟨_, head, leads, sameId⟩
    dsimp only
    rw [← sameId, LocRib.getById_of_head leads]
    rfl
  | left _ _ _ _ => rfl

theorem size_dropCall_lt (changed : dropChange family locRib pathId = some entry) :
    entry.pfx = pathId.1 ∧
      size family (dropCall family locRib pathId) entry.pfx < size family locRib entry.pfx := by
  unfold dropChange at changed
  rcases locRib.drop_cases family pathId.1 pathId.2 with
    ⟨⟨cause, failed⟩, _⟩ | ⟨before, removed, after, _, stored, split, returned, dropped, updated⟩
  · simp [failed] at changed
  have fewer := congrArg List.length dropped.map_unmarked
  have shrunk : size family (dropCall family locRib pathId) pathId.1 <
      size family locRib pathId.1 := by
    unfold size dropCall
    rw [updated, if_pos ⟨rfl, rfl⟩, (splitById_eq_some split).1]
    simp only [List.length_map, List.length_append, List.length_cons] at fewer ⊢
    omega
  rw [returned] at changed
  cases dropped with
  | unchanged _ | left _ _ _ _ => simp at changed
  | emptied _ _ | succeeded _ _ | recomputed _ _ _ _ =>
    rcases Option.map_eq_some_iff.mp changed with ⟨path, _, rfl⟩
    exact ⟨rfl, shrunk⟩

variable {pfx : IpNet}

theorem size_of_withdrawn (changed : dropChange family locRib pathId = some (.withdrawn pfx path)) :
    size family (dropCall family locRib pathId) pfx = 0 := by
  have here := (size_dropCall_lt changed).1
  unfold dropChange at changed
  rcases locRib.drop_cases family pathId.1 pathId.2 with
    ⟨⟨cause, failed⟩, _⟩ | ⟨before, removed, after, _, stored, split, returned, dropped, updated⟩
  · simp [failed] at changed
  rw [returned] at changed
  cases dropped with
  | unchanged _ | left _ _ _ _ | succeeded _ _ | recomputed _ _ _ _ => simp at changed
  | emptied _ _ =>
    unfold size dropCall
    rw [updated, if_pos ⟨rfl, here⟩, List.length_nil]

theorem size_foldl_dropCall_lt {change : Change}
    (member : change ∈ dropChanges family locRib pathIds) :
    size family (pathIds.foldl (dropCall family) locRib) change.pfx <
      size family locRib change.pfx :=
  lt_of_mem_changes (fun locRib pfx => OrderDual.toDual (size family locRib pfx))
    (fun _ pathId pfx => size_dropCall_le pathId pfx)
    (fun _ _ _ changed => (size_dropCall_lt changed).2) member

theorem withdrawn_unique {other : Path}
    (member : .withdrawn pfx path ∈ dropChanges family locRib pathIds)
    (otherMem : .withdrawn pfx other ∈ dropChanges family locRib pathIds) : path = other := by
  induction pathIds generalizing locRib with
  | nil => simp [dropChanges, changes] at member
  | cons pathId rest ih =>
    have once : ∀ path other, dropChange family locRib pathId = some (.withdrawn pfx path) →
        .withdrawn pfx other ∉ dropChanges family (dropCall family locRib pathId) rest := by
      intro path other changed later
      have shorter := size_foldl_dropCall_lt later
      have none := size_of_withdrawn changed
      simp only [Change.pfx, none] at shorter
      omega
    rcases List.mem_append.mp member with here | later <;>
      rcases List.mem_append.mp otherMem with here' | later'
    · rw [Option.mem_toList] at here here'
      rw [here, Option.some.injEq, Change.withdrawn.injEq] at here'
      exact here'.2
    · exact absurd later' (once path other (Option.mem_toList.mp here))
    · exact absurd later (once other path (Option.mem_toList.mp here'))
    · exact ih later later'

end DropChange

inductive Batch where
  | install (neighbor : NeighborPair) (paths : List Path)
  | drop (neighbor : NeighborPair) (family : AddressFamily) (pathIds : List (IpNet × UInt64))

/-- Why a batch failed, and the changes of the elements that did not make it fail. -/
structure Failure where
  /-- The withdrawals have gone out and a path to announce is missing. -/
  announcing : Bool
  others : List Change

namespace Batch

def event : Batch → RibEvent
  | install neighbor paths => .installPaths neighbor paths
  | drop neighbor family pathIds => .dropPaths neighbor family pathIds

def neighbor : Batch → NeighborPair
  | install neighbor _ => neighbor
  | drop neighbor _ _ => neighbor

def family : Batch → AddressFamily
  | install _ [] => .ipv4Unicast
  | install _ (first :: _) => first.family
  | drop _ family _ => family

def missing (family : AddressFamily) (locRib : LocRib) : Change → Bool
  | .announced pfx id _ => (locRib.getById family pfx id).isNone
  | .withdrawn _ _ => false

def withdrawals (env : Env) (neighbor : NeighborPair) (family : AddressFamily)
    (pathIds : List (IpNet × UInt64)) : RibM PUnit := do
  let notices ← collect (dropPath env family true) pathIds
  withdraw env neighbor (notices.filterMap Notice.withdraw?)

/-- How the batch fails because of one of its elements, if it does: the body of the loop fails
for it, or the path it made the best one was dropped again. -/
def failure (env : Env) (state : RibState) : Batch → Option Failure
  | install neighbor paths =>
    (firstFailure (installPath env (install neighbor paths).family true) state paths).map
      fun parts => ⟨false, insertChanges (install neighbor paths).family state.rib.locRib parts.1⟩
  | drop neighbor family pathIds =>
    match firstFailure (dropPath env family true) state pathIds with
    | some parts => some ⟨false, dropChanges family state.rib.locRib parts.1⟩
    | none =>
      let gone := missing family (pathIds.foldl (dropCall family) state.rib.locRib)
      let made := dropChanges family state.rib.locRib pathIds
      if (withdrawals env neighbor family pathIds state).1 = .ok ⟨⟩ ∧ made.any gone then
        some ⟨true, made.eraseP gone⟩
      else none

/-- When the batch fails because of one element, the change of every other element was undone
or all peers that may see it were told. -/
def KeepsChanges (env : Env) (state : RibState) (batch : Batch) : Prop :=
  ∀ cause final, handle env batch.event state = (.error cause, final) →
    ∀ failure ∈ batch.failure env state, ∀ change ∈ failure.others,
      final.rib.locRib.paths batch.family.afi change.pfx =
        state.rib.locRib.paths batch.family.afi change.pfx ∨
      change.Reached state.rib (final.sent.drop state.sent.length)

/-- The changes made before a failure concern no peer, except for withdrawals that went out to
all peers they concern. -/
def LosesNothing (env : Env) (state : RibState) (batch : Batch) : Prop :=
  ∀ failure ∈ batch.failure env state, ∀ change ∈ failure.others, ∀ peer ∈ state.rib.peers,
    Offerable state.rib.asn peer change.path → failure.announcing = true ∧
      change.WithdrawnFrom state.rib batch.neighbor peer
  deriving Decidable

end Batch

/-- The state after a loop body: the table is changed by the call, and only the FIB endpoint
was talked to. -/
structure Framed (locRib : LocRib) (state next : RibState) : Prop where
  rib : next.rib = { state.rib with locRib := locRib }
  sent : ∃ requests : List FibRequest, next.sent = state.sent ++ requests.map .fib

variable {state : RibState} {locRib : LocRib}

theorem Framed.fibStable :
    FibStable (Framed locRib state) := by
  rintro next request ⟨rib, requests, sent⟩
  exact ⟨rib, requests ++ [request], by simp [RibState.put, sent]⟩

theorem Framed.trans {locRib' : LocRib} {middle next : RibState}
    (first : Framed locRib state middle) (second : Framed locRib' middle next) :
    Framed locRib' state next := by
  rcases first.sent with ⟨requests, sent⟩
  rcases second.sent with ⟨requests', sent'⟩
  refine ⟨by rw [second.rib, first.rib], requests ++ requests', ?_⟩
  rw [sent', sent, List.map_append, List.append_assoc]

variable {env : Env} {family : AddressFamily} {applyToFib : Bool}

theorem withLocRib_framed (locRib : LocRib) : Framed locRib state (state.withLocRib locRib) :=
  ⟨rfl, [], by simp [RibState.withLocRib]⟩

theorem installPath_framed (path : Path) :
    Framed (insertCall family state.rib.locRib path) state
      (installPath env family applyToFib path state).2 := by
  have spec : Spec (fun start => start = state) (installPath env family applyToFib path)
      (fun _ => Framed (insertCall family state.rib.locRib path) state)
      (fun _ => Framed (insertCall family state.rib.locRib path) state) := by
    refine (installPath_spec (fun _ => Framed (insertCall family state.rib.locRib path) state)
      (fun _ => Framed.fibStable) ?_ ?_ ?_).implies ?_
    · rintro _ status rfl _
      exact withLocRib_framed _
    · rintro _ cause rfl _
      exact withLocRib_framed _
    · exact fun _ _ _ holds _ _ => holds
    · rintro _ next ⟨_, holds, _⟩
      exact holds
  exact spec.final rfl

theorem dropPath_framed (pathId : IpNet × UInt64) :
    Spec (fun start => start = state) (dropPath env family applyToFib pathId)
      (fun notices next => Framed (dropCall family state.rib.locRib pathId) state next ∧
        ∃ status, (state.rib.locRib.drop family pathId.1 pathId.2).1 = .ok status ∧
          notices = noticesOf status)
      (fun _ => Framed (dropCall family state.rib.locRib pathId) state) := by
  refine (dropPath_spec (fun status next =>
    Framed (dropCall family state.rib.locRib pathId) state next ∧
      (state.rib.locRib.drop family pathId.1 pathId.2).1 = .ok status) ?_ ?_ ?_ ?_).implies ?_
  · exact fun _ _ _ holds => ⟨Framed.fibStable _ _ holds.1, holds.2⟩
  · rintro _ status rfl returned
    exact ⟨withLocRib_framed _, returned⟩
  · rintro _ cause rfl _
    exact withLocRib_framed _
  · exact fun _ _ _ holds _ _ => holds.1
  · rintro _ next ⟨status, ⟨framed, returned⟩, rfl⟩
    exact ⟨framed, status, returned, rfl⟩

variable {β : Type} {body : α → RibM (List β)} {call : LocRib → α → LocRib} {items : List α}

theorem collect_framed
    (framed : ∀ item state, Framed (call state.rib.locRib item) state (body item state).2)
    {values : List β} {final : RibState}
    (returned : collect body items state = (.ok values, final)) :
    Framed (items.foldl call state.rib.locRib) state final := by
  induction items generalizing state values with
  | nil =>
    rcases returned with ⟨_, rfl⟩
    exact ⟨rfl, [], by simp⟩
  | cons item rest ih =>
    rcases collect_cons_ok returned with ⟨first, others, next, ran, ran', rfl⟩
    have here := framed item state
    rw [ran] at here
    have later := ih ran'
    rw [here.rib] at later
    exact here.trans later

theorem collect_framed_of_firstFailure
    (framed : ∀ item state, Framed (call state.rib.locRib item) state (body item state).2)
    {before after : List α} {item : α}
    (failure : firstFailure body state items = some (before, item, after)) :
    Framed ((before ++ [item]).foldl call state.rib.locRib) state
      (collect body items state).2 := by
  rcases collect_of_firstFailure failure with ⟨_, values, middle, returned, ends, _⟩
  have before' := collect_framed framed returned
  have here := framed item middle
  rw [before'.rib] at here
  rw [ends, List.foldl_append]
  exact before'.trans here

theorem installPath_calm (path : Path) : Calm (installPath env family applyToFib path) := by
  intro state final ran
  have spec : Spec (fun _ => True) (installPath env family applyToFib path) (fun _ _ => True)
      fun cause _ => cause ≠ none := by
    refine (installPath_spec (fun _ _ => True) ?_ ?_ ?_ ?_).implies fun _ _ _ => trivial
    all_goals simp [FibStable]
  exact spec.panics trivial ran rfl

theorem dropPath_calm (pathId : IpNet × UInt64) :
    Calm (dropPath env family applyToFib pathId) := by
  intro state final ran
  have spec : Spec (fun _ => True) (dropPath env family applyToFib pathId) (fun _ _ => True)
      fun cause _ => cause ≠ none := by
    refine (dropPath_spec (fun _ _ => True) ?_ ?_ ?_ ?_).implies fun _ _ _ => trivial
    all_goals simp [FibStable]
  exact spec.panics trivial ran rfl

namespace Batch

variable {final : RibState} {batch : Batch} {change : Change}

theorem reached_iff_of_framed (framed : Framed locRib state final) :
    change.Reached state.rib (final.sent.drop state.sent.length) ↔
      ∀ peer ∈ state.rib.peers, ¬Offerable state.rib.asn peer change.path := by
  rcases framed.sent with ⟨requests, sent⟩
  rw [sent, List.drop_left]
  unfold Change.Reached
  cases change <;> simp [Output.announces, Output.withdraws]

theorem keepsChanges_iff_of_loop {cause : Error} {others : List Change}
    (failed : batch.failure env state = some ⟨false, others⟩)
    (result : handle env batch.event state = (.error cause, final))
    (framed : Framed locRib state final)
    (committed : ∀ change ∈ others, locRib.paths batch.family.afi change.pfx ≠
      state.rib.locRib.paths batch.family.afi change.pfx) :
    batch.KeepsChanges env state ↔ batch.LosesNothing env state := by
  have table : final.rib.locRib = locRib := by rw [framed.rib]
  constructor
  · intro keeps failure isFailure change member peer registered offerable
    rw [failed, Option.mem_some_iff] at isFailure
    subst isFailure
    rcases keeps cause final result _ failed change member with undone | reached
    · rw [table] at undone
      exact absurd undone (committed change member)
    · rw [reached_iff_of_framed framed] at reached
      exact absurd offerable (reached peer registered)
  · intro loses cause' final' result' failure isFailure change member
    rw [result, Prod.mk.injEq] at result'
    rcases result' with ⟨_, rfl⟩
    refine .inr ((reached_iff_of_framed framed).mpr ?_)
    intro peer registered offerable
    have telling := (loses failure isFailure change member peer registered offerable).1
    rw [failed, Option.mem_some_iff] at isFailure
    rw [← isFailure] at telling
    cases telling

theorem keepsChanges_iff_of_no_failure (none : batch.failure env state = none) :
    batch.KeepsChanges env state ↔ batch.LosesNothing env state := by
  unfold KeepsChanges LosesNothing
  rw [none]
  simp

theorem changes_committed {α ν : Type} [Preorder ν] {call : LocRib → α → LocRib}
    {changeOf : LocRib → α → Option Change} (measure : ℕ → ν) (keeps : ∀ locRib item pfx,
      measure (size family locRib pfx) ≤ measure (size family (call locRib item) pfx))
    (raises : ∀ locRib item entry, changeOf locRib item = some entry →
      measure (size family locRib entry.pfx) < measure (size family (call locRib item) entry.pfx))
    {before after : List α} (member : change ∈ changes call changeOf locRib before) :
    ((before ++ after).foldl call locRib).paths family.afi change.pfx ≠
      locRib.paths family.afi change.pfx := by
  intro same
  have made : change ∈ changes call changeOf locRib (before ++ after) := by
    rw [changes_append]
    exact List.mem_append_left _ member
  have moved := lt_of_mem_changes (fun locRib pfx => measure (size family locRib pfx)) keeps raises
      made
  unfold size at moved
  rw [same] at moved
  exact moved.false

theorem insertChanges_committed {before after : List Path}
    (member : change ∈ insertChanges family locRib before) :
    ((before ++ after).foldl (insertCall family) locRib).paths family.afi change.pfx ≠
      locRib.paths family.afi change.pfx :=
  changes_committed id (fun _ path pfx => size_le_insertCall path pfx)
    (fun _ _ _ => size_lt_insertCall) member

theorem dropChanges_committed {before after : List (IpNet × UInt64)}
    (member : change ∈ dropChanges family locRib before) :
    ((before ++ after).foldl (dropCall family) locRib).paths family.afi change.pfx ≠
      locRib.paths family.afi change.pfx :=
  changes_committed OrderDual.toDual (fun _ pathId pfx => size_dropCall_le pathId pfx)
    (fun _ _ _ changed => (size_dropCall_lt changed).2) member

theorem install_keepsChanges_iff (neighbor : NeighborPair) (paths : List Path) :
    (install neighbor paths).KeepsChanges env state ↔
      (install neighbor paths).LosesNothing env state := by
  cases found : firstFailure (installPath env (install neighbor paths).family true) state paths with
  | none => exact keepsChanges_iff_of_no_failure (by simp [failure, found])
  | some parts =>
    cases paths with
    | nil => simp [firstFailure] at found
    | cons first rest =>
      rcases collect_error_of_firstFailure installPath_calm found with ⟨cause, final, ran⟩
      have framed := collect_framed_of_firstFailure
        (fun path state => installPath_framed path) found
      rw [ran] at framed
      have failed : (install neighbor (first :: rest)).failure env state =
          some ⟨false, insertChanges first.family state.rib.locRib parts.1⟩ := by
        rw [failure, found]
        rfl
      have result : handle env (install neighbor (first :: rest)).event state =
          (.error cause, final) := by
        simp only [event, handle, installPaths, bind_apply]
        change collect (installPath env first.family true) (first :: rest) state = _ at ran
        rw [ran]
      exact keepsChanges_iff_of_loop failed result framed
        fun change member => insertChanges_committed member

theorem drop_keepsChanges_iff_of_loop {neighbor : NeighborPair}
    {parts : List (IpNet × UInt64) × (IpNet × UInt64) × List (IpNet × UInt64)}
    (found : firstFailure (dropPath env family true) state pathIds = some parts) :
    (drop neighbor family pathIds).KeepsChanges env state ↔
      (drop neighbor family pathIds).LosesNothing env state := by
  rcases collect_error_of_firstFailure dropPath_calm found with ⟨cause, final, ran⟩
  have framed := collect_framed_of_firstFailure
    (fun pathId state => (dropPath_framed pathId).mono (fun _ _ holds => holds.1)
      (fun _ _ holds => holds) |>.final rfl) found
  rw [ran] at framed
  have failed : (drop neighbor family pathIds).failure env state =
      some ⟨false, dropChanges family state.rib.locRib parts.1⟩ := by
    rw [failure, found]
  have result : handle env (drop neighbor family pathIds).event state = (.error cause, final) := by
    simp only [event, handle, dropPaths, bind_apply, ran]
  exact keepsChanges_iff_of_loop failed result framed
    fun change member => dropChanges_committed member

end Batch

variable {neighbor : NeighborPair} {final : RibState}

theorem collect_dropPath {notices : List Notice}
    (returned : collect (dropPath env family true) pathIds state = (.ok notices, final)) :
    notices = (dropChanges family state.rib.locRib pathIds).map Change.notice := by
  induction pathIds generalizing state notices with
  | nil =>
    simp only [collect, pure_apply, Prod.mk.injEq, Outcome.ok.injEq] at returned
    simp [← returned.1, dropChanges, changes]
  | cons pathId rest ih =>
    rcases collect_cons_ok returned with ⟨first, others, next, ran, ran', rfl⟩
    rcases (dropPath_framed pathId).returns rfl ran with ⟨framed, status, isOk, rfl⟩
    have later := ih ran'
    rw [framed.rib] at later
    rw [later, noticesOf_eq_change isOk, ← List.map_append]
    rfl

def withdrawOutputs (rib : RibManager) (neighbor : NeighborPair)
    (withdrawn : List (IpNet × PathKind)) (peers : List NeighborPair) : List Output :=
  peers.filterMap fun peer =>
    if (rib.withdrawnFor neighbor peer withdrawn).isEmpty then none
    else some (.send peer (.withdraw (rib.withdrawnFor neighbor peer withdrawn)))

theorem withdraw_returns {withdrawn : List (IpNet × PathKind)}
    (returned : withdraw env neighbor withdrawn state = (.ok ⟨⟩, final)) :
    final.rib = state.rib ∧
      final.sent = state.sent ++ withdrawOutputs state.rib neighbor withdrawn state.rib.peers := by
  have spec : Spec (fun start => start = state) (withdraw env neighbor withdrawn)
      (fun _ next => next.rib = state.rib ∧ next.sent = state.sent ++
        withdrawOutputs state.rib neighbor withdrawn state.rib.peers) (fun _ _ => True) := by
    refine (withdraw_spec (fun rest next => next.rib = state.rib ∧
      next.sent ++ withdrawOutputs state.rib neighbor withdrawn rest = state.sent ++
        withdrawOutputs state.rib neighbor withdrawn state.rib.peers) ?_ ?_ ?_).conseq ?_ ?_
    · rintro next peer rest ⟨sameRib, sent⟩ none
      refine ⟨sameRib, ?_⟩
      rw [sameRib] at none
      simpa [withdrawOutputs, none] using sent
    · rintro next peer rest ⟨sameRib, sent⟩ some
      refine ⟨sameRib, ?_⟩
      rw [sameRib] at some ⊢
      simpa [withdrawOutputs, some, RibState.put] using sent
    · exact fun _ _ _ _ _ => trivial
    · rintro next rfl
      exact ⟨rfl, rfl⟩
    · rintro _ next ⟨sameRib, sent⟩
      exact ⟨sameRib, by simpa [withdrawOutputs] using sent⟩
  exact spec.returns rfl returned

variable {changed : List (IpNet × UInt64)} {rib : RibManager}

theorem advertised_eq_error {skip : PathKind → Bool} {entry : IpNet × UInt64}
    (member : entry ∈ changed) (missing : rib.locRib.getById family entry.1 entry.2 = none) :
    rib.advertised family skip changed = .error (.rib .pathNotFound) := by
  induction changed with
  | nil => simp at member
  | cons first rest ih =>
    rcases first with ⟨pfx, id⟩
    rw [advertised]
    rcases List.mem_cons.mp member with rfl | later
    · simp [missing]
    split
    · rfl
    · rw [ih later, Outcome.error_bind]

theorem advertise_of_missing {skip : RibManager → NeighborPair → PathKind → Bool}
    {entry : IpNet × UInt64} (member : entry ∈ changed)
    (missing : state.rib.locRib.getById family entry.1 entry.2 = none)
    (peered : state.rib.peers ≠ []) :
    advertise env family skip changed state = (.error (.rib .pathNotFound), state) := by
  rcases List.exists_cons_of_ne_nil peered with ⟨peer, rest, shape⟩
  simp only [advertise, bind_apply, Effect.read, shape, forEach, lift,
    advertised_eq_error member missing]

theorem reached_withdrawOutputs_iff {locRib : LocRib} {change : Change}
    (member : change ∈ dropChanges family locRib pathIds) (requests : List FibRequest) :
    change.Reached rib (requests.map .fib ++ withdrawOutputs rib neighbor
        (((dropChanges family locRib pathIds).map Change.notice).filterMap Notice.withdraw?)
        rib.peers) ↔
      ∀ peer ∈ rib.peers, Offerable rib.asn peer change.path →
        change.WithdrawnFrom rib neighbor peer := by
  refine forall₂_congr fun peer registered => imp_congr_right fun _ => ?_
  cases change with
  | announced pfx id path =>
    simp only [Change.WithdrawnFrom, iff_false]
    rintro ⟨out, outMem, tells⟩
    rcases List.mem_append.mp outMem with outMem | outMem
    · rcases List.mem_map.mp outMem with ⟨request, _, rfl⟩
      simp [Output.announces] at tells
    rcases List.mem_filterMap.mp outMem with ⟨other, _, sent⟩
    split_ifs at sent
    simp only [Option.some.injEq] at sent
    simp [← sent, Output.announces] at tells
  | withdrawn pfx path =>
    simp only [Change.WithdrawnFrom]
    constructor
    · rintro ⟨out, outMem, tells⟩
      rcases List.mem_append.mp outMem with outMem | outMem
      · rcases List.mem_map.mp outMem with ⟨request, _, rfl⟩
        simp [Output.withdraws] at tells
      rcases List.mem_filterMap.mp outMem with ⟨other, _, sent⟩
      split_ifs at sent
      simp only [Option.some.injEq] at sent
      subst sent
      simp only [Output.withdraws, Bool.and_eq_true, beq_iff_eq, List.contains_iff_mem] at tells
      rcases tells with ⟨rfl, listed⟩
      rcases List.mem_map.mp listed with ⟨⟨net, kind⟩, entryMem, rfl⟩
      rcases List.mem_filter.mp entryMem with ⟨entryMem, notSkipped⟩
      rcases List.mem_filterMap.mp entryMem with ⟨notice, noticeMem, isEntry⟩
      rcases List.mem_map.mp noticeMem with ⟨made, madeMem, rfl⟩
      cases made with
      | announced _ _ _ => simp [Change.notice, Notice.withdraw?] at isEntry
      | withdrawn net' path' =>
        rcases isEntry with ⟨rfl, rfl⟩
        rw [withdrawn_unique member madeMem]
        simpa using notSkipped
    · intro notSkipped
      have listed : pfx ∈ rib.withdrawnFor neighbor peer
          (((dropChanges family locRib pathIds).map Change.notice).filterMap
            Notice.withdraw?) := by
        refine List.mem_map.mpr ⟨(pfx, path.kind), List.mem_filter.mpr ⟨?_, by simpa⟩, rfl⟩
        refine List.mem_filterMap.mpr ⟨.withdraw pfx path.kind, ?_, rfl⟩
        exact List.mem_map.mpr ⟨.withdrawn pfx path, member, rfl⟩
      refine ⟨.send peer (.withdraw (rib.withdrawnFor neighbor peer _)),
        List.mem_append_right _ (List.mem_filterMap.mpr ⟨peer, registered, if_neg ?_⟩), ?_⟩
      · simpa using List.ne_nil_of_mem listed
      · simpa [Output.withdraws] using listed

namespace Batch

theorem drop_keepsChanges_iff_of_missing {neighbor : NeighborPair} {family : AddressFamily}
    {others : List Change} {gone : Change}
    (found : firstFailure (dropPath env family true) state pathIds = none)
    (told : (withdrawals env neighbor family pathIds state).1 = .ok ⟨⟩)
    (goneMem : gone ∈ dropChanges family state.rib.locRib pathIds)
    (isGone : missing family (pathIds.foldl (dropCall family) state.rib.locRib) gone = true)
    (failed : (drop neighbor family pathIds).failure env state = some ⟨true, others⟩)
    (included : ∀ change ∈ others, change ∈ dropChanges family state.rib.locRib pathIds) :
    (drop neighbor family pathIds).KeepsChanges env state ↔
      (drop neighbor family pathIds).LosesNothing env state := by
  rcases collect_of_no_failure found with ⟨notices, middle, ran⟩
  have shape := collect_dropPath ran
  have framed := collect_framed
    (fun pathId state => (dropPath_framed pathId).mono (fun _ _ holds => holds.1)
      (fun _ _ holds => holds) |>.final rfl) ran
  subst shape
  simp only [withdrawals, bind_apply, ran] at told
  rcases ran' : withdraw env neighbor
    (((dropChanges family state.rib.locRib pathIds).map Change.notice).filterMap Notice.withdraw?)
    middle with ⟨out, next⟩
  rw [ran'] at told
  subst told
  rcases withdraw_returns ran' with ⟨sameRib, sent⟩
  rcases framed.sent with ⟨requests, middleSent⟩
  have new : next.sent.drop state.sent.length = requests.map .fib ++
      withdrawOutputs state.rib neighbor (((dropChanges family state.rib.locRib pathIds).map
        Change.notice).filterMap Notice.withdraw?) state.rib.peers := by
    rw [sent, middleSent, framed.rib, List.append_assoc, List.drop_left]
    rfl
  have table : next.rib.locRib = pathIds.foldl (dropCall family) state.rib.locRib := by
    rw [sameRib, framed.rib]
  have result : state.rib.peers ≠ [] → handle env (drop neighbor family pathIds).event state =
      (.error (.rib .pathNotFound), next) := by
    intro peered
    cases gone with
    | withdrawn _ _ => simp [missing] at isGone
    | announced pfx id path =>
      have noPath : next.rib.locRib.getById family pfx id = none := by
        rw [table]
        simpa [missing] using isGone
      have entry : (pfx, id) ∈ ((dropChanges family state.rib.locRib pathIds).map
          Change.notice).filterMap Notice.advertise? :=
        List.mem_filterMap.mpr ⟨.advertise pfx id, List.mem_map.mpr ⟨_, goneMem, rfl⟩, rfl⟩
      have peered' : next.rib.peers ≠ [] := by
        rw [sameRib, framed.rib]
        exact peered
      simp only [event, handle, dropPaths, bind_apply, ran, ran']
      exact advertise_of_missing entry noPath peered'
  have committed : ∀ change ∈ others, next.rib.locRib.paths family.afi change.pfx ≠
      state.rib.locRib.paths family.afi change.pfx := by
    intro change member
    have shrunk : (pathIds.foldl (dropCall family) state.rib.locRib).paths family.afi change.pfx ≠
        state.rib.locRib.paths family.afi change.pfx := by
      rw [← List.append_nil pathIds]
      exact dropChanges_committed (included change member)
    rwa [← table] at shrunk
  constructor
  · intro keeps failure isFailure change member peer registered offerable
    rw [failed, Option.mem_some_iff] at isFailure
    subst isFailure
    have result := result (List.ne_nil_of_mem registered)
    rcases keeps _ next result _ failed change member with undone | reached
    · exact absurd undone (committed change member)
    · rw [new, reached_withdrawOutputs_iff (included change member)] at reached
      exact ⟨rfl, reached peer registered offerable⟩
  · intro loses cause final result' failure isFailure change member
    have changeMem := included change (by
      rw [failed, Option.mem_some_iff] at isFailure
      rwa [← isFailure] at member)
    by_cases peered : state.rib.peers = []
    · refine .inr fun peer registered => ?_
      rw [peered] at registered
      simp at registered
    rw [result peered, Prod.mk.injEq] at result'
    rcases result' with ⟨_, rfl⟩
    refine .inr ?_
    rw [new, reached_withdrawOutputs_iff changeMem]
    exact fun peer registered offerable =>
      (loses failure isFailure change member peer registered offerable).2

theorem drop_keepsChanges_iff (neighbor : NeighborPair) (family : AddressFamily)
    (pathIds : List (IpNet × UInt64)) : (drop neighbor family pathIds).KeepsChanges env state ↔
      (drop neighbor family pathIds).LosesNothing env state := by
  cases found : firstFailure (dropPath env family true) state pathIds with
  | some parts => exact drop_keepsChanges_iff_of_loop found
  | none =>
    by_cases fails : (withdrawals env neighbor family pathIds state).1 = .ok ⟨⟩ ∧
        (dropChanges family state.rib.locRib pathIds).any
          (missing family (pathIds.foldl (dropCall family) state.rib.locRib))
    · have failed : (drop neighbor family pathIds).failure env state =
          some ⟨true, (dropChanges family state.rib.locRib pathIds).eraseP
            (missing family (pathIds.foldl (dropCall family) state.rib.locRib))⟩ := by
        simp only [failure, found]
        exact if_pos fails
      rcases List.any_eq_true.mp fails.2 with ⟨gone, goneMem, isGone⟩
      exact drop_keepsChanges_iff_of_missing found fails.1 goneMem isGone failed
        fun change => List.mem_of_mem_eraseP
    refine keepsChanges_iff_of_no_failure ?_
    simp only [failure, found]
    exact if_neg fails

/-- From every state, a batch that fails because of one element keeps the changes of the
others, by undoing them or by telling every peer that may see them, exactly when there is
nothing to tell: the changes made before the failure concern no registered peer, or they are
withdrawals that have gone out. -/
theorem keepsChanges_iff_losesNothing (env : Env) (state : RibState) (batch : Batch) :
    batch.KeepsChanges env state ↔ batch.LosesNothing env state := by
  cases batch with
  | install neighbor paths => exact install_keepsChanges_iff neighbor paths
  | drop neighbor family pathIds => exact drop_keepsChanges_iff neighbor family pathIds

def sampleExporter : RibManager :=
  { sampleRib false with
    endpoint := true
    peersTx := (AList.singleton (sampleNeighbor 0x0a000001 65001) ()).insert
      (sampleNeighbor 0x0a000002 65002) () }

/-- The FIB takes one request and is gone for the next. -/
def sampleRefusal : Env :=
  { sampleEnv with refuses := fun sent output =>
      match output with
      | .fib _ => if sent = [] then none else some ⟨14⟩
      | _ => none }

/-- The FIB refuses the second path of a batch: the first one is installed, but the other peer is
not told. -/
theorem not_keepsChanges :
    ¬∀ batch : Batch, batch.KeepsChanges sampleRefusal (.start sampleExporter) := by
  intro claim
  have keeps := claim (.install (sampleNeighbor 0x0a000001 65001)
    [samplePath 1 0x0a000001 65001 100 [65001],
      { samplePath 1 0x0a000001 65001 100 [65001] with pfx := .v4 (.ofLength 0x0a000100 24) }])
  rw [install_keepsChanges_iff] at keeps
  revert keeps
  decide

end Batch

end RibManager

end Sart
