import Sart.Rib.BestPath

/-!
# What a call on the Loc-RIB can do

The manager acts on the status a call on the Loc-RIB returns.  `Inserted` and `Dropped`
say once, for each status, what the list of the network looks like afterwards: which
path leads, which carry the best mark, and that up to marks and time stamps one path
was added or taken away.  Everything about the manager is derived from these cases.
-/

namespace Sart

open Sart.Lib

variable {path : Path} {paths others before after stored : List Path} {multiPath : Bool}
  {status : LocRibStatus} {pfx : IpNet}

namespace Path

def ageless (path : Path) : Path := { path with reason := .notBest, timestamp := 0 }

variable {other : Path}

theorem unmarked_of_ageless (same : path.ageless = other.ageless) :
    path.unmarked = other.unmarked := by
  have stripped : path.ageless.unmarked = other.ageless.unmarked := by rw [same]
  exact stripped

theorem best_of_ageless (same : path.ageless = other.ageless) : path.best = other.best := by
  have kept : path.ageless.best = other.ageless.best := by rw [same]
  exact kept

theorem id_of_unmarked (same : path.unmarked = other.unmarked) : path.id = other.id := by
  have ids : path.unmarked.id = other.unmarked.id := by rw [same]
  exact ids

theorem pfx_of_unmarked (same : path.unmarked = other.unmarked) : path.pfx = other.pfx := by
  have nets : path.unmarked.pfx = other.unmarked.pfx := by rw [same]
  exact nets

@[simp]
theorem ageless_refresh (path stored : Path) : (path.refresh stored).ageless = stored.ageless := by
  unfold refresh
  split <;> rfl

@[simp]
theorem unmarked_markBest (path : Path) (reason : BestPathReason) :
    (path.markBest reason).unmarked = path.unmarked := rfl

end Path

theorem map_unmarked_of_map_unmark (same : others.map Path.unmark = paths.map Path.unmark) :
    others.map Path.unmarked = paths.map Path.unmarked := by
  have stripped : (others.map Path.unmark).map Path.unmarked =
      (paths.map Path.unmark).map Path.unmarked := by rw [same]
  rw [List.map_map, List.map_map] at stripped
  exact stripped

theorem map_unmarked_of_map_ageless (same : others.map Path.ageless = paths.map Path.ageless) :
    others.map Path.unmarked = paths.map Path.unmarked := by
  have stripped : (others.map Path.ageless).map Path.unmarked =
      (paths.map Path.ageless).map Path.unmarked := by rw [same]
  rw [List.map_map, List.map_map] at stripped
  exact stripped

/-- With multipath, a path that displaces the best ones is placed before all of them.  The
walk of `insert` does not ensure it. -/
def LeadsOrFollows (multiPath : Bool) (path : Path) (paths : List Path) : Prop :=
  multiPath = true → ∀ bestIdx ∈ rposition Path.best paths,
    position multiPath path paths ≤ bestIdx → position multiPath path paths = 0
  deriving Decidable

/-- The outcomes of an insertion.  `others` are the stored paths as they are left. -/
inductive Inserted (multiPath : Bool) (path : Path) (paths : List Path) :
    Except Error LocRibStatus → List Path → Prop
  | failed (nonempty : paths ≠ []) (unmarked : ∀ stored ∈ paths, stored.best = false) :
      Inserted multiPath path paths (.error (.rib .pathNotFound)) paths
  | changed {others : List Path} {reason : BestPathReason}
      (same : others.map Path.unmarked = paths.map Path.unmarked)
      (lead : LeadsOrFollows multiPath path paths → position multiPath path paths = 0)
      (bound : position multiPath path paths ≤ others.length)
      (demoted : multiPath = true ∨ OnlyHeadBest paths → ∀ stored ∈ others, stored.best = false) :
      Inserted multiPath path paths (.ok (.bestPathChanged path.pfx path.id))
        (others.insertIdx (position multiPath path paths) (path.markBest reason))
  | joined {front back : List Path} {last : Path} (multi : multiPath = true)
      (same : (front ++ last :: back).map Path.ageless = paths.map Path.ageless)
      (best : last.best = true) (later : ∀ stored ∈ back, stored.best = false) :
      Inserted multiPath path paths (.ok .multiPathAdded)
        (front ++ last :: path.markBest .equalCostMiltiPath :: back)
  | placed {front back : List Path}
      (same : (front ++ back).map Path.ageless = paths.map Path.ageless) (behind : front ≠ [])
      (later : multiPath = true → ∀ stored ∈ back, stored.best = false) :
      Inserted multiPath path paths (.ok .notChanged) (front ++ path :: back)

theorem position_le_length (multiPath : Bool) (path : Path) (paths : List Path) :
    position multiPath path paths ≤ paths.length := by
  have bound : (paths.map path.refresh).findIdx (prefersPath multiPath path) ≤
      (paths.map path.refresh).length := List.findIdx_le_length
  simpa [position] using bound

theorem map_ageless_map_refresh (path : Path) (paths : List Path) :
    (paths.map path.refresh).map Path.ageless = paths.map Path.ageless := by
  simp [List.map_map, Function.comp_def]

variable {index : ℕ} {cause : Error}

theorem Inserted.placed_insertIdx (same : others.map Path.ageless = paths.map Path.ageless)
    (behind : 0 < index) (bound : index ≤ others.length)
    (later : multiPath = true → ∀ stored ∈ others.drop index, stored.best = false) :
    Inserted multiPath path paths (.ok .notChanged) (others.insertIdx index path) := by
  have placement : others.insertIdx index path =
      others.take index ++ path :: others.drop index := by
    have moved := insertIdx_length_append (others.take index) (others.drop index) path
    rwa [List.take_append_drop, List.length_take_of_le bound] at moved
  rw [placement]
  refine .placed (by rwa [List.take_append_drop]) ?_ later
  intro none
  have := congrArg List.length none
  simp only [List.length_take_of_le bound, List.length_nil] at this
  omega

theorem unmarked_of_mem_drop {stored value : Path} (lastBest : ∀ later ∈ after, later.best = false)
    (behind : before.length < index)
    (member : stored ∈ ((before ++ value :: after).map path.refresh).drop index) :
    stored.best = false := by
  rw [← List.map_drop] at member
  rcases List.mem_map.mp member with ⟨old, oldMem, rfl⟩
  rw [Path.refresh_best]
  apply lastBest
  rcases Nat.exists_eq_add_of_lt behind with ⟨skipped, rfl⟩
  rw [Nat.add_assoc, List.drop_append, List.drop_of_length_le (by omega), List.nil_append,
    Nat.add_sub_cancel_left, List.drop_succ_cons] at oldMem
  exact List.mem_of_mem_drop oldMem

theorem insertInto_inserted (multiPath : Bool) (path : Path) (paths : List Path) :
    Inserted multiPath path paths (insertInto multiPath path paths).1
      (insertInto multiPath path paths).2 := by
  by_cases empty : paths = []
  · subst empty
    have first := @Inserted.changed multiPath path [] [] .onlyPath rfl (fun _ => rfl)
      (by simp [position]) (by simp)
    simpa [insertInto, position] using first
  have refreshed := map_ageless_map_refresh path paths
  have index : (selectPosition multiPath path (paths.map path.refresh)).1 =
      position multiPath path paths := selectPosition_fst multiPath path _
  have bound := position_le_length multiPath path paths
  have nonempty : paths.isEmpty = false := List.isEmpty_eq_false_iff.mpr empty
  cases found : rposition Path.best paths with
  | none =>
    simp only [insertInto, nonempty, found, Bool.false_eq_true, if_false]
    exact .failed empty (rposition_eq_none_iff.mp found)
  | some bestIdx =>
    rcases rposition_eq_some found with ⟨before, value, after, rfl, rfl, best, lastBest⟩
    simp only [insertInto, nonempty, found, index, Bool.false_eq_true, if_false]
    split_ifs with multi displaced next equalCost front
    · refine .changed ?_ (fun leads => leads multi _ found displaced) (by simpa using bound) ?_
      · apply map_unmarked_of_map_unmark _ |>.trans (map_unmarked_of_map_ageless refreshed)
        exact map_unmark_demote _
      rintro - stored storedMem
      rcases List.mem_map.mp storedMem with ⟨old, _, rfl⟩
      split
      · rfl
      · rename_i unmarked
        simpa using unmarked
    · have joined := @Inserted.joined multiPath path (before ++ value :: after)
        (before.map path.refresh) (after.map path.refresh) (path.refresh value).joinEqualCost
        multi ?_ ?_ ?_
      · have modified := modify_length_append (before.map path.refresh)
          (after.map path.refresh) (path.refresh value) Path.joinEqualCost
        have inserted := insertIdx_length_append
          (before.map path.refresh ++ [(path.refresh value).joinEqualCost])
          (after.map path.refresh) (path.markBest .equalCostMiltiPath)
        simp only [List.length_map, List.length_append, List.length_cons, List.length_nil,
          List.append_assoc, List.singleton_append, Nat.zero_add] at modified inserted
        rw [← next, List.map_append, List.map_cons, modified, inserted]
        exact joined
      · rw [← refreshed]
        simp [Path.joinEqualCost, Path.ageless]
      · exact (Path.refresh_best path value).trans best
      · intro stored storedMem
        rcases List.mem_map.mp storedMem with ⟨old, oldMem, rfl⟩
        exact (Path.refresh_best path old).trans (lastBest old oldMem)
    · exact .placed_insertIdx refreshed (by omega) (by simpa using bound)
        fun _ stored => unmarked_of_mem_drop lastBest (by omega)
    · exact .placed_insertIdx refreshed (by omega) (by simpa using bound)
        fun _ stored => unmarked_of_mem_drop lastBest (by omega)
    · have changed := @Inserted.changed multiPath path (before ++ value :: after)
        (((before ++ value :: after).map path.refresh).modify 0 Path.unmark)
        (selectPosition multiPath path ((before ++ value :: after).map path.refresh)).2 ?_
        (fun _ => front) (by simpa using bound) ?_
      · rwa [front] at changed
      · apply map_unmarked_of_map_unmark _ |>.trans (map_unmarked_of_map_ageless refreshed)
        exact map_unmark_modify Path.unmark (fun _ => rfl) _ _
      · rintro (multi' | onlyHead)
        · exact absurd multi' multi
        rcases List.exists_cons_of_ne_nil empty with ⟨head, tail, shape⟩
        rw [shape] at onlyHead ⊢
        intro stored storedMem
        simp only [List.map_cons, List.modify_zero_cons, List.mem_cons] at storedMem
        rcases storedMem with rfl | storedMem
        · rfl
        rcases List.mem_map.mp storedMem with ⟨old, oldMem, rfl⟩
        rw [Path.refresh_best]
        exact onlyHead old oldMem
    · exact .placed_insertIdx refreshed (Nat.pos_of_ne_zero front) (by simpa using bound)
        fun multi' => absurd multi' multi

/-- The path `next` takes over from a removed best path, and the call reports it.  With
multipath this is not so while other best paths remain. -/
def Succeeds (multiPath : Bool) (before : List Path) (removed : Path) (after : List Path)
    (next : Path) : Prop :=
  removed.best = true ∧ (before ++ after).head? = some next ∧
    (multiPath = true → 2 ≤ (before ++ after).length → before = [] ∧ next.best = false)
  deriving Decidable

inductive Dropped (multiPath : Bool) (pfx : IpNet) (before : List Path) (removed : Path)
    (after : List Path) : LocRibStatus → List Path → Prop
  | unchanged (notBest : removed.best = false) :
      Dropped multiPath pfx before removed after .notChanged (before ++ after)
  | emptied (best : removed.best = true) (none : before ++ after = []) :
      Dropped multiPath pfx before removed after (.withdrawn pfx removed.kind) []
  | succeeded {next : Path} {rest : List Path} {reason : BestPathReason}
      (succeeds : Succeeds multiPath before removed after next)
      (shape : before ++ after = next :: rest) :
      Dropped multiPath pfx before removed after (.bestPathChanged pfx next.id)
        (next.markBest reason :: rest)
  | recomputed {next second : Path} {rest : List Path} {reason : BestPathReason}
      (succeeds : Succeeds multiPath before removed after next)
      (shape : before ++ after = next :: second :: rest) (multi : multiPath = true)
      (tied : firstLess multiPath next second = none) :
      Dropped multiPath pfx before removed after (.bestPathChanged pfx next.id)
        (markEqualCost (next.markBest reason) (second :: rest))
  | left {next : Path} {rest : List Path} (best : removed.best = true)
      (shape : before ++ after = next :: rest) (multi : multiPath = true)
      (several : rest ≠ []) (remains : before = [] → next.best = true) :
      Dropped multiPath pfx before removed after
        (.multiPathWithdrawn pfx next.id removed.nextHops.head?) (before ++ after)

theorem dropFrom_dropped (multiPath : Bool) (pfx : IpNet) (before : List Path)
    (removed : Path) (after : List Path) :
    Dropped multiPath pfx before removed after
      (dropFrom multiPath pfx before removed after).1
      (dropFrom multiPath pfx before removed after).2 := by
  cases removedBest : removed.best with
  | false =>
    simp only [dropFrom, removedBest, Bool.false_eq_true, if_false]
    exact .unchanged removedBest
  | true =>
    unfold dropFrom
    simp only [removedBest, if_true]
    split
    · rename_i none
      exact .emptied removedBest none
    · rename_i only single
      refine .succeeded ⟨removedBest, by simp [single], ?_⟩ single
      simp [single]
    · rename_i first second rest several
      split_ifs with multi front firstBest tied
      · exact .left removedBest several multi (by simp) fun _ => firstBest
      · have succeeds : Succeeds multiPath before removed after first := by
          refine ⟨removedBest, by simp [several], fun _ _ => ⟨?_, by simpa using firstBest⟩⟩
          simpa using front
        have tied' : firstLess multiPath first second = none := by
          cases found : firstLess multiPath first second with
          | none => rfl
          | some reason =>
            simp only [Path.markBest, found, Option.getD_some] at tied
            have different := firstLess_some_reason found
            exact absurd tied (by simp [different])
        exact .recomputed succeeds several multi tied'
      · have succeeds : Succeeds multiPath before removed after first := by
          refine ⟨removedBest, by simp [several], fun _ _ => ⟨?_, by simpa using firstBest⟩⟩
          simpa using front
        exact .succeeded succeeds several
      · refine .left removedBest several multi (by simp) ?_
        rintro rfl
        simp at front
      · exact .succeeded ⟨removedBest, by simp [several], fun multi' => absurd multi' multi⟩
          several

theorem head_markEqualCost (current : Path) (paths : List Path) :
    ∃ head, (markEqualCost current paths).head? = some head ∧ head.ageless = current.ageless := by
  cases paths with
  | nil => exact ⟨current, rfl, rfl⟩
  | cons next rest =>
    unfold markEqualCost
    split
    · exact ⟨current.joinEqualCost, rfl, rfl⟩
    · exact ⟨current, rfl, rfl⟩

theorem Inserted.perm (inserted : Inserted multiPath path paths (.ok status) stored) :
    (stored.map Path.unmarked).Perm (path.unmarked :: paths.map Path.unmarked) := by
  cases inserted with
  | changed same _ bound _ =>
    rw [List.map_insertIdx, same, Path.unmarked_markBest]
    refine List.perm_insertIdx _ _ ?_
    rw [← same]
    simpa using bound
  | @joined front back last _ same _ _ =>
    rw [← map_unmarked_of_map_ageless same]
    have moved : ((front ++ [last]).map Path.unmarked ++ path.unmarked ::
        back.map Path.unmarked).Perm (path.unmarked ::
          ((front ++ [last]).map Path.unmarked ++ back.map Path.unmarked)) := List.perm_middle
    simpa using moved
  | placed same _ _ =>
    rw [← map_unmarked_of_map_ageless same, List.map_append, List.map_append, List.map_cons]
    exact List.perm_middle

theorem Inserted.of_error (inserted : Inserted multiPath path paths (.error cause) stored) :
    stored = paths := by
  cases inserted
  rfl

theorem Inserted.unmarked_of_error (inserted : Inserted multiPath path paths
    (.error cause) stored) :
    paths ≠ [] ∧ ∀ other ∈ paths, other.best = false := by
  cases inserted with
  | failed nonempty unmarked => exact ⟨nonempty, unmarked⟩

theorem Dropped.map_unmarked {removed : Path}
    (dropped : Dropped multiPath pfx before removed after status stored) :
    stored.map Path.unmarked = (before ++ after).map Path.unmarked := by
  cases dropped with
  | unchanged _ => rfl
  | emptied _ none => rw [none]
  | succeeded _ shape =>
    rw [shape]
    rfl
  | recomputed _ shape _ _ =>
    rw [shape]
    exact map_unmarked_of_map_unmark (map_unmark_markEqualCost _ _)
  | left _ _ _ _ => rfl

namespace LocRib

/-- A call of `insert` fails and changes no list, or it is one of the cases on the list of
the path's network and leaves the others alone. -/
theorem insert_cases (rib : LocRib) (family : AddressFamily) (path : Path) :
    ((∃ cause, (rib.insert family path).1 = .error cause) ∧
      ∀ afi pfx, (rib.insert family path).2.paths afi pfx = rib.paths afi pfx) ∨
    ∃ status stored, (rib.insert family path).1 = .ok status ∧
      Inserted rib.multiPath path (rib.paths family.afi path.pfx) (.ok status) stored ∧
      ∀ afi pfx, (rib.insert family path).2.paths afi pfx =
        if afi = family.afi ∧ pfx = path.pfx then stored else rib.paths afi pfx := by
  have updated := insert_paths rib family path
  by_cases registered : rib.Registered family.afi
  · have inserted := insertInto_inserted rib.multiPath path (rib.paths family.afi path.pfx)
    have result : (rib.insert family path).1 =
        (insertInto rib.multiPath path (rib.paths family.afi path.pfx)).1 := by
      rw [insert_eq registered]
    cases returned : (insertInto rib.multiPath path (rib.paths family.afi path.pfx)).1 with
    | error cause =>
      rw [returned] at inserted result
      refine .inl ⟨⟨cause, result⟩, fun afi pfx => ?_⟩
      rw [updated]
      split_ifs with here
      · rcases here with ⟨_, rfl, rfl⟩
        exact inserted.of_error
      · rfl
    | ok status =>
      rw [returned] at inserted result
      refine .inr ⟨status, _, result, inserted, fun afi pfx => ?_⟩
      rw [updated]
      by_cases here : afi = family.afi ∧ pfx = path.pfx
      · rcases here with ⟨rfl, rfl⟩
        simp [registered]
      · simp [here]
  · refine .inl ⟨⟨_, by rw [insert_of_not_registered registered]⟩, fun afi pfx => ?_⟩
    rw [updated]
    simp [registered]

variable {rib locRib : LocRib} {family : AddressFamily} {afi : Afi} {net : IpNet} {id : UInt64}

theorem insert_returns (registered : rib.Registered family.afi)
    (marked : rib.paths family.afi path.pfx = [] ∨
      ∃ stored ∈ rib.paths family.afi path.pfx, stored.best = true) :
    ∃ status, (rib.insert family path).1 = .ok status := by
  rw [insert_eq registered]
  have inserted := insertInto_inserted rib.multiPath path (rib.paths family.afi path.pfx)
  cases result : (insertInto rib.multiPath path (rib.paths family.afi path.pfx)).1 with
  | ok status => exact ⟨status, rfl⟩
  | error cause =>
    rw [result] at inserted
    rcases inserted.unmarked_of_error with ⟨nonempty, unmarked⟩
    rcases marked with empty | ⟨stored, member, best⟩
    · exact absurd empty nonempty
    · rw [unmarked stored member] at best
      cases best

theorem drop_cases (rib : LocRib) (family : AddressFamily) (pfx : IpNet) (id : UInt64) :
    ((∃ cause, (rib.drop family pfx id).1 = .error cause) ∧
      ∀ afi other, (rib.drop family pfx id).2.paths afi other = rib.paths afi other) ∨
    ∃ before removed after status stored,
      splitById id (rib.paths family.afi pfx) = some (before, removed, after) ∧
      (rib.drop family pfx id).1 = .ok status ∧
      Dropped rib.multiPath pfx before removed after status stored ∧
      ∀ afi other, (rib.drop family pfx id).2.paths afi other =
        if afi = family.afi ∧ other = pfx then stored else rib.paths afi other := by
  have updated := drop_paths rib family pfx id
  cases split : splitById id (rib.paths family.afi pfx) with
  | none =>
    refine .inl ⟨(drop_of_splitById_none split).1, fun afi other => ?_⟩
    rw [updated]
    split_ifs with here
    · rcases here with ⟨rfl, rfl⟩
      rw [split]
    · rfl
  | some parts =>
    rcases parts with ⟨before, removed, after⟩
    refine .inr ⟨before, removed, after, _, _, rfl, ?_,
      dropFrom_dropped rib.multiPath pfx before removed after, fun afi other => ?_⟩
    · rw [(drop_of_splitById_some split).2]
    rw [updated]
    by_cases here : afi = family.afi ∧ other = pfx
    · rcases here with ⟨rfl, rfl⟩
      simp [split]
    · simp [here]

theorem insert_ok (returned : (rib.insert family path).1 = .ok status) :
    ∃ stored, Inserted rib.multiPath path (rib.paths family.afi path.pfx) (.ok status) stored ∧
      ∀ afi pfx, (rib.insert family path).2.paths afi pfx =
        if afi = family.afi ∧ pfx = path.pfx then stored else rib.paths afi pfx := by
  rcases rib.insert_cases family path with ⟨⟨_, failed⟩, _⟩ | ⟨_, stored, same, cases, updated⟩
  · rw [failed] at returned
    cases returned
  · rw [returned, Except.ok.injEq] at same
    exact ⟨stored, same ▸ cases, updated⟩

variable {removed : Path}

theorem insert_error (failed : (rib.insert family path).1 = .error cause) (afi : Afi)
    (pfx : IpNet) :
    (rib.insert family path).2.paths afi pfx = rib.paths afi pfx := by
  rcases rib.insert_cases family path with ⟨_, kept⟩ | ⟨_, _, returned, _⟩
  · exact kept afi pfx
  · rw [returned] at failed
    cases failed

variable (related : Path → Path → Prop) (good : Afi → IpNet → Path → Prop)
  (holds : Afi → IpNet → List Path → Prop)

theorem insert_forall (before : ∀ afi pfx, holds afi pfx (rib.paths afi pfx))
    (written : ∀ {status stored},
      Inserted rib.multiPath path (rib.paths family.afi path.pfx) (.ok status) stored →
        holds family.afi path.pfx stored) (afi : Afi) (pfx : IpNet) :
    holds afi pfx ((rib.insert family path).2.paths afi pfx) := by
  rcases rib.insert_cases family path with ⟨_, kept⟩ | ⟨_, _, _, inserted, updated⟩
  · rw [kept]
    exact before afi pfx
  rw [updated]
  split_ifs with here
  · rcases here with ⟨rfl, rfl⟩
    exact written inserted
  · exact before afi pfx

theorem drop_ok (returned : (rib.drop family net id).1 = .ok status) :
    ∃ before removed after stored,
      splitById id (rib.paths family.afi net) = some (before, removed, after) ∧
      rib.paths family.afi net = before ++ removed :: after ∧
      Dropped rib.multiPath net before removed after status stored ∧
      ∀ afi pfx, (rib.drop family net id).2.paths afi pfx =
        if afi = family.afi ∧ pfx = net then stored else rib.paths afi pfx := by
  rcases rib.drop_cases family net id with
    ⟨⟨_, failed⟩, _⟩ | ⟨before, removed, after, _, stored, split, same, cases, updated⟩
  · rw [failed] at returned
    cases returned
  rw [returned, Except.ok.injEq] at same
  exact ⟨before, removed, after, stored, split, (splitById_eq_some split).1, same ▸ cases,
    updated⟩

theorem drop_returns (member : path ∈ rib.paths family.afi net) :
    ∃ status, (rib.drop family net path.id).1 = .ok status := by
  cases split : splitById path.id (rib.paths family.afi net) with
  | none => exact absurd rfl (splitById_eq_none_iff.mp split path member)
  | some parts => exact ⟨_, congrArg Prod.fst (drop_of_splitById_some split).2⟩

theorem drop_error (failed : (rib.drop family net id).1 = .error cause) (afi : Afi) (pfx : IpNet) :
    (rib.drop family net id).2.paths afi pfx = rib.paths afi pfx := by
  rcases rib.drop_cases family net id with ⟨_, kept⟩ | ⟨_, _, _, _, _, _, returned, _⟩
  · exact kept afi pfx
  · rw [returned] at failed
    cases failed

theorem drop_forall (start : ∀ afi pfx, holds afi pfx (rib.paths afi pfx))
    (written : ∀ {before removed after status stored},
      rib.paths family.afi net = before ++ removed :: after → removed.id = id →
      Dropped rib.multiPath net before removed after status stored → holds family.afi net stored)
    (afi : Afi) (pfx : IpNet) : holds afi pfx ((rib.drop family net id).2.paths afi pfx) := by
  rcases rib.drop_cases family net id with
    ⟨_, kept⟩ | ⟨before, removed, after, _, _, split, _, dropped, updated⟩
  · rw [kept]
    exact start afi pfx
  rw [updated]
  split_ifs with here
  · rcases here with ⟨rfl, rfl⟩
    rcases splitById_eq_some split with ⟨shape, sameId, _⟩
    exact written shape sameId dropped
  · exact start afi pfx

theorem mem_of_mem_others (shape : rib.paths afi net = before ++ removed :: after)
    (member : path ∈ before ++ after) :
    path ∈ rib.paths afi net := by
  rw [shape]
  exact ((List.sublist_cons_self removed after).append_left before).subset member

theorem mem_insert {stored : Path} (member : stored ∈ (rib.insert family path).2.paths afi pfx) :
    (afi = family.afi ∧ pfx = path.pfx ∧ stored.unmarked = path.unmarked) ∨
      ∃ old ∈ rib.paths afi pfx, stored.unmarked = old.unmarked := by
  refine insert_forall (fun afi pfx list => ∀ stored ∈ list,
    (afi = family.afi ∧ pfx = path.pfx ∧ stored.unmarked = path.unmarked) ∨
      ∃ old ∈ rib.paths afi pfx, stored.unmarked = old.unmarked)
    (fun _ _ stored member => .inr ⟨stored, member, rfl⟩) ?_ afi pfx stored member
  intro _ list inserted stored member
  rcases List.mem_cons.mp (inserted.perm.subset (List.mem_map_of_mem member)) with same | unmarked
  · exact .inl ⟨rfl, rfl, same⟩
  · rcases List.mem_map.mp unmarked with ⟨old, oldMem, same⟩
    exact .inr ⟨old, oldMem, same.symm⟩

theorem exists_mem_insert_of_mem {old : Path} (member : old ∈ rib.paths afi pfx) :
    ∃ stored ∈ (rib.insert family path).2.paths afi pfx, stored.unmarked = old.unmarked := by
  refine insert_forall (fun afi pfx list => ∀ old ∈ rib.paths afi pfx, ∃ stored ∈ list,
    stored.unmarked = old.unmarked) (fun _ _ old member => ⟨old, member, rfl⟩) ?_ afi pfx old member
  intro _ list inserted old member
  exact List.mem_map.mp
    (inserted.perm.mem_iff.mpr (List.mem_cons_of_mem _ (List.mem_map_of_mem member)))

theorem exists_mem_insert_self (returned : (rib.insert family path).1 = .ok status) :
    ∃ stored ∈ (rib.insert family path).2.paths family.afi path.pfx,
      stored.unmarked = path.unmarked := by
  rcases insert_ok returned with ⟨list, inserted, updated⟩
  rw [updated, if_pos ⟨rfl, rfl⟩]
  exact List.mem_map.mp (inserted.perm.mem_iff.mpr List.mem_cons_self)

theorem mem_drop {stored : Path} (member : stored ∈ (rib.drop family net id).2.paths afi pfx) :
    ∃ old ∈ rib.paths afi pfx, stored.unmarked = old.unmarked := by
  refine drop_forall (fun afi pfx list => ∀ stored ∈ list, ∃ old ∈ rib.paths afi pfx,
    stored.unmarked = old.unmarked) (fun _ _ stored member => ⟨stored, member, rfl⟩) ?_ afi pfx
    stored member
  intro before removed after _ list shape _ dropped stored member
  have unmarked := List.mem_map_of_mem (f := Path.unmarked) member
  rw [dropped.map_unmarked] at unmarked
  rcases List.mem_map.mp unmarked with ⟨old, oldMem, same⟩
  exact ⟨old, mem_of_mem_others shape oldMem, same.symm⟩

theorem forall_mem_insert
    (before : ∀ afi pfx, ∀ stored ∈ rib.paths afi pfx, good afi pfx stored.unmarked)
    (new : good family.afi path.pfx path.unmarked) (afi : Afi) (pfx : IpNet) :
    ∀ stored ∈ (rib.insert family path).2.paths afi pfx, good afi pfx stored.unmarked := by
  intro stored member
  rcases mem_insert member with ⟨rfl, rfl, same⟩ | ⟨old, oldMem, same⟩
  · exact same ▸ new
  · exact same ▸ before afi pfx old oldMem

theorem forall_mem_drop
    (before : ∀ afi pfx, ∀ stored ∈ rib.paths afi pfx, good afi pfx stored.unmarked) (afi : Afi)
    (pfx : IpNet) :
    ∀ stored ∈ (rib.drop family net id).2.paths afi pfx, good afi pfx stored.unmarked := by
  intro stored member
  rcases mem_drop member with ⟨old, oldMem, same⟩
  exact same ▸ before afi pfx old oldMem

def RelatedIds (related : Path → Path → Prop) (rib : LocRib) : Prop :=
  ∀ afi pfx, ∀ path ∈ rib.paths afi pfx, ∀ other ∈ rib.paths afi pfx, path.id = other.id →
    related path.unmarked other.unmarked

theorem RelatedIds.insert (symm : ∀ path other, related path other → related other path)
    (ids : RelatedIds related rib) (self : related path.unmarked path.unmarked)
    (fresh : ∀ stored ∈ rib.paths family.afi path.pfx, stored.id = path.id →
      related stored.unmarked path.unmarked) : RelatedIds related (rib.insert family path).2 := by
  intro afi pfx stored storedMem other otherMem sameId
  rcases mem_insert storedMem with ⟨rfl, rfl, same⟩ | ⟨old, oldMem, same⟩
  · rcases mem_insert otherMem with ⟨_, _, same'⟩ | ⟨old', oldMem', same'⟩
    · rwa [same, same']
    rw [same, same']
    refine symm _ _ (fresh old' oldMem' ?_)
    rw [← Path.id_of_unmarked same', ← sameId, Path.id_of_unmarked same]
  rcases mem_insert otherMem with ⟨rfl, rfl, same'⟩ | ⟨old', oldMem', same'⟩
  · rw [same, same']
    refine fresh old oldMem ?_
    rw [← Path.id_of_unmarked same, sameId, Path.id_of_unmarked same']
  rw [same, same']
  refine ids afi pfx old oldMem old' oldMem' ?_
  rw [← Path.id_of_unmarked same, sameId, Path.id_of_unmarked same']

theorem RelatedIds.drop (ids : RelatedIds related rib) :
    RelatedIds related (rib.drop family net id).2 := by
  intro afi pfx stored storedMem other otherMem sameId
  rcases mem_drop storedMem with ⟨old, oldMem, same⟩
  rcases mem_drop otherMem with ⟨old', oldMem', same'⟩
  rw [same, same']
  refine ids afi pfx old oldMem old' oldMem' ?_
  rw [← Path.id_of_unmarked same, sameId, Path.id_of_unmarked same']

/-- A status of `drop` speaks of the dropped network and of the path that leads its list. -/
def ReportsOn (family : AddressFamily) (net : IpNet) (locRib : LocRib) : LocRibStatus → Prop
  | .bestPathChanged pfx id | .multiPathWithdrawn pfx id _ => pfx = net ∧
      ∃ head ∈ (locRib.paths family.afi net).head?, head.id = id
  | .withdrawn pfx _ => pfx = net
  | _ => True

theorem drop_reportsOn (returned : (locRib.drop family net id).1 = .ok status) :
    ReportsOn family net (locRib.drop family net id).2 status := by
  rcases drop_ok returned with ⟨before, removed, after, stored, _, _, dropped, updated⟩
  have left := updated family.afi net
  rw [if_pos ⟨rfl, rfl⟩] at left
  cases dropped with
  | unchanged _ => trivial
  | emptied _ _ => rfl
  | @succeeded next rest reason _ _ =>
    exact ⟨rfl, next.markBest reason, by rw [left]; rfl, rfl⟩
  | @recomputed next second rest reason _ _ _ _ =>
    rcases head_markEqualCost (next.markBest reason) (second :: rest) with ⟨head, leads, same⟩
    refine ⟨rfl, head, by rw [left, leads]; rfl, ?_⟩
    have ids : head.ageless.id = (next.markBest reason).ageless.id := by rw [same]
    exact ids
  | left _ shape _ _ _ => exact ⟨rfl, _, by rw [left, shape]; rfl, rfl⟩

theorem getById_of_head {head : Path} (leads : head ∈ (locRib.paths family.afi net).head?) :
    locRib.getById family net head.id = some head := by
  rw [LocRib.getById_eq]
  cases shape : locRib.paths family.afi net with
  | nil => simp [shape] at leads
  | cons first rest =>
    rw [shape, List.head?_cons, Option.mem_def, Option.some.injEq] at leads
    subst leads
    simp

theorem getById_of_splitById
    (split : splitById id (locRib.paths family.afi net) = some (before, removed, after)) :
    locRib.getById family net id = some removed := by
  rcases splitById_eq_some split with ⟨shape, sameId, others⟩
  rw [getById_eq, shape, List.find?_append, List.find?_cons_of_pos (by simpa using sameId)]
  have none : before.find? (fun path => path.id == id) = none := by
    simpa using others
  rw [none, Option.none_or]

structure Filed (rib : LocRib) : Prop where
  family : ∀ afi pfx, rib.paths afi pfx ≠ [] → afi = pfx.afi
  nets : ∀ afi pfx, ∀ path ∈ rib.paths afi pfx, path.pfx = pfx

theorem Filed.new (protocols : List Afi) (multiPath : Bool) :
    Filed (LocRib.new protocols multiPath) :=
  ⟨fun afi pfx nonempty => absurd (new_paths ..) nonempty, fun afi pfx => by simp⟩

theorem Filed.insert (filed : Filed rib) (sameFamily : path.pfx.afi = family.afi) :
    Filed (rib.insert family path).2 := by
  refine ⟨?_, ?_⟩
  · intro afi pfx nonempty
    rcases List.exists_mem_of_ne_nil _ nonempty with ⟨stored, member⟩
    rcases mem_insert member with ⟨rfl, rfl, _⟩ | ⟨old, oldMem, _⟩
    · exact sameFamily.symm
    · exact filed.family afi pfx (List.ne_nil_of_mem oldMem)
  · exact forall_mem_insert (fun _ pfx path => path.pfx = pfx) filed.nets rfl

theorem Filed.drop (filed : Filed rib) (family : AddressFamily) (net : IpNet) (id : UInt64) :
    Filed (rib.drop family net id).2 := by
  refine ⟨?_, ?_⟩
  · intro afi pfx nonempty
    rcases List.exists_mem_of_ne_nil _ nonempty with ⟨stored, member⟩
    rcases mem_drop member with ⟨old, oldMem, _⟩
    exact filed.family afi pfx (List.ne_nil_of_mem oldMem)
  · exact forall_mem_drop (fun _ pfx path => path.pfx = pfx) filed.nets

end LocRib

end Sart
