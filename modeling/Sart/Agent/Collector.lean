import Sart.Agent.NodeBlocks

/-!
# Two looks before a deletion

The garbage collector is about to delete a block only if two of its looks found the block
without addresses, and no look in between found an address.  The looks are counted beside
the run of the node.
-/

namespace Sart

open Sart.Lib

namespace Node

/-- The block has no addresses or is not registered. -/
def Idle (wraps : Bool) (name : String) (node : Node) : Prop :=
  ∀ block ∈ node.allocators.get name, block.allocator.isEmpty wraps = .ok true

instance (wraps : Bool) (name : String) (node : Node) : Decidable (node.Idle wraps name) :=
  inferInstanceAs (Decidable (∀ block ∈ node.allocators.get name, _))

/-- How many looks in a row have found the block idle.  A deletion starts anew. -/
def looks (wraps : Bool) (name : String) (node : Node) (count : ℕ) : NodeEvent → ℕ
  | .gcCheck listed =>
    if node.deleting ≠ [] then count
    else
      match gcFind wraps node listed with
      | .ok _ => if node.Idle wraps name then count + 1 else 0
      | _ => count
  | .gcDelete other deleted =>
    if other = name ∧ name ∈ node.deleting ∧ deleted = true then 0 else count
  | _ => count

def watch (wraps : Bool) (name : String) (state : Node × ℕ) (event : NodeEvent) : Node × ℕ :=
  (state.1.apply wraps event, state.1.looks wraps name state.2 event)

/-- The marks that a look makes depend on the marks before it only. -/
def Marks (markers : AList fun _ : String => GcMarker) (found : GcFound) : Prop :=
  ∀ name mark, found.unused.lookup name = some mark →
    mark = .unused ∨ markers.lookup name = some .unused

variable {markers : AList fun _ : String => GcMarker} {found : GcFound} {node : Node}
  {wraps : Bool} {name : String}

theorem Marks.gcMark (marks : Marks markers found) (name : String) :
    Marks markers (gcMark markers found name) := by
  unfold Node.gcMark
  split
  all_goals
    rename_i before
    intro other mark new
  · rw [Table.lookup_insert] at new
    split_ifs at new with same
    · exact .inr (same ▸ before)
    · exact marks other mark new
  · exact marks other mark new
  · rw [Table.lookup_insert] at new
    split_ifs at new
    · exact .inl (Option.some.inj new).symm
    · exact marks other mark new

theorem Marks.gcLook {next : GcFound} {block : Block} (marks : Marks markers found)
    (looked : gcLook wraps markers found name block = .ok next) : Marks markers next := by
  rcases Outcome.bind_eq_ok.mp looked with ⟨empty, -, ran⟩
  split_ifs at ran <;> rw [Outcome.ok.injEq] at ran <;> subst ran
  · exact marks.gcMark name
  · exact marks

theorem marks_of_gcFind {listed : List String} (ran : gcFind wraps node listed = .ok found) :
    Marks node.markers found := by
  rcases Outcome.bind_eq_ok.mp ran with ⟨first, ofListed, ofBlocks⟩
  have none : Marks node.markers ⟨∅, []⟩ := fun name mark new => by simp at new
  have middle : Marks node.markers first := by
    refine Outcome.foldlM_invariant (fun _ => Marks node.markers) none ?_ ofListed
    intro _ name _ next _ marks looked
    split at looked
    · exact marks.gcLook looked
    · rw [← Outcome.ok.inj looked]
      exact marks.gcMark name
  exact Outcome.foldlM_invariant (fun _ => Marks node.markers) middle
    (fun _ _ _ _ _ marks looked => marks.gcLook looked) ofBlocks

theorem lookup_gcMarkers (markers : AList fun _ : String => GcMarker) (found : GcFound)
    (name : String) : (gcMarkers markers found).lookup name =
      if name ∈ found.used then none
      else (found.unused.lookup name).or (markers.lookup name) := by
  rw [gcMarkers, Table.lookup_foldl_erase, Table.lookup_foldl_entries fun value _ => some value]
  · cases found.unused.lookup name <;> rfl
  · exact fun table entry other => Table.lookup_insert table entry.1 entry.2 other

/-- Marks and the block to delete, against the number of looks. -/
structure Counted (name : String) (state : Node × ℕ) : Prop where
  once : state.1.markers.lookup name ≠ none → 1 ≤ state.2
  twice : state.1.markers.lookup name = some .deleted → 2 ≤ state.2
  queued : name ∈ state.1.deleting → 2 ≤ state.2
  nodup : state.1.deleting.Nodup

theorem deleted_of_mem
    (member : name ∈ (markers.entries.filter fun entry => entry.2 = .deleted).map Sigma.fst) :
    markers.lookup name = some .deleted := by
  rcases List.mem_map.mp member with ⟨⟨_, mark⟩, kept, rfl⟩
  rcases List.mem_filter.mp kept with ⟨stored, isDeleted⟩
  rw [← of_decide_eq_true isDeleted]
  exact AList.mem_lookup_iff.mpr stored

variable {count : ℕ}

theorem Counted.gcCheck (counted : Counted name (node, count)) (listed : List String) :
    Counted name (watch wraps name (node, count) (.gcCheck listed)) := by
  dsimp only [watch, looks, Node.apply, Node.gcCheck]
  by_cases busy : node.deleting ≠ []
  · rw [if_pos busy, if_pos busy]
    exact counted
  rw [if_neg busy, if_neg busy]
  cases ran : gcFind wraps node listed with
  | error cause | panic => exact counted
  | ok found =>
    have lookup := lookup_gcMarkers node.markers found name
    have nodup := ((List.filter_sublist (p := fun entry => entry.2 = .deleted)
      (l := (gcMarkers node.markers found).entries)).map Sigma.fst).nodup
        (gcMarkers node.markers found).nodupKeys
    by_cases used : name ∈ found.used
    · rw [if_pos used] at lookup
      refine ⟨?_, ?_, ?_, nodup⟩
      · exact fun marked => absurd lookup marked
      · intro marked
        rw [lookup] at marked
        cases marked
      · intro queued
        rw [deleted_of_mem queued] at lookup
        cases lookup
    rw [if_neg used] at lookup
    have idle : node.Idle wraps name := fun _ known => used_of_gcFind ran known used
    have twice : (gcMarkers node.markers found).lookup name = some .deleted → 2 ≤ count + 1 := by
      intro marked
      rw [lookup] at marked
      cases new : found.unused.lookup name with
      | none =>
        rw [new] at marked
        exact (counted.twice marked).trans (Nat.le_succ count)
      | some mark =>
        rw [new] at marked
        cases marked
        have before := (marks_of_gcFind ran name .deleted new).resolve_left (by simp)
        exact Nat.succ_le_succ (counted.once (by simp [before]))
    rw [if_pos idle]
    exact ⟨fun _ => Nat.succ_pos count, twice, fun queued => twice (deleted_of_mem queued), nodup⟩

theorem Counted.gcDelete (counted : Counted name (node, count)) (other : String) (deleted : Bool) :
    Counted name (watch wraps name (node, count) (.gcDelete other deleted)) := by
  dsimp only [watch, looks, Node.apply, Node.gcDelete]
  by_cases member : other ∈ node.deleting
  · rw [if_pos member]
    have nodup := counted.nodup.erase other
    cases deleted with
    | false =>
      rw [if_neg (by simp), if_neg (by simp)]
      exact ⟨counted.once, counted.twice, fun queued =>
        counted.queued (List.mem_of_mem_erase queued),
        nodup⟩
    | true =>
      rw [if_pos rfl]
      by_cases same : other = name
      · subst same
        have gone : (node.markers.erase other).lookup other = none := AList.lookup_erase ..
        refine ⟨fun marked => absurd gone marked, fun marked => ?_, fun queued => ?_, nodup⟩
        · cases gone.symm.trans marked
        · exact absurd queued counted.nodup.not_mem_erase
      · rw [if_neg fun all => same all.1]
        have kept : (node.markers.erase other).lookup name = node.markers.lookup name :=
          AList.lookup_erase_ne (Ne.symm same)
        exact ⟨fun marked => counted.once (kept ▸ marked), fun marked =>
          counted.twice (kept ▸ marked),
          fun queued => counted.queued (List.mem_of_mem_erase queued), nodup⟩
  · rw [if_neg member, if_neg]
    · exact counted
    · rintro ⟨rfl, queued, -⟩
      exact member queued

theorem Counted.watch (counted : Counted name (node, count)) (event : NodeEvent) :
    Counted name (watch wraps name (node, count) event) := by
  -- Only the collector touches its marks and what it is about to delete.
  have still : ∀ next : Node, next.markers = node.markers → next.deleting = node.deleting →
      Counted name (next, count) := by
    intro next markers deleting
    rcases counted with ⟨once, twice, queued, nodup⟩
    exact ⟨markers ▸ once, markers ▸ twice, deleting ▸ queued, deleting ▸ nodup⟩
  cases event with
  | gcCheck listed => exact counted.gcCheck listed
  | gcDelete other deleted => exact counted.gcDelete other deleted
  | cancel => exact still _ rfl rfl
  | add call requested =>
    dsimp only [Node.watch, looks, Node.apply]
    split_ifs
    · exact counted
    rcases add_cases call requested node with ⟨_, ran⟩ | ⟨_, -, ran⟩ | ⟨_, _, _, _, -, -, -, ran⟩
    all_goals
      rw [ran]
      exact still _ rfl rfl
  | resume deleted links =>
    dsimp only [Node.watch, looks, Node.apply]
    rcases resume_cases deleted links node with
      ⟨-, ran⟩ | ⟨_, _, _, _, -, -, ⟨_, ran⟩ | ⟨_, _, -, -, -, -, ran⟩⟩
    all_goals
      rw [ran]
      exact still _ rfl rfl
  | del call deleted =>
    dsimp only [Node.watch, looks, Node.apply]
    split_ifs
    · exact counted
    rcases del_cases wraps call deleted node with
      ⟨_, ran⟩ | ⟨_, _, -, -, -, ⟨-, ran⟩ | ⟨_, ran | ⟨-, ran⟩⟩⟩
    all_goals
      rw [ran]
      exact still _ rfl rfl
  | reconcile ab answers =>
    dsimp only [Node.watch, looks, Node.apply]
    rcases reconcileBlock_cases ab answers node with ⟨_, -, ran⟩ | ⟨_, _, _, -, -, -, -, ran⟩
    all_goals
      rw [ran]
      exact still _ rfl rfl
  | cleanup ab =>
    dsimp only [Node.watch, looks, Node.apply]
    rcases cleanupBlock_cases wraps ab node with ⟨_, ran⟩ | ⟨_, -, -, ran⟩
    all_goals
      rw [ran]
      exact still _ rfl rfl

/-- Whatever happens on a node whose collector has just been started, a block is about to be
deleted only after two looks in a row that found it idle. -/
theorem run_counted (wraps : Bool) (name : String) (node : Node) (events : List NodeEvent) :
    let start := { node with markers := ∅, deleting := [] }
    let state := events.foldl (watch wraps name) (start, 0)
    state.1 = events.foldl (Node.apply wraps) start ∧ Counted name state := by
  refine ⟨(List.foldl_hom Prod.fst fun _ _ => rfl).symm, ?_⟩
  refine List.foldlRecOn (motive := Counted name) events _ ?_ fun _ counted event _ => ?_
  · exact ⟨fun marked => absurd rfl marked, fun marked => (by cases marked),
      fun queued => absurd queued List.not_mem_nil, List.nodup_nil⟩
  · exact counted.watch event

end Node

end Sart
