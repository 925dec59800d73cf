import Sart.Lib.Run
import Sart.Rib.PathOrder

/-!
# Steps of the Loc-RIB

What one `insert` and one `drop` do to the lists of the table, and runs of
such steps: a step changes the list of one network only, by `insertInto` or by
`dropFrom`.
-/

namespace Sart

open Sart.Lib

variable {α : Type} {multiPath : Bool} {path other : Path} {paths : List Path} {id : UInt64}

theorem rposition_eq_none_iff {test : α → Bool} {values : List α} :
    rposition test values = none ↔ ∀ value ∈ values, test value = false := by
  induction values with
  | nil => simp [rposition]
  | cons head tail ih =>
    simp only [rposition, List.forall_mem_cons]
    cases found : rposition test tail with
    | some index =>
      simp only [reduceCtorEq, false_iff, not_and]
      intro _ none
      rw [ih.mpr none] at found
      cases found
    | none =>
      have tailFalse := ih.mp found
      cases headTest : test head
      · simpa using tailFalse
      · simp

theorem rposition_eq_some {test : α → Bool} {values : List α} {index : ℕ}
    (found : rposition test values = some index) :
    ∃ before value after, values = before ++ value :: after ∧ before.length = index ∧
      test value = true ∧ ∀ later ∈ after, test later = false := by
  induction values generalizing index with
  | nil => simp [rposition] at found
  | cons head tail ih =>
    simp only [rposition] at found
    cases tailFound : rposition test tail with
    | some tailIndex =>
      simp only [tailFound, Option.some.injEq] at found
      rcases ih tailFound with ⟨before, value, after, rfl, rfl, passes, none⟩
      exact ⟨head :: before, value, after, rfl, found, passes, none⟩
    | none =>
      simp only [tailFound] at found
      split at found
      · rename_i passes
        simp only [Option.some.injEq] at found
        exact ⟨[], head, tail, rfl, found, passes, rposition_eq_none_iff.mp tailFound⟩
      · cases found

theorem rposition_append_cons {test : α → Bool} {before after : List α} {value : α}
    (passes : test value = true) (none : ∀ later ∈ after, test later = false) :
    rposition test (before ++ value :: after) = some before.length := by
  induction before with
  | nil => simp [rposition, rposition_eq_none_iff.mpr none, passes]
  | cons head before ih => simp [rposition, ih]

theorem firstLess_eq_none_iff :
    firstLess multiPath path other = none ↔ prefersPath multiPath path other = false := by
  simp [firstLess, prefersPath, prefersBySome, comparisons, List.find?_eq_none]

theorem firstLess_some_reason {reason : BestPathReason}
    (found : firstLess multiPath path other = some reason) :
    reason ≠ .notBest ∧ reason ≠ .equalCostMiltiPath := by
  rcases Option.map_eq_some_iff.mp found with ⟨entry, entryFound, rfl⟩
  have entryMem := List.mem_of_find?_eq_some entryFound
  have all : ∀ entry ∈ getComparisonFuncs multiPath,
      entry.1 ≠ .notBest ∧ entry.1 ≠ .equalCostMiltiPath := by
    cases multiPath <;> simp [getComparisonFuncs]
  exact all entry entryMem

/-- A path goes in front of the first one that it is preferred to. -/
theorem selectPosition_fst (multiPath : Bool) (path : Path) (paths : List Path) :
    (selectPosition multiPath path paths).1 = paths.findIdx (prefersPath multiPath path) := by
  induction paths with
  | nil => rfl
  | cons stored rest ih =>
    simp only [selectPosition]
    cases found : firstLess multiPath path stored with
    | none => simp [List.findIdx_cons, firstLess_eq_none_iff.mp found, ih]
    | some reason =>
      have prefers : prefersPath multiPath path stored = true := by
        by_contra notPreferred
        rw [firstLess_eq_none_iff.mpr (by simpa using notPreferred)] at found
        cases found
      simp [List.findIdx_cons, prefers]

theorem splitById_eq_none_iff :
    splitById id paths = none ↔ ∀ path ∈ paths, path.id ≠ id := by
  induction paths with
  | nil => simp [splitById]
  | cons stored rest ih =>
    simp only [splitById, List.forall_mem_cons]
    split
    · simp_all
    rename_i different
    cases found : splitById id rest with
    | none => simpa [different] using ih.mp found
    | some parts =>
      have : ¬∀ path ∈ rest, path.id ≠ id := fun none => by
        rw [ih.mpr none] at found
        cases found
      simpa [different] using this

theorem splitById_eq_some {before after : List Path} {removed : Path}
    (found : splitById id paths = some (before, removed, after)) :
    paths = before ++ removed :: after ∧ removed.id = id ∧ ∀ path ∈ before, path.id ≠ id := by
  induction paths generalizing before with
  | nil => simp [splitById] at found
  | cons stored rest ih =>
    simp only [splitById] at found
    split at found
    · rename_i same
      rcases found with ⟨rfl, rfl, rfl⟩
      simp [same]
    rename_i different
    cases tailFound : splitById id rest with
    | none => simp [tailFound] at found
    | some parts =>
      rcases parts with ⟨front, middle, back⟩
      simp only [tailFound, Option.some.injEq, Prod.mk.injEq] at found
      rcases found with ⟨rfl, rfl, rfl⟩
      rcases ih tailFound with ⟨rfl, sameId, others⟩
      refine ⟨rfl, sameId, ?_⟩
      intro path pathMem
      rcases List.mem_cons.mp pathMem with rfl | pathMem
      · exact different
      · exact others path pathMem

/-! ## Marks

`Path.unmark` forgets the marks of a path.  Up to marks, `insertInto` is an
insertion and `dropFrom` a removal. -/

@[simp]
theorem Path.unmark_markBest (path : Path) (reason : BestPathReason) :
    (path.markBest reason).unmark = path.unmark := rfl

theorem map_unmark_modify (change : Path → Path)
    (onlyMarks : ∀ path, (change path).unmark = path.unmark) (paths : List Path) (index : ℕ) :
    (paths.modify index change).map Path.unmark = paths.map Path.unmark := by
  induction paths generalizing index with
  | nil => simp
  | cons path paths ih => cases index <;> simp [onlyMarks, ih]

theorem map_unmark_demote (paths : List Path) :
    (paths.map fun stored => if stored.best then stored.unmark else stored).map Path.unmark =
      paths.map Path.unmark := by
  rw [List.map_map]
  apply List.map_congr_left
  intro stored _
  simp only [Function.comp_apply]
  split <;> rfl

theorem map_unmark_markEqualCost (current : Path) (paths : List Path) :
    (markEqualCost current paths).map Path.unmark = (current :: paths).map Path.unmark := by
  induction paths generalizing current with
  | nil => rfl
  | cons next rest ih =>
    simp only [markEqualCost]
    split
    · simp only [List.map_cons, ih, Path.unmark_markBest]
      rfl
    · rfl

def position (multiPath : Bool) (path : Path) (paths : List Path) : ℕ :=
  (paths.map path.refresh).findIdx (prefersPath multiPath path)

/-- Marks aside, an insertion puts the path at its position among the refreshed ones. -/
theorem insertInto_map_unmark (marked : paths = [] ∨ ∃ stored ∈ paths, stored.best = true) :
    (insertInto multiPath path paths).2.map Path.unmark =
      ((paths.map path.refresh).insertIdx (position multiPath path paths) path).map
        Path.unmark := by
  by_cases empty : paths = []
  · subst empty
    simp [insertInto, position]
  have someBest := marked.resolve_left empty
  cases found : rposition Path.best paths with
  | none =>
    rcases someBest with ⟨stored, storedMem, best⟩
    simp [rposition_eq_none_iff.mp found stored storedMem] at best
  | some bestIdx =>
    have index := selectPosition_fst multiPath path (paths.map path.refresh)
    simp only [insertInto, List.isEmpty_eq_false_iff.mpr empty, Bool.false_eq_true,
      if_false, found, index, position, List.map_insertIdx]
    split
    · split
      · rw [List.map_insertIdx, map_unmark_demote, Path.unmark_markBest]
      split
      · split
        · rw [List.map_insertIdx, map_unmark_modify Path.joinEqualCost fun _ => rfl,
            Path.unmark_markBest]
        · rw [List.map_insertIdx]
      · rw [List.map_insertIdx]
    split
    · rename_i atFront
      rw [List.map_insertIdx, map_unmark_modify Path.unmark fun _ => rfl,
        Path.unmark_markBest, atFront]
    · rw [List.map_insertIdx]

/-- Marks aside, a removal takes the path and nothing else. -/
theorem dropFrom_map_unmark (multiPath : Bool) (pfx : IpNet) (before : List Path)
    (removed : Path) (after : List Path) :
    (dropFrom multiPath pfx before removed after).2.map Path.unmark =
      (before ++ after).map Path.unmark := by
  unfold dropFrom
  dsimp only
  split
  · split
    · rename_i empty
      rw [empty]
    · rename_i only single
      rw [single]
      rfl
    · rename_i first second rest several
      rw [several]
      split
      · split
        · split
          · rfl
          split
          · rw [map_unmark_markEqualCost]
            rfl
          · rfl
        · rfl
      · rfl
  · rfl

namespace LocRib

variable {rib : LocRib} {family : AddressFamily}

def Registered (rib : LocRib) (afi : Afi) : Prop := (rib.table.lookup afi).isSome
  deriving Decidable

theorem store_paths (rib : LocRib) (registered : rib.Registered family.afi) (pfx : IpNet)
    (stored : List Path) (afi : Afi) (other : IpNet) :
    (rib.store family.afi pfx stored).paths afi other =
      if afi = family.afi ∧ other = pfx then stored else rib.paths afi other := by
  rcases Option.isSome_iff_exists.mp registered with ⟨table, found⟩
  simp only [paths, store, found]
  by_cases sameFamily : afi = family.afi
  · subst sameFamily
    by_cases sameNet : other = pfx
    · subst sameNet
      simp
    · simp [sameNet, found]
  · simp [sameFamily]

@[simp]
theorem store_multiPath (rib : LocRib) (afi : Afi) (pfx : IpNet) (stored : List Path) :
    (rib.store afi pfx stored).multiPath = rib.multiPath := by
  unfold store
  split <;> rfl

@[simp]
theorem store_registered (rib : LocRib) (afi other : Afi) (pfx : IpNet) (stored : List Path) :
    (rib.store afi pfx stored).Registered other ↔ rib.Registered other := by
  unfold store Registered
  split
  · rename_i table found
    by_cases same : other = afi
    · subst same
      simp [found]
    · simp [same]
  · rfl

theorem get_eq_none_or_paths (rib : LocRib) (family : AddressFamily) (pfx : IpNet) :
    rib.get family pfx = none ∧ rib.paths family.afi pfx = [] ∨
      rib.get family pfx = some (rib.paths family.afi pfx) := by
  unfold get paths
  cases rib.table.lookup family.afi with
  | none => simp
  | some table => cases found : table.lookup pfx <;> simp [found]

theorem getById_eq (rib : LocRib) (family : AddressFamily) (pfx : IpNet) (id : UInt64) :
    rib.getById family pfx id =
      (rib.paths family.afi pfx).find? fun path => path.id == id := by
  rcases rib.get_eq_none_or_paths family pfx with ⟨missing, empty⟩ | found
  · simp [getById, missing, empty]
  · simp [getById, found]

theorem insert_of_not_registered (missing : ¬rib.Registered family.afi) (path : Path) :
    rib.insert family path = (.error (.rib .invalidAddressFamily), rib) := by
  simp only [Registered, Bool.not_eq_true, Option.isSome_eq_false_iff,
    Option.isNone_iff_eq_none] at missing
  simp [insert, missing]

theorem insert_eq (registered : rib.Registered family.afi) (path : Path) :
    rib.insert family path =
      ((insertInto rib.multiPath path (rib.paths family.afi path.pfx)).1,
        { rib with received := rib.received + 1 }.store family.afi path.pfx
          (insertInto rib.multiPath path (rib.paths family.afi path.pfx)).2) := by
  rcases Option.isSome_iff_exists.mp registered with ⟨table, found⟩
  cases entry : table.lookup path.pfx with
  | none => simp [insert, paths, found, entry, insertInto]
  | some stored => simp [insert, paths, found, entry]

variable {pfx : IpNet}

theorem drop_of_splitById_none (missing : splitById id (rib.paths family.afi pfx) = none) :
    (∃ cause, (rib.drop family pfx id).1 = .error cause) ∧
      (rib.drop family pfx id).2.table = rib.table ∧
      (rib.drop family pfx id).2.multiPath = rib.multiPath := by
  cases found : rib.table.lookup family.afi with
  | none => simp [drop, found]
  | some table =>
    cases entry : table.lookup pfx with
    | none => simp [drop, found, entry]
    | some stored =>
      have missingHere : splitById id stored = none := by simpa [paths, found, entry] using missing
      by_cases empty : stored.isEmpty
      · simp [drop, found, entry, empty]
      · simp [drop, found, entry, empty, missingHere]

theorem drop_of_splitById_some {before after : List Path} {removed : Path}
    (split : splitById id (rib.paths family.afi pfx) = some (before, removed, after)) :
    rib.Registered family.afi ∧ rib.drop family pfx id =
      (.ok (dropFrom rib.multiPath pfx before removed after).1,
        { rib with dropped := rib.dropped + 1 }.store family.afi pfx
          (dropFrom rib.multiPath pfx before removed after).2) := by
  cases found : rib.table.lookup family.afi with
  | none => simp [paths, found, splitById] at split
  | some table =>
    cases entry : table.lookup pfx with
    | none => simp [paths, found, entry, splitById] at split
    | some stored =>
      have splitHere : splitById id stored = some (before, removed, after) := by
        simpa [paths, found, entry] using split
      have nonempty : stored ≠ [] := by
        rintro rfl
        simp [splitById] at splitHere
      simp [Registered, drop, found, entry, nonempty, splitHere]

@[simp]
theorem insert_multiPath (rib : LocRib) (family : AddressFamily) (path : Path) :
    (rib.insert family path).2.multiPath = rib.multiPath := by
  by_cases registered : rib.Registered family.afi
  · simp [insert_eq registered]
  · simp [insert_of_not_registered registered]

@[simp]
theorem insert_registered (rib : LocRib) (family : AddressFamily) (path : Path) (afi : Afi) :
    (rib.insert family path).2.Registered afi ↔ rib.Registered afi := by
  by_cases registered : rib.Registered family.afi
  · rw [insert_eq registered, store_registered]
    rfl
  · rw [insert_of_not_registered registered]

/-- An insertion changes the paths of one network at most. -/
theorem insert_paths (rib : LocRib) (family : AddressFamily) (path : Path) (afi : Afi)
    (pfx : IpNet) : (rib.insert family path).2.paths afi pfx =
      if rib.Registered family.afi ∧ afi = family.afi ∧ pfx = path.pfx then
        (insertInto rib.multiPath path (rib.paths afi pfx)).2
      else rib.paths afi pfx := by
  by_cases registered : rib.Registered family.afi
  · rw [insert_eq registered]
    have kept := store_paths { rib with received := rib.received + 1 } registered path.pfx
      (insertInto rib.multiPath path (rib.paths family.afi path.pfx)).2 afi pfx
    rw [kept]
    by_cases here : afi = family.afi ∧ pfx = path.pfx
    · rcases here with ⟨rfl, rfl⟩
      simp [registered]
    · simp only [here, if_false, registered, true_and]
      rfl
  · simp [insert_of_not_registered registered, registered]

@[simp]
theorem drop_multiPath (rib : LocRib) (family : AddressFamily) (pfx : IpNet) (id : UInt64) :
    (rib.drop family pfx id).2.multiPath = rib.multiPath := by
  cases split : splitById id (rib.paths family.afi pfx) with
  | none => exact (drop_of_splitById_none split).2.2
  | some parts => simp [(drop_of_splitById_some split).2]

@[simp]
theorem drop_registered (rib : LocRib) (family : AddressFamily) (pfx : IpNet) (id : UInt64)
    (afi : Afi) : (rib.drop family pfx id).2.Registered afi ↔ rib.Registered afi := by
  cases split : splitById id (rib.paths family.afi pfx) with
  | none =>
    unfold Registered
    rw [(drop_of_splitById_none split).2.1]
  | some parts =>
    rw [(drop_of_splitById_some split).2, store_registered]
    rfl

/-- A removal changes the paths of one network at most. -/
theorem drop_paths (rib : LocRib) (family : AddressFamily) (pfx : IpNet) (id : UInt64)
    (afi : Afi) (other : IpNet) : (rib.drop family pfx id).2.paths afi other =
      if afi = family.afi ∧ other = pfx then
        match splitById id (rib.paths afi other) with
        | none => rib.paths afi other
        | some (before, removed, after) => (dropFrom rib.multiPath pfx before removed after).2
      else rib.paths afi other := by
  cases split : splitById id (rib.paths family.afi pfx) with
  | none =>
    have unchanged : (rib.drop family pfx id).2.paths afi other = rib.paths afi other := by
      unfold paths
      rw [(drop_of_splitById_none split).2.1]
    rw [unchanged]
    split_ifs with here
    · rcases here with ⟨rfl, rfl⟩
      simp [split]
    · rfl
  | some parts =>
    rcases parts with ⟨before, removed, after⟩
    rcases drop_of_splitById_some split with ⟨registered, dropped⟩
    have kept := store_paths { rib with dropped := rib.dropped + 1 } registered pfx
      (dropFrom rib.multiPath pfx before removed after).2 afi other
    rw [dropped, kept]
    split_ifs with here
    · rcases here with ⟨rfl, rfl⟩
      simp [split]
    · rfl

end LocRib

inductive RibOp where
  | insert (family : AddressFamily) (path : Path)
  | drop (family : AddressFamily) (pfx : IpNet) (id : UInt64)

def RibOp.apply (rib : LocRib) : RibOp → LocRib
  | .insert family path => (rib.insert family path).2
  | .drop family pfx id => (rib.drop family pfx id).2

namespace LocRib

def run (rib : LocRib) (ops : List RibOp) : LocRib := ops.foldl RibOp.apply rib

variable {protocols : List Afi}

theorem new_table_lookup {afi : Afi} {table : AList fun _ : Afi => AList fun _ : IpNet => List Path}
    (empty : ∀ entry ∈ table.lookup afi, entry = ∅) :
    ∀ entry ∈ (protocols.foldl (fun table protocol => table.insert protocol ∅) table).lookup afi,
      entry = ∅ := by
  induction protocols generalizing table with
  | nil => exact empty
  | cons protocol protocols ih =>
    apply ih
    by_cases same : afi = protocol
    · subst same
      simp
    · simpa [same] using empty

@[simp]
theorem new_paths (protocols : List Afi) (multiPath : Bool) (afi : Afi) (pfx : IpNet) :
    (new protocols multiPath).paths afi pfx = [] := by
  unfold paths
  cases found : (new protocols multiPath).table.lookup afi with
  | none => rfl
  | some table =>
    have empty : table = ∅ := new_table_lookup (by simp) table found
    simp [empty]

theorem run_paths_invariant {multiPath : Bool} {condition : LocRib → RibOp → Prop}
    (invariant : IpNet → List Path → Prop) (empty : ∀ pfx, invariant pfx [])
    (insert : ∀ rib family path, rib.multiPath = multiPath →
      condition rib (.insert family path) →
      invariant path.pfx (rib.paths family.afi path.pfx) →
      invariant path.pfx (insertInto multiPath path (rib.paths family.afi path.pfx)).2)
    (drop : ∀ rib family pfx id before removed after, rib.multiPath = multiPath →
      condition rib (.drop family pfx id) →
      splitById id (rib.paths family.afi pfx) = some (before, removed, after) →
      invariant pfx (before ++ removed :: after) →
      invariant pfx (dropFrom multiPath pfx before removed after).2) {ops : List RibOp}
    (steps : AllSteps RibOp.apply condition (new protocols multiPath) ops) (afi : Afi)
    (pfx : IpNet) :
    invariant pfx (((new protocols multiPath).run ops).paths afi pfx) := by
  have kept := foldl_invariant
    (fun rib : LocRib => rib.multiPath = multiPath ∧
      ∀ afi pfx, invariant pfx (rib.paths afi pfx)) ?_ ⟨rfl, fun _ _ => ?_⟩ steps
  · exact kept.2 afi pfx
  · rintro rib op ⟨multi, holds⟩ here
    cases op with
    | insert family path =>
      refine ⟨by simp [RibOp.apply, multi], fun afi pfx => ?_⟩
      simp only [RibOp.apply, insert_paths]
      split_ifs with target
      · rcases target with ⟨_, rfl, rfl⟩
        rw [multi]
        exact insert rib family path multi here (holds _ _)
      · exact holds afi pfx
    | drop family net id =>
      refine ⟨by simp [RibOp.apply, multi], fun afi pfx => ?_⟩
      simp only [RibOp.apply, drop_paths]
      split_ifs with target
      · rcases target with ⟨rfl, rfl⟩
        split
        · exact holds _ _
        rename_i before removed after split
        have old := holds family.afi pfx
        rw [(splitById_eq_some split).1] at old
        rw [multi]
        exact drop rib family pfx id before removed after multi here split old
      · exact holds afi pfx
  · simpa using empty _

end LocRib

end Sart
