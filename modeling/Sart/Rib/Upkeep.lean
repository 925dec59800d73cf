import Sart.Rib.EqualCost
import Sart.Rib.FibAgreement

/-!
# The stored paths and their marks

`insert` gives its time stamp to every stored path that `Path.eq` takes for the new one, and a
single equal field is enough for `Path.eq`.  `set_multipath` does not convert the marks, and without
multipath `insert` takes the mark from the first path only.
-/

namespace Sart

open Sart.Lib

/-- What an insertion may leave of a stored path, without marks: the path itself, with the time
stamp of the new one when the two are the same path of one peer. -/
def Path.Keeps (path stored left : Path) : Prop :=
  left = stored.unmark ∨
    stored.unmarked = path.unmarked ∧ left = { stored with timestamp := path.timestamp }.unmark

variable {path : Path}

theorem Path.keeps_refresh_iff {stored : Path} :
    path.Keeps stored (path.refresh stored).unmark ↔ (stored.eq path = true →
      stored.timestamp = path.timestamp ∨ stored.unmarked = path.unmarked) := by
  unfold Keeps refresh
  split_ifs with same
  · constructor
    · rintro (kept | ⟨twin, _⟩) _
      · exact .inl (congrArg timestamp kept).symm
      · exact .inr twin
    · intro allowed
      refine (allowed same).imp (fun age => ?_) fun twin => ⟨twin, rfl⟩
      rw [← age]
  · simp [same]

namespace LocRib

variable {rib : LocRib} {family : AddressFamily}

def InsertKeeps (rib : LocRib) (family : AddressFamily) (path : Path) : Prop :=
  (∀ afi pfx, ¬(afi = family.afi ∧ pfx = path.pfx) →
    (rib.insert family path).2.paths afi pfx = rib.paths afi pfx) ∧
  List.SublistForall₂ path.Keeps (rib.paths family.afi path.pfx)
    (((rib.insert family path).2.paths family.afi path.pfx).map Path.unmark)

/-- The insertion fails, or each stored path that counts as equal has the age of the new one or is
the same path of the same peer. -/
def SameAge (rib : LocRib) (family : AddressFamily) (path : Path) : Prop :=
  rib.Registered family.afi →
    (∃ stored ∈ rib.paths family.afi path.pfx, stored.best = true) →
    ∀ stored ∈ rib.paths family.afi path.pfx, stored.eq path = true →
      stored.timestamp = path.timestamp ∨ stored.unmarked = path.unmarked
  deriving Decidable

theorem insert_map_unmark (registered : rib.Registered family.afi)
    (marked : ∃ stored ∈ rib.paths family.afi path.pfx, stored.best = true) :
    ((rib.insert family path).2.paths family.afi path.pfx).map Path.unmark =
      (((rib.paths family.afi path.pfx).map path.refresh).insertIdx
        (position rib.multiPath path (rib.paths family.afi path.pfx)) path).map Path.unmark := by
  rw [insert_paths, if_pos ⟨registered, rfl, rfl⟩]
  exact insertInto_map_unmark (.inr marked)

theorem insert_paths_of_failed (fails : ¬(rib.Registered family.afi ∧
      ∃ stored ∈ rib.paths family.afi path.pfx, stored.best = true))
    (nonempty : rib.paths family.afi path.pfx ≠ []) :
    (rib.insert family path).2.paths family.afi path.pfx = rib.paths family.afi path.pfx := by
  rw [insert_paths]
  split_ifs with here
  · have unmarked : rposition Path.best (rib.paths family.afi path.pfx) = none := by
      refine rposition_eq_none_iff.mpr fun stored member => ?_
      by_contra marked
      exact fails ⟨here.1, stored, member, by simpa using marked⟩
    simp [insertInto, unmarked, nonempty]
  · rfl

theorem insertKeeps_of_sameAge (sameAge : rib.SameAge family path) :
    rib.InsertKeeps family path := by
  refine ⟨fun afi pfx other => ?_, List.sublistForall₂_iff.mpr ?_⟩
  · rw [insert_paths, if_neg fun here => other here.2]
  by_cases succeeds : rib.Registered family.afi ∧
    ∃ stored ∈ rib.paths family.afi path.pfx, stored.best = true
  · rw [insert_map_unmark succeeds.1 succeeds.2]
    refine ⟨_, ?_, (List.sublist_insertIdx _ _ _).map Path.unmark⟩
    rw [List.map_map, List.forall₂_map_right_iff, List.forall₂_same]
    exact fun stored member =>
      Path.keeps_refresh_iff.mpr (sameAge succeeds.1 succeeds.2 stored member)
  by_cases empty : rib.paths family.afi path.pfx = []
  · exact ⟨[], by simp [empty], List.nil_sublist _⟩
  rw [insert_paths_of_failed succeeds empty]
  refine ⟨_, ?_, List.Sublist.refl _⟩
  rw [List.forall₂_map_right_iff, List.forall₂_same]
  exact fun stored _ => .inl rfl

/-- Has a path an age of its own beside an inserted one? -/
def Aged (path stored : Path) : Bool := stored.timestamp != path.timestamp

theorem countP_aged_le {paths left : List Path} (related : List.Forall₂ path.Keeps paths left) :
    paths.countP (fun stored => Aged path stored && stored.unmarked != path.unmarked) ≤
      left.countP (Aged path) := by
  induction related with
  | nil => exact Nat.le_refl 0
  | @cons stored kept paths left keeps _ ih =>
    rw [List.countP_cons, List.countP_cons]
    refine Nat.add_le_add ih ?_
    rcases keeps with rfl | ⟨twin, rfl⟩
    · rw [show Aged path stored.unmark = Aged path stored from rfl]
      cases Aged path stored with
      | false => simp
      | true => split_ifs <;> simp_all
    · simp [twin]

theorem countP_aged_insertIdx (path : Path) (paths : List Path) {index : ℕ}
    (bound : index ≤ paths.length) :
    (((paths.map path.refresh).insertIdx index path).map Path.unmark).countP (Aged path) =
      paths.countP (fun stored => Aged path stored && !stored.eq path) := by
  have shuffled : (paths.map path.refresh).insertIdx index path |>.Perm
      (path :: paths.map path.refresh) := List.perm_insertIdx _ _ (by simpa using bound)
  rw [(shuffled.map Path.unmark).countP_eq, List.map_cons, List.countP_cons_of_neg (by
    simp [Aged, Path.unmark]), List.map_map, List.countP_map]
  refine congrArg (List.countP · paths) (funext fun stored => ?_)
  by_cases same : stored.eq path = true <;> simp [Aged, Path.refresh, Path.unmark, same]

theorem sameAge_of_insertKeeps (keeps : rib.InsertKeeps family path) :
    rib.SameAge family path := by
  intro registered marked stored member same
  rcases List.sublistForall₂_iff.mp keeps.2 with ⟨left, related, sub⟩
  rw [insert_map_unmark registered marked] at sub
  have fewer := (countP_aged_le related).trans sub.countP_le
  rw [countP_aged_insertIdx path _ (position_le_length ..), List.countP_eq_length_filter,
    List.countP_eq_length_filter] at fewer
  have apart : ∀ stored : Path, (Aged path stored && !stored.eq path) = true →
      (Aged path stored && stored.unmarked != path.unmarked) = true := by
    intro stored
    simp only [Bool.and_eq_true, Bool.not_eq_true', bne_iff_ne, and_imp]
    rintro aged differ
    refine ⟨aged, fun twin => ?_⟩
    rw [Path.eq_of_pfx (Path.pfx_of_unmarked twin)] at differ
    contradiction
  have filters := (List.monotone_filter_right (rib.paths family.afi path.pfx) apart).eq_of_length_le
    fewer
  by_contra lost
  have found : stored ∈ (rib.paths family.afi path.pfx).filter fun stored =>
      Aged path stored && stored.unmarked != path.unmarked :=
    List.mem_filter.mpr ⟨member, by simpa [Aged] using lost⟩
  rw [← filters] at found
  simp [same] at found

/-- An insertion keeps the stored paths exactly when the ages allow it. -/
theorem insertKeeps_iff (rib : LocRib) (family : AddressFamily) (path : Path) :
    rib.InsertKeeps family path ↔ rib.SameAge family path :=
  ⟨sameAge_of_insertKeeps, insertKeeps_of_sameAge⟩

/-- A path of another peer makes the stored path as young as itself. -/
theorem insert_not_keeps : ¬∀ (rib : LocRib) (family : AddressFamily) (path : Path),
    rib.InsertKeeps family path := by
  intro claim
  have sameAge := sameAge_of_insertKeeps (claim
    (((new [.ipv4] false).insert .ipv4Unicast (samplePath 1 0x0a000001 65001 100 [65001])).2)
    .ipv4Unicast { samplePath 2 0x0a000002 65002 100 [65002] with timestamp := 9 })
  exact absurd sameAge (by decide)

end LocRib

inductive RibCall where
  | change (op : RibOp)
  | setMultipath (enable : Bool)

def LocRib.setMultipath (rib : LocRib) (enable : Bool) : LocRib := { rib with multiPath := enable }

def RibCall.apply (rib : LocRib) : RibCall → LocRib
  | .change op => op.apply rib
  | .setMultipath enable => rib.setMultipath enable

/-- With multipath a path that some comparison prefers to a best path is preferred to the first
one, and the mode is left only while no network has a second best path. -/
def KeepsMarks (rib : LocRib) : RibCall → Prop
  | .change (.insert family path) => path.best = false ∧ (rib.multiPath = true →
      ∀ stored ∈ rib.paths family.afi path.pfx, stored.best = true →
        prefersPath true path (path.refresh stored) = true →
        ∀ head ∈ (rib.paths family.afi path.pfx).head?,
          prefersPath true path (path.refresh head) = true)
  | .change (.drop _ _ _) => True
  | .setMultipath enable => enable = false → ∀ afi pfx, OnlyHeadBest (rib.paths afi pfx)

theorem leadsOrFollows_of_prefersPath {paths : List Path} {multiPath : Bool}
    (marks : BestFirst multiPath (paths.map Path.best))
    (leads : multiPath = true → ∀ stored ∈ paths, stored.best = true →
      prefersPath true path (path.refresh stored) = true →
      ∀ head ∈ paths.head?, prefersPath true path (path.refresh head) = true) :
    LeadsOrFollows multiPath path paths := by
  rintro rfl bestIdx found front
  rcases rposition_eq_some found with ⟨before, value, after, rfl, rfl, best, -⟩
  by_cases preferred : ∃ stored ∈ before ++ [value],
      prefersPath true path (path.refresh stored) = true
  · -- All paths up to the last best one are best, so the new path is preferred to the first.
    rcases preferred with ⟨stored, member, preferred⟩
    rw [List.map_append, List.map_cons, best] at marks
    have storedBest : stored.best = true := by
      rcases List.mem_append.mp member with earlier | last
      · exact marks.before _ (List.mem_map_of_mem earlier)
      · exact List.mem_singleton.mp last ▸ best
    have first := leads rfl stored (by grind) storedBest preferred
    cases before <;> simp_all [position, List.findIdx_cons]
  simp only [not_exists, not_and, Bool.not_eq_true] at preferred
  rw [position, List.append_cons, List.map_append, List.findIdx_append,
    List.findIdx_eq_length_of_false (by simpa [or_imp, forall_and] using preferred)] at front
  simp at front
  omega

namespace LocRib

variable {protocols : List Afi} {multiPath : Bool} {calls front back : List RibCall}

theorem bestFirst_apply (rib : LocRib) (call : RibCall)
    (marks : ∀ afi pfx, BestFirst rib.multiPath ((rib.paths afi pfx).map Path.best))
    (keeps : KeepsMarks rib call) (afi : Afi) (pfx : IpNet) :
    BestFirst (call.apply rib).multiPath (((call.apply rib).paths afi pfx).map Path.best) := by
  match call with
  | .change (.insert family path) =>
    rw [RibCall.apply, RibOp.apply, insert_multiPath]
    exact insert_forall (fun _ _ list => BestFirst _ (list.map Path.best)) marks
      (fun inserted => inserted.bestFirst (marks _ _) keeps.1
        (leadsOrFollows_of_prefersPath (marks _ _) keeps.2)) afi pfx
  | .change (.drop family net id) =>
    rw [RibCall.apply, RibOp.apply, drop_multiPath]
    exact drop_forall (fun _ _ list => BestFirst _ (list.map Path.best)) marks
      (fun shape _ dropped => dropped.bestFirst (shape ▸ marks _ _)) afi pfx
  | .setMultipath enable =>
    refine ⟨(marks afi pfx).head, (marks afi pfx).initial, fun off => ?_⟩
    rw [← List.map_tail, List.forall_mem_map]
    exact keeps off afi pfx

theorem run_bestFirst
    (steps : AllSteps RibCall.apply KeepsMarks (new protocols multiPath) calls) (afi : Afi)
    (pfx : IpNet) :
    BestFirst (calls.foldl RibCall.apply (new protocols multiPath)).multiPath
      (((calls.foldl RibCall.apply (new protocols multiPath)).paths afi pfx).map Path.best) := by
  refine foldl_invariant (fun rib : LocRib => ∀ afi pfx,
    BestFirst rib.multiPath ((rib.paths afi pfx).map Path.best)) bestFirst_apply
    (fun afi pfx => ?_) steps afi pfx
  rw [new_paths]
  exact .nil

/-- In every run whose calls keep the marks, whenever the table is without multipath the first
path of a network is its only best one, and no insertion misses a best path. -/
theorem run_marks_sound (steps : AllSteps RibCall.apply KeepsMarks (new protocols multiPath) calls)
    (split : calls = front ++ back) :
    let rib := front.foldl RibCall.apply (new protocols multiPath)
    (rib.multiPath = false → ∀ afi pfx,
      HeadBest (rib.paths afi pfx) ∧ OnlyHeadBest (rib.paths afi pfx)) ∧
    ∀ family path, back.head? = some (.change (.insert family path)) →
      (rib.insert family path).1 ≠ .error (.rib .pathNotFound) := by
  intro rib
  have marks := run_bestFirst (split ▸ steps).of_append
  have headBest : ∀ afi pfx, HeadBest (rib.paths afi pfx) := by
    intro afi pfx head first
    refine (marks afi pfx).head head.best ?_
    rw [List.head?_map]
    exact Option.mem_map_of_mem _ first
  refine ⟨fun off afi pfx => ⟨headBest afi pfx, ?_⟩, fun family path _ =>
    insert_ne_pathNotFound (headBest _ _)⟩
  exact (marks afi pfx).onlyHeadBest.resolve_left (by simp [rib, off])

theorem run_marks_sound_of_switch :
    let calls : List RibCall :=
      [.change (.insert .ipv4Unicast (samplePath 1 0x0a000001 65001 100 [65001, 64999])),
        .setMultipath false,
        .change (.insert .ipv4Unicast (samplePath 2 0x0a000002 65002 100 [65002, 64999]))]
    let rib := calls.foldl RibCall.apply (new [.ipv4] true)
    (rib.paths .ipv4 sampleNet).length = 2 ∧ OnlyHeadBest (rib.paths .ipv4 sampleNet) := by
  intro calls rib
  have alone : ∀ afi pfx, OnlyHeadBest (((new [.ipv4] true).insert .ipv4Unicast
      (samplePath 1 0x0a000001 65001 100 [65001, 64999])).2.paths afi pfx) := by
    intro afi pfx
    rw [insert_paths, new_paths]
    split_ifs <;> simp [insertInto, OnlyHeadBest]
  have steps : AllSteps RibCall.apply KeepsMarks (new [.ipv4] true) calls :=
    ⟨⟨rfl, by simp [new_paths]⟩, fun _ => alone, ⟨rfl, fun on => absurd on Bool.false_ne_true⟩,
      trivial⟩
  exact ⟨by decide, ((run_marks_sound steps (List.append_nil calls).symm).1 rfl .ipv4 sampleNet).2⟩

/-- The second of two equal paths stays marked when a better one comes after the switch. -/
theorem run_marks_not_sound :
    ¬∀ (calls : List RibCall) (path : Path),
      let rib := calls.foldl RibCall.apply (new [.ipv4] true)
      rib.multiPath = false →
      OnlyHeadBest ((rib.insert .ipv4Unicast path).2.paths .ipv4 path.pfx) := by
  intro claim
  have unmarked := claim
    [.change (.insert .ipv4Unicast (samplePath 1 0x0a000001 65001 100 [65001, 64999])),
      .change (.insert .ipv4Unicast (samplePath 2 0x0a000002 65002 100 [65002, 64999])),
      .setMultipath false]
    (samplePath 3 0x0a000003 65003 200 [65003]) rfl
  exact absurd unmarked (by unfold OnlyHeadBest; decide)

end LocRib

end Sart
