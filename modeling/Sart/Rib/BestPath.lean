import Sart.Rib.Step

/-!
# Best path selection

The list of a network is meant to be sorted by the comparison functions, the
first that tells two paths apart deciding.  `insert` stops at the first stored
path over which *some* function prefers the new path.  `FollowsOrder` is the
condition under which the two agree for one call.
-/

namespace Sart

open Sart.Lib

structure Ranked (multiPath : Bool) (pfx : IpNet) (paths : List Path) : Prop where
  sorted : paths.Pairwise fun left right => (pathOrder multiPath left right).isLE
  sameAge : ∀ left ∈ paths, ∀ right ∈ paths, left.timestamp = right.timestamp
  sameNet : ∀ path ∈ paths, path.pfx = pfx

variable {paths before after : List Path} {removed path : Path}

namespace Ranked

variable {multiPath : Bool} {pfx : IpNet}

theorem nil : Ranked multiPath pfx [] := ⟨by simp, by simp, by simp⟩

theorem of_map_unmark {others : List Path} (same : others.map Path.unmark = paths.map Path.unmark)
    (ranked : Ranked multiPath pfx paths) : Ranked multiPath pfx others := by
  have transfer : ∀ other ∈ others, ∃ path ∈ paths, path.unmark = other.unmark := by
    intro other otherMem
    have : other.unmark ∈ paths.map Path.unmark := by
      rw [← same]
      exact List.mem_map_of_mem otherMem
    simpa using this
  constructor
  · have sorted : (paths.map Path.unmark).Pairwise
        fun left right => (pathOrder multiPath left right).isLE := by
      rw [List.pairwise_map]
      simpa using ranked.sorted
    rw [← same, List.pairwise_map] at sorted
    simpa using sorted
  · intro left leftMem right rightMem
    rcases transfer left leftMem with ⟨left', leftMem', leftSame⟩
    rcases transfer right rightMem with ⟨right', rightMem', rightSame⟩
    have age := ranked.sameAge left' leftMem' right' rightMem'
    have leftAge : left'.unmark.timestamp = left.unmark.timestamp := by rw [leftSame]
    have rightAge : right'.unmark.timestamp = right.unmark.timestamp := by rw [rightSame]
    exact leftAge.symm.trans (age.trans rightAge)
  · intro other otherMem
    rcases transfer other otherMem with ⟨path, pathMem, pathSame⟩
    have sameNet : other.unmark.pfx = path.unmark.pfx := by rw [pathSame]
    exact sameNet.trans (ranked.sameNet path pathMem)

theorem remove (ranked : Ranked multiPath pfx (before ++ removed :: after)) :
    Ranked multiPath pfx (before ++ after) := by
  have sub : (before ++ after).Sublist (before ++ removed :: after) :=
    (List.sublist_cons_self removed after).append_left before
  refine ⟨ranked.sorted.sublist sub, ?_, ?_⟩
  · intro left leftMem right rightMem
    exact ranked.sameAge left (sub.subset leftMem) right (sub.subset rightMem)
  · intro path pathMem
    exact ranked.sameNet path (sub.subset pathMem)

theorem head_le {best : Path} {rest : List Path} (ranked : Ranked multiPath pfx (best :: rest)) :
    ∀ path ∈ best :: rest, (pathOrder multiPath best path).isLE := by
  intro path pathMem
  rcases List.mem_cons.mp pathMem with rfl | pathMem
  · simp [pathOrder_self]
  · exact (List.pairwise_cons.mp ranked.sorted).1 path pathMem

theorem refresh_eq (ranked : Ranked multiPath path.pfx paths) {stored : Path}
    (storedMem : stored ∈ paths) :
    path.refresh stored = { stored with timestamp := path.timestamp } := by
  simp [Path.refresh, Path.eq_of_pfx (ranked.sameNet stored storedMem)]

theorem map_refresh (ranked : Ranked multiPath path.pfx paths) :
    Ranked multiPath path.pfx (paths.map path.refresh) := by
  have refreshed : paths.map path.refresh =
      paths.map fun stored => { stored with timestamp := path.timestamp } :=
    List.map_congr_left fun stored storedMem => ranked.refresh_eq storedMem
  rw [refreshed]
  refine ⟨?_, ?_, ?_⟩
  · rw [List.pairwise_map]
    refine ranked.sorted.imp_of_mem fun {left right} leftMem rightMem le => ?_
    rw [pathOrder_restamp (ranked.sameAge left leftMem right rightMem)]
    exact le
  · simp
  · simpa using ranked.sameNet

theorem insertIdx (ranked : Ranked multiPath path.pfx paths)
    (follows : ∀ stored ∈ (paths.map path.refresh).find? (prefersPath multiPath path),
      pathOrder multiPath path stored = .lt) :
    Ranked multiPath path.pfx
      ((paths.map path.refresh).insertIdx (position multiPath path paths) path) := by
  have refreshed := ranked.map_refresh
  have members : ∀ other, other ∈ (paths.map path.refresh).insertIdx
      (position multiPath path paths) path → other.timestamp = path.timestamp ∧
        other.pfx = path.pfx := by
    intro other otherMem
    rcases List.eq_or_mem_of_mem_insertIdx otherMem with rfl | otherMem
    · exact ⟨rfl, rfl⟩
    refine ⟨?_, refreshed.sameNet other otherMem⟩
    rcases List.mem_map.mp otherMem with ⟨stored, storedMem, rfl⟩
    rw [ranked.refresh_eq storedMem]
  refine ⟨?_, ?_, fun other otherMem => (members other otherMem).2⟩
  · refine pairwise_insertIdx_findIdx refreshed.sorted ?_ follows
    intro stored _ less
    exact prefersBySome_of_lexCompare_lt less
  · intro left leftMem right rightMem
    rw [(members left leftMem).1, (members right rightMem).1]

end Ranked

/-- The first stored path over which some comparison prefers the inserted one comes after it
in the order.  Stored paths are compared after they took over the new time stamp. -/
def FollowsOrder (rib : LocRib) : RibOp → Prop
  | .insert family path =>
    ∀ stored ∈ ((rib.paths family.afi path.pfx).map path.refresh).find?
      (prefersPath rib.multiPath path), pathOrder rib.multiPath path stored = .lt
  | .drop _ _ _ => True

instance (rib : LocRib) : (op : RibOp) → Decidable (FollowsOrder rib op)
  | .insert _ _ => inferInstanceAs (Decidable (∀ _ ∈ _, _))
  | .drop _ _ _ => isTrue trivial

def HeadBest (paths : List Path) : Prop := ∀ best ∈ paths.head?, best.best = true

theorem HeadBest.marked (headBest : HeadBest paths) :
    paths = [] ∨ ∃ stored ∈ paths, stored.best = true := by
  cases paths with
  | nil => exact Or.inl rfl
  | cons head tail => exact Or.inr ⟨head, by simp, headBest head (by simp)⟩

theorem insertInto_false {head : Path} {tail : List Path} (best : head.best = true) :
    (insertInto false path (head :: tail)).2 =
      if position false path (head :: tail) = 0 then
        path.markBest (selectPosition false path ((head :: tail).map path.refresh)).2 ::
          (path.refresh head).unmark :: tail.map path.refresh
      else ((head :: tail).map path.refresh).insertIdx (position false path (head :: tail))
        path := by
  have found : ∃ bestIdx, rposition Path.best (head :: tail) = some bestIdx := by
    rw [← Option.isSome_iff_exists, Option.isSome_iff_ne_none]
    intro missing
    simp [rposition_eq_none_iff.mp missing head (by simp)] at best
  rcases found with ⟨bestIdx, found⟩
  have index : (selectPosition false path ((head :: tail).map path.refresh)).1 =
      position false path (head :: tail) := selectPosition_fst false path _
  simp only [insertInto, List.isEmpty_cons, Bool.false_eq_true, if_false, found, index]
  split_ifs <;> rfl

theorem Path.refresh_best (path stored : Path) : (path.refresh stored).best = stored.best := by
  unfold Path.refresh
  split <;> rfl

theorem insertInto_false_headBest (headBest : HeadBest paths) :
    HeadBest (insertInto false path paths).2 := by
  cases paths with
  | nil => simp [insertInto, HeadBest, Path.markBest]
  | cons head tail =>
    have best : head.best = true := headBest head (by simp)
    rw [insertInto_false best]
    split
    · simp [HeadBest, Path.markBest]
    rename_i notFront
    rcases Nat.exists_eq_succ_of_ne_zero notFront with ⟨index, indexEq⟩
    simp [HeadBest, indexEq, Path.refresh_best, best]

variable {pfx : IpNet}

theorem dropFrom_false_headBest (headBest : HeadBest (before ++ removed :: after)) :
    HeadBest (dropFrom false pfx before removed after).2 := by
  unfold dropFrom
  dsimp only
  split
  · split
    · simp [HeadBest]
    all_goals simp [HeadBest, Path.markBest]
  rename_i notBest
  cases before with
  | nil => exact absurd (headBest removed (by simp)) notBest
  | cons head tail => simpa [HeadBest] using headBest

def OnlyHeadBest (paths : List Path) : Prop := ∀ path ∈ paths.tail, path.best = false

theorem insertInto_false_onlyHeadBest (unmarked : path.best = false) (headBest : HeadBest paths)
    (onlyHead : OnlyHeadBest paths) : OnlyHeadBest (insertInto false path paths).2 := by
  cases paths with
  | nil => simp [insertInto, OnlyHeadBest]
  | cons head tail =>
    rw [insertInto_false (headBest head (by simp))]
    have tailUnmarked : ∀ stored ∈ tail.map path.refresh, stored.best = false := by
      intro stored storedMem
      rcases List.mem_map.mp storedMem with ⟨old, oldMem, rfl⟩
      rw [Path.refresh_best]
      exact onlyHead old oldMem
    split
    · simpa [OnlyHeadBest, Path.unmark] using tailUnmarked
    rename_i notFront
    rcases Nat.exists_eq_succ_of_ne_zero notFront with ⟨index, indexEq⟩
    simp only [OnlyHeadBest, indexEq, Nat.succ_eq_add_one, List.map_cons,
      List.insertIdx_succ_cons, List.tail_cons]
    intro stored storedMem
    rcases List.eq_or_mem_of_mem_insertIdx storedMem with rfl | storedMem
    · exact unmarked
    · exact tailUnmarked stored storedMem

theorem dropFrom_false_onlyHeadBest (onlyHead : OnlyHeadBest (before ++ removed :: after)) :
    OnlyHeadBest (dropFrom false pfx before removed after).2 := by
  have others : ∀ path ∈ (before ++ after).tail, path.best = false := by
    intro path pathMem
    cases before with
    | nil => exact onlyHead path (by simpa using List.mem_of_mem_tail pathMem)
    | cons head tail =>
      simp only [List.cons_append, List.tail_cons, List.mem_append] at pathMem
      rcases pathMem with early | late
      · exact onlyHead path (by simp [early])
      · exact onlyHead path (by simp [late])
  unfold dropFrom
  dsimp only
  split
  · split
    · simp [OnlyHeadBest]
    · simp [OnlyHeadBest]
    · rename_i first second rest several
      rw [several] at others
      simpa [OnlyHeadBest] using others
  · exact others

namespace LocRib

variable {protocols : List Afi} {ops : List RibOp}

theorem run_ranked (steps : AllSteps RibOp.apply FollowsOrder (new protocols false) ops) (afi : Afi)
    (pfx : IpNet) :
    Ranked false pfx (((new protocols false).run ops).paths afi pfx) ∧
      HeadBest (((new protocols false).run ops).paths afi pfx) := by
  refine run_paths_invariant (fun pfx paths => Ranked false pfx paths ∧ HeadBest paths)
    (fun pfx => ⟨Ranked.nil, by simp [HeadBest]⟩) ?_ ?_ steps afi pfx
  · rintro rib family path multi follows ⟨ranked, headBest⟩
    refine ⟨?_, insertInto_false_headBest headBest⟩
    apply Ranked.of_map_unmark (insertInto_map_unmark headBest.marked)
    apply ranked.insertIdx
    simpa only [FollowsOrder, multi] using follows
  rintro rib family pfx id before removed after _ _ _ ⟨ranked, headBest⟩
  refine ⟨?_, dropFrom_false_headBest headBest⟩
  exact Ranked.of_map_unmark (dropFrom_map_unmark false pfx before removed after) ranked.remove

/-- The inserted paths carry no best mark, as `PathBuilder` builds them. -/
def InsertsUnmarked (ops : List RibOp) : Prop :=
  ∀ family path, RibOp.insert family path ∈ ops → path.best = false

theorem run_onlyHeadBest (protocols : List Afi) (unmarked : InsertsUnmarked ops) (afi : Afi)
    (pfx : IpNet) :
    HeadBest (((new protocols false).run ops).paths afi pfx) ∧
      OnlyHeadBest (((new protocols false).run ops).paths afi pfx) := by
  have steps : AllSteps RibOp.apply
      (fun _ op => ∀ family path, op = .insert family path → path.best = false)
      (new protocols false) ops := by
    generalize new protocols false = rib
    induction ops generalizing rib with
    | nil => trivial
    | cons op ops ih =>
      refine ⟨?_, ih (fun family path member => unmarked family path (by simp [member])) _⟩
      rintro family path rfl
      exact unmarked family path (by simp)
  refine run_paths_invariant (fun _ paths => HeadBest paths ∧ OnlyHeadBest paths)
    (fun pfx => ⟨by simp [HeadBest], by simp [OnlyHeadBest]⟩) ?_ ?_ steps afi pfx
  · rintro rib family path _ fresh ⟨headBest, onlyHead⟩
    exact ⟨insertInto_false_headBest headBest,
      insertInto_false_onlyHeadBest (fresh family path rfl) headBest onlyHead⟩
  · rintro rib family pfx id before removed after _ _ _ ⟨headBest, onlyHead⟩
    exact ⟨dropFrom_false_headBest headBest, dropFrom_false_onlyHeadBest onlyHead⟩

theorem mem_getAllBest {rib : LocRib} {family : AddressFamily} {pfx : IpNet} {best : Path}
    {rest : List Path} (stored : rib.paths family.afi pfx = best :: rest) :
    ∃ all, rib.getAllBest family = some all ∧ best ∈ all := by
  unfold paths at stored
  cases found : rib.table.lookup family.afi with
  | none => simp [found] at stored
  | some table =>
    have entry : table.lookup pfx = some (best :: rest) := by
      cases inner : table.lookup pfx <;> simp_all
    have member : best ∈ table.entries.filterMap fun entry => entry.2.head? := by
      rw [List.mem_filterMap]
      exact ⟨⟨pfx, best :: rest⟩, AList.mem_lookup_iff.mp entry, rfl⟩
    refine ⟨_, ?_, member⟩
    simp only [getAllBest, found]
    split
    · rename_i empty
      simp [empty] at member
    · rfl

/-- In every run whose insertions follow the order, the first path of each list is least among
the stored paths, is marked best and is handed out by `getAllBest`; it is the only one marked
when the inserted paths come unmarked. -/
theorem run_best_minimal {family : AddressFamily} {pfx : IpNet} {best : Path} {rest : List Path}
    (steps : AllSteps RibOp.apply FollowsOrder (new protocols false) ops)
    (stored : ((new protocols false).run ops).paths family.afi pfx = best :: rest) :
    (∀ path ∈ best :: rest, pathOrder false best path ≠ .gt) ∧
      best.best = true ∧
      (∃ all, ((new protocols false).run ops).getAllBest family = some all ∧ best ∈ all) ∧
      (InsertsUnmarked ops → ∀ path ∈ rest, path.best = false) := by
  have invariant := run_ranked steps family.afi pfx
  rw [stored] at invariant
  rcases invariant with ⟨ranked, headBest⟩
  refine ⟨?_, headBest best (by simp), mem_getAllBest stored, ?_⟩
  · intro path pathMem
    have le := ranked.head_le path pathMem
    intro greater
    simp [greater] at le
  intro unmarked
  have only := (run_onlyHeadBest protocols unmarked family.afi pfx).2
  rw [stored] at only
  exact only

theorem run_best_minimal_of_three :
    let ops : List RibOp :=
      [.insert .ipv4Unicast (samplePath 1 0x0a000001 65001 100 [65001, 64999]),
        .insert .ipv4Unicast (samplePath 2 0x0a000002 65002 100 [65002, 64998, 64999]),
        .insert .ipv4Unicast (samplePath 3 0x0a000003 65003 200 [65003])]
    ∃ best rest, ((new [.ipv4] false).run ops).paths .ipv4 sampleNet = best :: rest ∧
      best.id = 3 ∧ rest.length = 2 ∧
      (∀ path ∈ best :: rest, pathOrder false best path ≠ .gt) ∧ best.best = true := by
  intro ops
  have steps : AllSteps RibOp.apply FollowsOrder (new [.ipv4] false) ops := by decide
  have stored : ∃ best rest,
      ((new [.ipv4] false).run ops).paths AddressFamily.ipv4Unicast.afi sampleNet =
        best :: rest ∧ best.id = 3 ∧ rest.length = 2 := ⟨_, _, rfl, by decide, by decide⟩
  rcases stored with ⟨best, rest, stored, bestId, restLength⟩
  have minimal := run_best_minimal steps stored
  exact ⟨best, rest, stored, bestId, restLength, minimal.1, minimal.2.1⟩

/-- A shorter AS path wins over a higher local preference: after two insertions the first path
is not least in the order. -/
theorem run_best_not_minimal :
    ¬∀ (ops : List RibOp) (pfx : IpNet) (best : Path) (rest : List Path),
      ((new [.ipv4] false).run ops).paths .ipv4 pfx = best :: rest →
      ∀ path ∈ best :: rest, pathOrder false best path ≠ .gt := by
  intro claim
  have minimal := claim
    [.insert .ipv4Unicast (samplePath 1 0x0a000001 65001 200 [65001, 64998, 64999]),
      .insert .ipv4Unicast (samplePath 2 0x0a000002 65002 100 [65002])]
    sampleNet _ _ rfl
  exact minimal ((samplePath 1 0x0a000001 65001 200 [65001, 64998, 64999]).unmark)
    (by decide) (by decide)

end LocRib

end Sart
