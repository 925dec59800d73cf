import Sart.Rib.BestPath

/-!
# Equal cost multipath

With multipath the best mark is meant for every path that ties with the first
one under the seven remaining comparison functions.  `Path.isEqualCost` looks at
six of them: it does not ask whether a path is locally originated.
-/

namespace Sart

open Sart.Lib

variable {a b stored : Path} {paths : List Path} {pfx : IpNet}

theorem compareLocalOriginated_eq_eq_iff :
    compareLocalOriginated a b = .eq ↔ a.isLocalOriginated = b.isLocalOriginated := by
  unfold compareLocalOriginated
  split_ifs <;> simp_all

theorem compareExternal_eq_eq_iff :
    compareExternal a b = .eq ↔
      decide (a.localAsn = a.peerAsn) = decide (b.localAsn = b.peerAsn) := by
  unfold compareExternal
  split_ifs <;> simp_all

theorem pathOrder_true_eq_eq_iff :
    pathOrder true a b = .eq ↔
      a.isEqualCost b = true ∧ a.isLocalOriginated = b.isLocalOriginated := by
  simp only [pathOrder, lexCompare_eq_eq_iff, comparisons, getComparisonFuncs, if_true,
    List.map_cons, List.map_nil, List.forall_mem_cons, List.not_mem_nil, false_implies,
    implies_true, and_true, compareLocalOriginated_eq_eq_iff, compareExternal_eq_eq_iff,
    compareWeight, compareLocalPref, compareAsPath, compareOrigin, compareMed,
    Std.compare_eq_iff_eq, Path.isEqualCost]
  split_ifs <;> simp_all [eq_comm]

@[simp]
theorem pathOrder_true_refresh_left (path left right : Path) :
    pathOrder true (path.refresh left) right = pathOrder true left right := by
  unfold Path.refresh
  split <;> rfl

@[simp]
theorem pathOrder_true_refresh_right (path left right : Path) :
    pathOrder true left (path.refresh right) = pathOrder true left right := by
  unfold Path.refresh
  split <;> rfl

structure EqualCostMarked (paths : List Path) : Prop where
  marks : ∀ head ∈ paths.head?, ∀ path ∈ paths,
    path.best = true ↔ pathOrder true head path = .eq
  reasons : ∀ path ∈ paths, path.best = false → path.reason = .notBest

namespace EqualCostMarked

theorem nil : EqualCostMarked [] := ⟨by simp, by simp⟩

theorem headBest (marked : EqualCostMarked paths) : HeadBest paths := by
  intro head headMem
  exact (marked.marks head headMem head (List.mem_of_mem_head? headMem)).mpr
    (pathOrder_self true head)

variable {head path : Path}

theorem cons_iff :
    EqualCostMarked (head :: paths) ↔ head.best = true ∧ ∀ path ∈ paths,
      (path.best = true ↔ pathOrder true head path = .eq) ∧
        (path.best = false → path.reason = .notBest) := by
  constructor
  · exact fun marked => ⟨marked.headBest head (by simp), fun path member =>
      ⟨marked.marks head (by simp) path (by simp [member]), marked.reasons path (by simp [member])⟩⟩
  · rintro ⟨best, others⟩
    constructor
    · simpa [best, pathOrder_self] using fun path member => (others path member).1
    · simpa [best] using fun path member => (others path member).2

theorem singleton (best : path.best = true) : EqualCostMarked [path] :=
  cons_iff.mpr ⟨best, by simp⟩

theorem of_sublist {others : List Path} (marked : EqualCostMarked (head :: paths))
    (sub : others.Sublist paths) : EqualCostMarked (head :: others) := by
  rw [cons_iff] at marked ⊢
  exact ⟨marked.1, fun path member => marked.2 path (sub.subset member)⟩

theorem map {change : Path → Path} (marked : EqualCostMarked paths)
    (best : ∀ path, (change path).best = path.best)
    (reason : ∀ path, (change path).reason = path.reason)
    (order : ∀ left right, pathOrder true (change left) (change right) =
      pathOrder true left right) : EqualCostMarked (paths.map change) := by
  constructor
  · intro head headMem path pathMem
    rw [List.head?_map] at headMem
    rcases Option.map_eq_some_iff.mp headMem with ⟨oldHead, oldHeadMem, rfl⟩
    rcases List.mem_map.mp pathMem with ⟨oldPath, oldPathMem, rfl⟩
    rw [best, order]
    exact marked.marks oldHead oldHeadMem oldPath oldPathMem
  · intro path pathMem
    rcases List.mem_map.mp pathMem with ⟨oldPath, oldPathMem, rfl⟩
    rw [best, reason]
    exact marked.reasons oldPath oldPathMem

theorem insertIdx_of_pos {index : ℕ} (marked : EqualCostMarked paths) (nonempty : paths ≠ [])
    (behind : 0 < index)
    (mark : ∀ head ∈ paths.head?, path.best = true ↔ pathOrder true head path = .eq)
    (reason : path.best = false → path.reason = .notBest) :
    EqualCostMarked (paths.insertIdx index path) := by
  rcases List.exists_cons_of_ne_nil nonempty with ⟨head, tail, rfl⟩
  rcases Nat.exists_eq_succ_of_ne_zero behind.ne' with ⟨index, rfl⟩
  rw [Nat.succ_eq_add_one, List.insertIdx_succ_cons]
  rw [cons_iff] at marked ⊢
  refine ⟨marked.1, fun other otherMem => ?_⟩
  rcases List.eq_or_mem_of_mem_insertIdx otherMem with rfl | otherMem
  · exact ⟨mark head (by simp), reason⟩
  · exact marked.2 other otherMem

theorem joinEqualCost {before after : List Path} {value : Path}
    (marked : EqualCostMarked (before ++ value :: after)) (best : value.best = true) :
    EqualCostMarked (before ++ value.joinEqualCost :: after) := by
  have members : ∀ path ∈ before ++ value.joinEqualCost :: after,
      path = value.joinEqualCost ∨ path ∈ before ++ value :: after := by
    intro path pathMem
    simp only [List.mem_append, List.mem_cons] at pathMem ⊢
    tauto
  have heads : ∀ head ∈ (before ++ value.joinEqualCost :: after).head?,
      ∃ old ∈ (before ++ value :: after).head?, ∀ other, pathOrder true head other =
        pathOrder true old other := by
    intro head headMem
    cases before with
    | nil =>
      simp only [List.nil_append, List.head?_cons, Option.mem_def, Option.some.injEq] at headMem
      subst headMem
      exact ⟨value, by simp, fun _ => rfl⟩
    | cons first rest => exact ⟨head, by simpa using headMem, fun _ => rfl⟩
  constructor
  · intro head headMem path pathMem
    rcases heads head headMem with ⟨old, oldMem, sameOrder⟩
    rw [sameOrder]
    rcases members path pathMem with rfl | pathMem
    · exact marked.marks old oldMem value (by simp)
    · exact marked.marks old oldMem path pathMem
  · intro path pathMem unmarked
    rcases members path pathMem with rfl | pathMem
    · simp [Path.joinEqualCost, best] at unmarked
    · exact marked.reasons path pathMem unmarked

theorem cons_of_lt (best : path.best = true)
    (less : ∀ other ∈ paths, pathOrder true path other = .lt)
    (unmarked : ∀ other ∈ paths, other.best = false ∧ other.reason = .notBest) :
    EqualCostMarked (path :: paths) :=
  cons_iff.mpr ⟨best, fun other member => by simp [unmarked other member, less other member]⟩

end EqualCostMarked

variable {before after : List Path} {path other removed : Path}

theorem Ranked.best_of_before {value : Path} (ranked : Ranked true pfx (before ++ value :: after))
    (marked : EqualCostMarked (before ++ value :: after)) (best : value.best = true) :
    ∀ path ∈ before, path.best = true := by
  cases before with
  | nil => simp
  | cons head tail =>
    have members := marked.marks head (by simp)
    have tie : pathOrder true head value = .eq := (members value (by simp)).mp best
    intro path pathMem
    have pathMemAll := List.mem_append_left (value :: after) pathMem
    have headLe : (pathOrder true head path).isLE := ranked.head_le path pathMemAll
    have pathLe : (pathOrder true path value).isLE :=
      (List.pairwise_append.mp ranked.sorted).2.2 path pathMem value (by simp)
    have pathLeHead : (pathOrder true path head).isLE := by
      rw [Std.TransCmp.congr_right tie]
      exact pathLe
    exact (members path pathMemAll).mpr (Std.OrientedCmp.isLE_antisymm headLe pathLeHead)

@[simp]
theorem Path.refresh_reason (path stored : Path) :
    (path.refresh stored).reason = stored.reason := by
  unfold Path.refresh
  split <;> rfl

theorem Path.isEqualCost_refresh (path stored : Path) :
    path.isEqualCost (path.refresh stored) = path.isEqualCost stored := by
  unfold Path.refresh
  split <;> rfl

theorem pathOrder_true_of_isEqualCost (equalCost : path.isEqualCost stored = true) :
    pathOrder true path stored = compareLocalOriginated path stored := by
  simp only [Path.isEqualCost] at equalCost
  split_ifs at equalCost with localPref length origin med external
  simp only [ne_eq, not_not] at localPref length origin med external
  simp [pathOrder, lexCompare, comparisons, getComparisonFuncs, compareWeight, compareLocalPref,
    compareAsPath, compareOrigin, compareMed, compareExternal, localPref, length, origin, med,
    external]

theorem pathOrder_eq_of_isEqualCost (behind : (pathOrder true stored path).isLE)
    (equalCost : path.isEqualCost stored = true)
    (separate : stored.isLocalOriginated = true → path.isLocalOriginated = true) :
    pathOrder true path stored = .eq := by
  have notBefore : pathOrder true path stored ≠ .lt := by
    intro before
    simp [Std.OrientedCmp.gt_of_lt before] at behind
  rw [pathOrder_true_of_isEqualCost equalCost] at notBefore ⊢
  revert notBefore separate
  unfold compareLocalOriginated
  cases path.isLocalOriginated <;> cases stored.isLocalOriginated <;> simp

theorem isLE_swap_of_not_prefersPath (notPreferred : prefersPath true path stored = false) :
    (pathOrder true stored path).isLE := by
  cases order : pathOrder true path stored with
  | lt =>
    have preferred : prefersPath true path stored = true := prefersBySome_of_lexCompare_lt order
    rw [preferred] at notPreferred
    cases notPreferred
  | eq => simp [Std.OrientedCmp.eq_symm order]
  | gt => simp [Std.OrientedCmp.lt_of_gt order]

variable {value : Path}

theorem insertInto_true (best : value.best = true)
    (lastBest : ∀ later ∈ after, later.best = false) :
    insertInto true path (before ++ value :: after) =
      if position true path (before ++ value :: after) ≤ before.length then
        (.ok (.bestPathChanged path.pfx path.id),
          (((before ++ value :: after).map path.refresh).map fun stored =>
            if stored.best then stored.unmark else stored).insertIdx
              (position true path (before ++ value :: after))
              (path.markBest
                (selectPosition true path ((before ++ value :: after).map path.refresh)).2))
      else if before.length + 1 = position true path (before ++ value :: after) then
        if path.isEqualCost value then
          (.ok .multiPathAdded,
            (before.map path.refresh ++ (path.refresh value).joinEqualCost ::
              after.map path.refresh).insertIdx (before.length + 1)
              (path.markBest .equalCostMiltiPath))
        else (.ok .notChanged, ((before ++ value :: after).map path.refresh).insertIdx
          (position true path (before ++ value :: after)) path)
      else (.ok .notChanged, ((before ++ value :: after).map path.refresh).insertIdx
        (position true path (before ++ value :: after)) path) := by
  have found : rposition Path.best (before ++ value :: after) = some before.length :=
    rposition_append_cons best lastBest
  have index : (selectPosition true path ((before ++ value :: after).map path.refresh)).1 =
      position true path (before ++ value :: after) := selectPosition_fst true path _
  have nonempty : (before ++ value :: after).isEmpty = false := by simp
  have atBest : ((before ++ value :: after).map path.refresh)[before.length]? =
      some (path.refresh value) := by simp
  have joined : ((before ++ value :: after).map path.refresh).modify before.length
      Path.joinEqualCost = before.map path.refresh ++ (path.refresh value).joinEqualCost ::
        after.map path.refresh := by
    have := modify_length_append (before.map path.refresh) (after.map path.refresh)
      (path.refresh value) Path.joinEqualCost
    simpa using this
  simp only [insertInto, nonempty, Bool.false_eq_true, if_false, found, index, if_true, atBest,
    Option.any_some, Path.isEqualCost_refresh, joined]
  split_ifs with displaced next equalCost <;> first | rfl | rw [next]

variable (ranked : Ranked true path.pfx (before ++ value :: after))
  (marked : EqualCostMarked (before ++ value :: after)) (best : value.best = true)

include marked best in
theorem exists_head_tie : ∃ head, (before ++ value :: after).head? = some head ∧
    pathOrder true head value = .eq := by
  cases shape : before ++ value :: after with
  | nil => simp at shape
  | cons head tail =>
    refine ⟨head, rfl, ?_⟩
    rw [shape] at marked
    exact (marked.marks head (by simp) value (by simp [← shape])).mp best

include marked in
theorem marked_map_refresh :
    EqualCostMarked ((before ++ value :: after).map path.refresh) :=
  marked.map (Path.refresh_best path) (Path.refresh_reason path) (by simp)

include ranked marked best in
theorem insertInto_true_displace {reason : BestPathReason}
    (follows : ∀ stored ∈ ((before ++ value :: after).map path.refresh).find?
      (prefersPath true path), pathOrder true path stored = .lt)
    (displaced : position true path (before ++ value :: after) ≤ before.length) :
    EqualCostMarked ((((before ++ value :: after).map path.refresh).map fun stored =>
      if stored.best then stored.unmark else stored).insertIdx
        (position true path (before ++ value :: after)) (path.markBest reason)) := by
  rcases exists_head_tie marked best with ⟨head, headEq, headTie⟩
  have refreshed : (before ++ value :: after).map path.refresh =
      before.map path.refresh ++ path.refresh value :: after.map path.refresh := by simp
  have displaced' : (before.map path.refresh ++ path.refresh value ::
      after.map path.refresh).findIdx (prefersPath true path) ≤
        (before.map path.refresh).length := by
    simpa [position] using displaced
  -- the stored path found is one of the best, so the new path precedes the head
  rcases exists_of_findIdx_le_length displaced' with ⟨found, foundEq, foundMem⟩
  have less : pathOrder true path found = .lt := follows found (by rw [refreshed]; exact foundEq)
  have foundTie : pathOrder true head found = .eq := by
    rcases foundMem with foundMem | rfl
    · rcases List.mem_map.mp foundMem with ⟨stored, storedMem, rfl⟩
      have storedBest := ranked.best_of_before marked best stored storedMem
      simpa using (marked.marks head headEq stored (by simp [storedMem])).mp storedBest
    · simpa using headTie
  have lessHead : pathOrder true path head = .lt := by
    rw [Std.TransCmp.congr_right foundTie]
    exact less
  have atFront : position true path (before ++ value :: after) = 0 := by
    cases shape : before ++ value :: after with
    | nil => simp at shape
    | cons first rest =>
      rw [shape] at headEq
      simp only [List.head?_cons, Option.some.injEq] at headEq
      subst headEq
      have preferred : prefersPath true path (path.refresh first) = true := by
        apply prefersBySome_of_lexCompare_lt
        simpa [pathOrder] using (pathOrder_true_refresh_right path path first).trans lessHead
      simp [position, List.findIdx_cons, preferred]
  rw [atFront, List.insertIdx_zero]
  apply EqualCostMarked.cons_of_lt rfl
  · intro other otherMem
    rcases List.mem_map.mp otherMem with ⟨refreshedOther, refreshedMem, rfl⟩
    rcases List.mem_map.mp refreshedMem with ⟨stored, storedMem, rfl⟩
    have headLe : (pathOrder true head stored).isLE := by
      cases shape : before ++ value :: after with
      | nil => simp at shape
      | cons first rest =>
        rw [shape] at headEq ranked storedMem
        simp only [List.head?_cons, Option.some.injEq] at headEq
        subst headEq
        exact ranked.head_le stored storedMem
    have lessStored := Std.TransCmp.lt_of_lt_of_isLE lessHead headLe
    split <;> simpa using lessStored
  · intro other otherMem
    rcases List.mem_map.mp otherMem with ⟨refreshedOther, refreshedMem, rfl⟩
    split
    · exact ⟨rfl, rfl⟩
    rename_i unmarked
    have notBest : refreshedOther.best = false := by simpa using unmarked
    exact ⟨notBest, (marked_map_refresh marked).reasons _ refreshedMem notBest⟩

include marked best in
theorem insertInto_true_behind {stored : List Path} {index : ℕ} {fresh : Path}
    (storedMarked : EqualCostMarked stored)
    (heads : stored.head? = (before ++ value :: after).head?.map path.refresh ∨
      stored.head? = (before ++ value :: after).head?.map
        fun first => (path.refresh first).joinEqualCost) (behind : 0 < index)
    (mark : fresh.best = true ↔ pathOrder true value fresh = .eq)
    (reason : fresh.best = false → fresh.reason = .notBest) :
    EqualCostMarked (stored.insertIdx index fresh) := by
  rcases exists_head_tie marked best with ⟨head, headEq, headTie⟩
  rw [headEq] at heads
  refine storedMarked.insertIdx_of_pos ?_ behind ?_ reason
  · rintro rfl
    simp at heads
  intro first firstMem
  have sameOrder : pathOrder true first fresh = pathOrder true head fresh := by
    rw [firstMem] at heads
    simp only [Option.map_some, Option.some.injEq] at heads
    rcases heads with rfl | rfl
    · simp
    · exact pathOrder_true_refresh_left path head fresh
  rw [sameOrder, Std.TransCmp.congr_left headTie]
  exact mark

include ranked marked best in
theorem pathOrder_ne_eq_of_far (lastBest : ∀ later ∈ after, later.best = false)
    (far : before.length + 1 < position true path (before ++ value :: after)) :
    pathOrder true value path ≠ .eq := by
  rcases exists_head_tie marked best with ⟨head, headEq, headTie⟩
  have nonempty : after ≠ [] := by
    rintro rfl
    have bound : ((before ++ [value]).map path.refresh).findIdx (prefersPath true path) ≤
        ((before ++ [value]).map path.refresh).length := List.findIdx_le_length
    simp only [position, List.length_append, List.length_map, List.length_cons,
      List.length_nil] at far bound
    omega
  rcases List.exists_cons_of_ne_nil nonempty with ⟨next, rest, rfl⟩
  have notPreferred : prefersPath true path (path.refresh next) = false := by
    have far' : ((before ++ [value]).map path.refresh).length <
        ((before ++ [value]).map path.refresh ++ path.refresh next ::
          rest.map path.refresh).findIdx (prefersPath true path) := by
      simpa [position] using far
    exact eq_false_of_length_lt_findIdx far'
  have nextLe : (pathOrder true next path).isLE := by
    simpa using isLE_swap_of_not_prefersPath notPreferred
  have valueLe : (pathOrder true value next).isLE := by
    have tail := (List.pairwise_append.mp ranked.sorted).2.1
    exact (List.pairwise_cons.mp tail).1 next (by simp)
  have nextBehind : pathOrder true value next ≠ .eq := by
    intro tie
    have marks := marked.marks head headEq next (by simp)
    rw [Std.TransCmp.congr_left headTie, lastBest next (by simp)] at marks
    exact absurd (marks.mpr tie) (by simp)
  intro tie
  have pathLe : (pathOrder true next value).isLE := by
    rw [Std.TransCmp.congr_right tie]
    exact nextLe
  exact nextBehind (Std.OrientedCmp.isLE_antisymm valueLe pathLe)

theorem insertInto_true_marked (ranked : Ranked true path.pfx paths)
    (marked : EqualCostMarked paths)
    (follows : ∀ stored ∈ (paths.map path.refresh).find? (prefersPath true path),
      pathOrder true path stored = .lt) (fresh : path.best = false ∧ path.reason = .notBest)
    (separate : ∀ stored ∈ paths, stored.best = true → stored.isLocalOriginated = true →
      path.isEqualCost stored = true → path.isLocalOriginated = true) :
    EqualCostMarked (insertInto true path paths).2 := by
  by_cases empty : paths = []
  · subst empty
    exact EqualCostMarked.singleton rfl
  have found : ∃ bestIdx, rposition Path.best paths = some bestIdx := by
    rcases marked.headBest.marked with isEmpty | ⟨stored, storedMem, storedBest⟩
    · exact absurd isEmpty empty
    rw [← Option.isSome_iff_exists, Option.isSome_iff_ne_none]
    intro missing
    simp [rposition_eq_none_iff.mp missing stored storedMem] at storedBest
  rcases found with ⟨bestIdx, found⟩
  rcases rposition_eq_some found with ⟨before, value, after, rfl, _, best, lastBest⟩
  have heads : ((before ++ value :: after).map path.refresh).head? =
      (before ++ value :: after).head?.map path.refresh := List.head?_map
  have refreshed : EqualCostMarked ((before ++ value :: after).map path.refresh) :=
    marked_map_refresh marked
  rw [insertInto_true best lastBest]
  split_ifs with displaced next equalCost
  · exact insertInto_true_displace ranked marked best follows displaced
  · -- the new path ties with the last best path and joins the best ones
    have notPreferred : prefersPath true path (path.refresh value) = false := by
      have beyond : (before.map path.refresh).length < (before.map path.refresh ++
          path.refresh value :: after.map path.refresh).findIdx (prefersPath true path) := by
        simpa [position] using displaced
      exact eq_false_of_length_lt_findIdx beyond
    have tie : pathOrder true path value = .eq := by
      have behind : (pathOrder true value path).isLE := by
        simpa using isLE_swap_of_not_prefersPath notPreferred
      exact pathOrder_eq_of_isEqualCost behind equalCost fun valueLocal =>
        separate value (by simp) best valueLocal equalCost
    have joined : EqualCostMarked (before.map path.refresh ++
        (path.refresh value).joinEqualCost :: after.map path.refresh) := by
      rw [List.map_append, List.map_cons] at refreshed
      exact refreshed.joinEqualCost ((Path.refresh_best path value).trans best)
    have joinedHeads : (before.map path.refresh ++ (path.refresh value).joinEqualCost ::
        after.map path.refresh).head? = (before ++ value :: after).head?.map path.refresh ∨
        (before.map path.refresh ++ (path.refresh value).joinEqualCost ::
          after.map path.refresh).head? = (before ++ value :: after).head?.map
            fun first => (path.refresh first).joinEqualCost := by
      cases before <;> simp
    refine insertInto_true_behind marked best joined joinedHeads (by omega) ?_
      (by simp [Path.markBest])
    have tie' : pathOrder true value (path.markBest .equalCostMiltiPath) = .eq := by
      simpa using Std.OrientedCmp.eq_symm tie
    simpa only [Path.markBest, true_iff] using tie'
  · -- next to the best paths, but of another cost
    refine insertInto_true_behind marked best refreshed (.inl heads)
      (by omega) ?_ fun _ => fresh.2
    simp only [fresh.1, Bool.false_eq_true, false_iff]
    intro tie
    exact equalCost (pathOrder_true_eq_eq_iff.mp (Std.OrientedCmp.eq_symm tie)).1
  · refine insertInto_true_behind marked best refreshed (.inl heads)
      (by omega) ?_ fun _ => fresh.2
    simp only [fresh.1, Bool.false_eq_true, false_iff]
    exact pathOrder_ne_eq_of_far ranked marked best lastBest (by omega)

theorem Path.isEqualCost_comm (path other : Path) :
    path.isEqualCost other = other.isEqualCost path := by
  simp only [Path.isEqualCost, ne_eq, eq_comm (a := path.localPref),
    eq_comm (a := path.asSequence.length), eq_comm (a := path.origin), eq_comm (a := path.med),
    eq_comm (a := decide (path.localAsn = path.peerAsn))]

theorem Path.isEqualCost_trans {third : Path} (first : path.isEqualCost other = true)
    (second : other.isEqualCost third = true) : path.isEqualCost third = true := by
  simp only [Path.isEqualCost] at first second ⊢
  split_ifs at first second
  simp_all

theorem EqualCostMarked.cons_of_eq (marked : EqualCostMarked paths) (best : path.best = true)
    (tie : ∀ head ∈ paths.head?, pathOrder true path head = .eq) :
    EqualCostMarked (path :: paths) := by
  refine EqualCostMarked.cons_iff.mpr ⟨best, fun other member => ⟨?_, marked.reasons other member⟩⟩
  cases paths with
  | nil => simp at member
  | cons head tail =>
    rw [Std.TransCmp.congr_left (tie head (by simp))]
    exact marked.marks head (by simp) other member

theorem markEqualCost_head? (current : Path) (paths : List Path) :
    ∃ head, (markEqualCost current paths).head? = some head ∧ head.unmark = current.unmark := by
  cases paths with
  | nil => exact ⟨current, rfl, rfl⟩
  | cons next rest =>
    unfold markEqualCost
    split
    · exact ⟨current.joinEqualCost, rfl, rfl⟩
    · exact ⟨current, rfl, rfl⟩

theorem markEqualCost_marked {current : Path} (best : current.best = true)
    (sorted : (current :: paths).Pairwise fun left right => (pathOrder true left right).isLE)
    (unmarked : ∀ path ∈ paths, path.best = false ∧ path.reason = .notBest)
    (separate : current.isLocalOriginated = true → ∀ path ∈ paths,
      current.isEqualCost path = true → path.isLocalOriginated = true) :
    EqualCostMarked (markEqualCost current paths) := by
  -- the paths already scanned tie with `current`, which is all the induction needs of them
  induction paths generalizing current with
  | nil => exact EqualCostMarked.singleton best
  | cons next rest ih =>
    rcases List.pairwise_cons.mp sorted with ⟨currentLe, nextSorted⟩
    have nextLe := currentLe next (by simp)
    unfold markEqualCost
    split
    · rename_i equalCost
      have nextSeparate := fun currentLocal =>
        separate currentLocal next (by simp) equalCost
      have tie : pathOrder true next current = .eq := by
        refine pathOrder_eq_of_isEqualCost nextLe ?_ nextSeparate
        rw [Path.isEqualCost_comm]
        exact equalCost
      have sameLocal : next.isLocalOriginated = current.isLocalOriginated :=
        (pathOrder_true_eq_eq_iff.mp tie).2
      have scanned : EqualCostMarked (markEqualCost (next.markBest .equalCostMiltiPath) rest) := by
        refine ih rfl ?_ (fun path pathMem => unmarked path (by simp [pathMem])) ?_
        · rw [List.pairwise_cons] at nextSorted ⊢
          simpa using nextSorted
        intro nextLocal path pathMem pathCost
        have currentLocal : current.isLocalOriginated = true := sameLocal.symm.trans nextLocal
        exact separate currentLocal path (by simp [pathMem])
          (Path.isEqualCost_trans equalCost pathCost)
      refine scanned.cons_of_eq best ?_
      intro head headMem
      rcases markEqualCost_head? (next.markBest .equalCostMiltiPath) rest with
        ⟨head', headEq, headSame⟩
      rw [Option.mem_def, headEq, Option.some.injEq] at headMem
      subst headMem
      have : pathOrder true current head'.unmark = .eq := by
        rw [headSame]
        simpa using Std.OrientedCmp.eq_symm tie
      exact this
    · rename_i otherCost
      have less : pathOrder true current next = .lt := by
        cases order : pathOrder true current next with
        | lt => rfl
        | eq => exact absurd (pathOrder_true_eq_eq_iff.mp order).1 otherCost
        | gt => simp [order] at nextLe
      refine EqualCostMarked.cons_of_lt best ?_ unmarked
      intro other otherMem
      rcases List.mem_cons.mp otherMem with rfl | otherMem
      · exact less
      · exact Std.TransCmp.lt_of_lt_of_isLE less
          ((List.pairwise_cons.mp nextSorted).1 other otherMem)

theorem pathOrder_lt_of_firstLess {reason : BestPathReason}
    (found : firstLess true path other = some reason) (le : (pathOrder true path other).isLE) :
    pathOrder true path other = .lt := by
  cases order : pathOrder true path other with
  | lt => rfl
  | eq =>
    have none : prefersPath true path other = false :=
      prefersBySome_eq_false_of_lexCompare_eq order
    rw [firstLess_eq_none_iff.mpr none] at found
    cases found
  | gt => simp [order] at le

theorem dropFrom_true_successor {first second : Path} {rest : List Path}
    (ranked : Ranked true pfx (first :: second :: rest))
    (unmarked : ∀ path ∈ first :: second :: rest, path.best = false ∧ path.reason = .notBest)
    (separate : first.isLocalOriginated = true → ∀ path ∈ second :: rest,
      first.isEqualCost path = true → path.isLocalOriginated = true)
    (removedBest : removed.best = true) :
    EqualCostMarked (dropFrom true pfx [] removed (first :: second :: rest)).2 := by
  rcases unmarked first (by simp) with ⟨firstBest, firstReason⟩
  have sorted := ranked.sorted
  rcases List.pairwise_cons.mp sorted with ⟨firstLe, secondSorted⟩
  have others := fun path pathMem => unmarked path (List.mem_cons_of_mem first pathMem)
  simp only [dropFrom, removedBest, List.nil_append, List.isEmpty_nil, firstBest, if_true,
    Bool.false_eq_true, if_false]
  cases found : firstLess true first second with
  | none =>
    simp only [Option.getD_none, firstReason, Path.markBest, true_or, if_true]
    refine markEqualCost_marked rfl ?_ others separate
    rw [List.pairwise_cons] at sorted ⊢
    exact sorted
  | some reason =>
    rcases firstLess_some_reason found with ⟨notBest, notTie⟩
    have less := pathOrder_lt_of_firstLess found (firstLe second (by simp))
    simp only [Option.getD_some, Path.markBest, notBest, notTie, or_self, if_false]
    refine EqualCostMarked.cons_of_lt rfl ?_ others
    intro other otherMem
    rcases List.mem_cons.mp otherMem with rfl | otherMem
    · exact less
    · exact Std.TransCmp.lt_of_lt_of_isLE less
        ((List.pairwise_cons.mp secondSorted).1 other otherMem)

/-- The condition of `drop`: when a lone best path leaves and a locally originated path takes
over, no learned path of equal cost is stored behind it. -/
def SeparateSuccessor : List Path → Prop
  | _ :: next :: rest =>
    next.best = false → next.isLocalOriginated = true → ∀ path ∈ rest,
      next.isEqualCost path = true → path.isLocalOriginated = true
  | _ => True

instance : (paths : List Path) → Decidable (SeparateSuccessor paths)
  | [] => isTrue trivial
  | [_] => isTrue trivial
  | _ :: next :: _ => inferInstanceAs (Decidable (next.best = false → _ → ∀ _ ∈ _, _))

theorem dropFrom_true_marked (ranked : Ranked true pfx (before ++ removed :: after))
    (marked : EqualCostMarked (before ++ removed :: after))
    (separate : before = [] → SeparateSuccessor (removed :: after)) :
    EqualCostMarked (dropFrom true pfx before removed after).2 := by
  cases before with
  | cons head tail =>
    -- the leading path stays, and with it every mark
    have kept : EqualCostMarked (head :: tail ++ after) :=
      marked.of_sublist ((List.sublist_cons_self removed after).append_left tail)
    unfold dropFrom
    dsimp only
    split
    · split
      · rename_i none
        simp at none
      · exact EqualCostMarked.singleton rfl
      · simpa using kept
    · exact kept
  | nil =>
    have removedBest : removed.best = true := marked.headBest removed (by simp)
    have marks := marked.marks removed (by simp)
    match after, ranked, marked, separate, marks with
    | [], _, _, _, _ => simpa [dropFrom, removedBest] using EqualCostMarked.nil
    | [only], _, _, _, _ =>
      simpa [dropFrom, removedBest] using EqualCostMarked.singleton rfl
    | first :: second :: rest, ranked, marked, separate, marks =>
      have remaining : Ranked true pfx (first :: second :: rest) := ranked.remove
      cases firstBest : first.best with
      | true =>
        -- the first two paths tie, so the second one can stand for the first
        have tie := (marks first (by simp)).mp firstBest
        simp only [dropFrom, removedBest, List.nil_append, List.isEmpty_nil, firstBest,
          if_true]
        refine EqualCostMarked.cons_iff.mpr ⟨firstBest, fun path member => ?_⟩
        rw [← Std.TransCmp.congr_left tie]
        exact (EqualCostMarked.cons_iff.mp marked).2 path (by simp [member])
      | false =>
        have firstBehind : pathOrder true removed first ≠ .eq := by
          intro tie
          simp [(marks first (by simp)).mpr tie] at firstBest
        have unmarked : ∀ path ∈ first :: second :: rest,
            path.best = false ∧ path.reason = .notBest := by
          intro path pathMem
          have stored : path ∈ [] ++ removed :: first :: second :: rest :=
            List.mem_cons_of_mem removed pathMem
          have pathBest : path.best = false := by
            rw [← Bool.not_eq_true]
            intro pathBest
            have tie := (marks path stored).mp pathBest
            have firstLe := remaining.head_le path pathMem
            rw [← Std.TransCmp.congr_right tie] at firstLe
            have removedLe := ranked.head_le first (by simp)
            exact firstBehind (Std.OrientedCmp.isLE_antisymm removedLe firstLe)
          exact ⟨pathBest, marked.reasons path stored pathBest⟩
        exact dropFrom_true_successor remaining unmarked
          (separate rfl firstBest) removedBest

/-- An inserted path follows the order, comes without a mark, and is not a learned path of
equal cost to a locally originated best one; a dropped one leaves a separate successor. -/
def KeepsEqualCost (rib : LocRib) : RibOp → Prop
  | .insert family path =>
    FollowsOrder rib (.insert family path) ∧ path.best = false ∧ path.reason = .notBest ∧
      ∀ stored ∈ rib.paths family.afi path.pfx, stored.best = true →
        stored.isLocalOriginated = true → path.isEqualCost stored = true →
        path.isLocalOriginated = true
  | .drop family pfx id =>
    (∃ first ∈ (rib.paths family.afi pfx).head?, first.id = id) →
      SeparateSuccessor (rib.paths family.afi pfx)

instance (rib : LocRib) : (op : RibOp) → Decidable (KeepsEqualCost rib op)
  | .insert _ _ => inferInstanceAs (Decidable (_ ∧ _ ∧ _ ∧ ∀ _ ∈ _, _))
  | .drop _ _ _ => inferInstanceAs (Decidable ((∃ _ ∈ _, _) → _))

theorem EqualCostMarked.initial_segment {head : Path} {tail : List Path}
    (ranked : Ranked true pfx (head :: tail)) (marked : EqualCostMarked (head :: tail)) :
    ∃ bests others, head :: tail = bests ++ others ∧ bests ≠ [] ∧
      (∀ path ∈ bests, path.best = true) ∧ ∀ path ∈ others, path.best = false := by
  have headBest : head.best = true := marked.headBest head (by simp)
  cases found : rposition Path.best (head :: tail) with
  | none => simp [rposition_eq_none_iff.mp found head (by simp)] at headBest
  | some index =>
    rcases rposition_eq_some found with ⟨before, value, after, shape, _, best, lastBest⟩
    rw [shape] at ranked marked ⊢
    refine ⟨before ++ [value], after, by simp, by simp, ?_, lastBest⟩
    have early := ranked.best_of_before marked best
    simpa [or_imp, forall_and, best] using early

namespace LocRib

variable {protocols : List Afi} {ops : List RibOp}

theorem run_equalCostMarked
    (steps : AllSteps RibOp.apply KeepsEqualCost (new protocols true) ops) (afi : Afi)
    (pfx : IpNet) :
    Ranked true pfx (((new protocols true).run ops).paths afi pfx) ∧
      EqualCostMarked (((new protocols true).run ops).paths afi pfx) := by
  refine run_paths_invariant (fun pfx paths => Ranked true pfx paths ∧ EqualCostMarked paths)
    (fun pfx => ⟨Ranked.nil, EqualCostMarked.nil⟩) ?_ ?_ steps afi pfx
  · rintro rib family path multi ⟨follows, fresh, freshReason, separate⟩ ⟨ranked, marked⟩
    have follows' : ∀ stored ∈ ((rib.paths family.afi path.pfx).map path.refresh).find?
        (prefersPath true path), pathOrder true path stored = .lt := by
      simpa only [FollowsOrder, multi] using follows
    refine ⟨?_, insertInto_true_marked ranked marked follows' ⟨fresh, freshReason⟩ separate⟩
    exact Ranked.of_map_unmark (insertInto_map_unmark marked.headBest.marked)
      (ranked.insertIdx follows')
  rintro rib family pfx id before removed after _ separate split ⟨ranked, marked⟩
  rcases splitById_eq_some split with ⟨shape, removedId, _⟩
  refine ⟨Ranked.of_map_unmark (dropFrom_map_unmark true pfx before removed after)
    ranked.remove, dropFrom_true_marked ranked marked ?_⟩
  rintro rfl
  simp only [KeepsEqualCost, shape, List.nil_append, List.head?_cons] at separate
  exact separate ⟨removed, rfl, removedId⟩

theorem insert_ne_pathNotFound {rib : LocRib} {family : AddressFamily} {path : Path}
    (headBest : HeadBest (rib.paths family.afi path.pfx)) :
    (rib.insert family path).1 ≠ .error (.rib .pathNotFound) := by
  by_cases registered : rib.Registered family.afi
  · rw [insert_eq registered]
    rcases headBest.marked with empty | ⟨stored, storedMem, storedBest⟩
    · simp [empty, insertInto]
    unfold insertInto
    split
    · simp
    split
    · rename_i missing
      simp [rposition_eq_none_iff.mp missing stored storedMem] at storedBest
    · dsimp only
      split_ifs <;> simp
  · simp [insert_of_not_registered registered]

/-- In every run whose calls keep the marks exact, the best paths of a network are an initial
segment of its list, they are the paths that all seven comparison functions equate with the
first one, and the next insertion for the network does not miss a best path. -/
theorem run_best_equal_cost {family : AddressFamily} {pfx : IpNet} {head : Path} {tail : List Path}
    (steps : AllSteps RibOp.apply KeepsEqualCost (new protocols true) ops)
    (stored : ((new protocols true).run ops).paths family.afi pfx = head :: tail) :
    (∃ bests others, head :: tail = bests ++ others ∧ bests ≠ [] ∧
      (∀ path ∈ bests, path.best = true) ∧ ∀ path ∈ others, path.best = false) ∧
    (∀ path ∈ head :: tail, path.best = true ↔
      ∀ entry ∈ getComparisonFuncs true, entry.2 head path = .eq) ∧
    ∀ path : Path, path.pfx = pfx →
      (((new protocols true).run ops).insert family path).1 ≠ .error (.rib .pathNotFound) := by
  have invariant := run_equalCostMarked steps family.afi pfx
  refine ⟨?_, ?_, ?_⟩
  · rw [stored] at invariant
    exact invariant.2.initial_segment invariant.1
  · rw [stored] at invariant
    intro path pathMem
    rw [invariant.2.marks head (by simp) path pathMem, pathOrder, lexCompare_eq_eq_iff,
      comparisons, List.forall_mem_map]
  · rintro path rfl
    exact insert_ne_pathNotFound invariant.2.headBest

theorem run_best_equal_cost_of_three :
    let ops : List RibOp :=
      [.insert .ipv4Unicast (samplePath 1 0x0a000001 65001 100 [65001, 64999]),
        .insert .ipv4Unicast (samplePath 2 0x0a000002 65002 100 [65002, 64999]),
        .insert .ipv4Unicast (samplePath 3 0x0a000003 65003 100 [65003, 64998, 64999])]
    ∃ head tail, ((new [.ipv4] true).run ops).paths .ipv4 sampleNet = head :: tail ∧
      (head :: tail).map Path.best = [true, true, false] ∧
      ∀ path ∈ head :: tail, path.best = true ↔
        ∀ entry ∈ getComparisonFuncs true, entry.2 head path = .eq := by
  intro ops
  have steps : AllSteps RibOp.apply KeepsEqualCost (new [.ipv4] true) ops := by decide
  have stored : ∃ head tail,
      ((new [.ipv4] true).run ops).paths AddressFamily.ipv4Unicast.afi sampleNet =
        head :: tail ∧ (head :: tail).map Path.best = [true, true, false] :=
    ⟨_, _, rfl, by decide⟩
  rcases stored with ⟨head, tail, stored, marks⟩
  exact ⟨head, tail, stored, marks, (run_best_equal_cost steps stored).2.1⟩

/-- A path learned over iBGP joins a locally originated best path, although the third
comparison function ranks it behind. -/
theorem run_best_not_equal_cost :
    ¬∀ (ops : List RibOp) (pfx : IpNet) (head : Path) (tail : List Path),
      ((new [.ipv4] true).run ops).paths .ipv4 pfx = head :: tail →
      ∀ path ∈ head :: tail, path.best = true →
        ∀ entry ∈ getComparisonFuncs true, entry.2 head path = .eq := by
  intro claim
  have equated := claim
    [.insert .ipv4Unicast (samplePath 1 sampleRouter 65000 100 []),
      .insert .ipv4Unicast (samplePath 2 0x0a000002 65000 100 [])]
    sampleNet _ _ rfl ((samplePath 2 0x0a000002 65000 100 []).markBest .equalCostMiltiPath)
    (by decide) rfl (.localOriginated, compareLocalOriginated) (by simp [getComparisonFuncs])
  exact absurd equated (by decide)

end LocRib

end Sart
