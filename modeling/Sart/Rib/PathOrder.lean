import Sart.Rib.LocRib

/-!
# The order of the comparison functions

The list of comparison functions is a total preorder on paths.  The function for
older routes is not transitive on its own; the function for external paths before
it separates exactly the paths it treats as equally old.
-/

namespace Sart

open Sart.Lib

instance : Std.TransCmp compareWeight where
  eq_swap := rfl
  isLE_trans _ _ := rfl

instance : Std.TransCmp compareLocalPref :=
  inferInstanceAs (Std.TransCmp fun a b => compareOn Path.localPref b a)

theorem compareLocalOriginated_eq :
    compareLocalOriginated = compareOn fun path => !path.isLocalOriginated := by
  funext a b
  simp only [compareLocalOriginated, compareOn]
  cases a.isLocalOriginated <;> cases b.isLocalOriginated <;> rfl

instance : Std.TransCmp compareLocalOriginated := by
  rw [compareLocalOriginated_eq]
  infer_instance

instance : Std.TransCmp compareAsPath :=
  inferInstanceAs (Std.TransCmp (compareOn fun path : Path => path.asSequence.length))

instance : Std.TransCmp compareOrigin := inferInstanceAs (Std.TransCmp (compareOn Path.origin))

instance : Std.TransCmp compareMed := inferInstanceAs (Std.TransCmp (compareOn Path.med))

theorem compareExternal_eq :
    compareExternal = compareOn fun path => decide (path.localAsn = path.peerAsn) := by
  funext a b
  unfold compareExternal compareOn
  by_cases left : a.localAsn = a.peerAsn <;> by_cases right : b.localAsn = b.peerAsn <;>
    simp [left, right] <;> rfl

instance : Std.TransCmp compareExternal := by
  rw [compareExternal_eq]
  infer_instance

instance : Std.TransCmp comparePeerRouterId :=
  inferInstanceAs (Std.TransCmp (compareOn Path.peerId))

instance : Std.TransCmp comparePeerAddr :=
  inferInstanceAs (Std.TransCmp (compareOn Path.peerAddr))

/-- The age of a path regardless of how it was learned. -/
def compareTimestamp : ComparisonFunc := compareOn Path.timestamp

instance : Std.TransCmp compareTimestamp := inferInstanceAs (Std.TransCmp (compareOn _))

theorem compareExternal_then_olderRoute (a b : Path) (rest : Ordering) :
    (compareExternal a b).then ((compareOlderRoute a b).then rest) =
      (compareExternal a b).then ((compareTimestamp a b).then rest) := by
  by_cases left : a.localAsn = a.peerAsn <;> by_cases right : b.localAsn = b.peerAsn <;>
    simp [compareExternal, compareOlderRoute, compareTimestamp, compareOn, left, right]

theorem pathOrder_false_eq :
    pathOrder false = lexCompare [compareWeight, compareLocalPref, compareLocalOriginated,
      compareAsPath, compareOrigin, compareMed, compareExternal, compareTimestamp,
      comparePeerRouterId, comparePeerAddr] := by
  funext a b
  simp only [pathOrder, comparisons, getComparisonFuncs, Bool.false_eq_true, if_false,
    List.cons_append, List.nil_append, List.map_cons, List.map_nil, lexCompare,
    compareExternal_then_olderRoute]

instance (multiPath : Bool) : Std.TransCmp (pathOrder multiPath) := by
  cases multiPath with
  | true =>
    apply transCmp_lexCompare
    intro compare compareMem
    simp only [comparisons, getComparisonFuncs, if_true, List.map_cons, List.map_nil,
      List.mem_cons, List.not_mem_nil, or_false] at compareMem
    rcases compareMem with rfl | rfl | rfl | rfl | rfl | rfl | rfl <;> infer_instance
  | false =>
    rw [pathOrder_false_eq]
    apply transCmp_lexCompare
    intro compare compareMem
    simp only [List.mem_cons, List.not_mem_nil, or_false] at compareMem
    rcases compareMem with rfl | rfl | rfl | rfl | rfl | rfl | rfl | rfl | rfl | rfl <;>
      infer_instance

variable (multiPath : Bool) (path other : Path) (reason : BestPathReason)

theorem pathOrder_self :
    pathOrder multiPath path path = .eq := Std.ReflCmp.compare_self

@[simp]
theorem pathOrder_markBest_left :
    pathOrder multiPath (path.markBest reason) other = pathOrder multiPath path other := by
  cases multiPath <;> rfl

@[simp]
theorem pathOrder_markBest_right :
    pathOrder multiPath path (other.markBest reason) = pathOrder multiPath path other := by
  cases multiPath <;> rfl

@[simp]
theorem pathOrder_unmark_left :
    pathOrder multiPath path.unmark other = pathOrder multiPath path other := by
  cases multiPath <;> rfl

@[simp]
theorem pathOrder_unmark_right :
    pathOrder multiPath path other.unmark = pathOrder multiPath path other := by
  cases multiPath <;> rfl

theorem pathOrder_restamp {left right : Path} (sameAge : left.timestamp = right.timestamp)
    (multiPath : Bool) (time : ℕ) :
    pathOrder multiPath { left with timestamp := time } { right with timestamp := time } =
      pathOrder multiPath left right := by
  cases multiPath with
  | true => rfl
  | false =>
    have here : compareTimestamp left right = .eq := by
      simp [compareTimestamp, compareOn, sameAge]
    have there : compareTimestamp { left with timestamp := time }
        { right with timestamp := time } = .eq := by
      simp [compareTimestamp, compareOn]
    rw [pathOrder_false_eq]
    simp only [lexCompare, here, there]
    rfl

end Sart
