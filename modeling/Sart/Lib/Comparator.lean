import Mathlib

/-!
# Chains of comparison functions

A chain of comparison functions ranks two values by the first function that
tells them apart (`lexCompare`).  `prefersBySome` is the weaker test which a
loop computes when it passes over those answering "greater".
-/

namespace Sart.Lib

universe u

variable {α : Type u}

/-- Rank two values by the first comparison that does not answer `eq`. -/
def lexCompare : List (α → α → Ordering) → α → α → Ordering
  | [], _, _ => .eq
  | compare :: rest, left, right => (compare left right).then (lexCompare rest left right)

/-- Some comparison of the chain answers `lt`, whatever the earlier ones answer. -/
def prefersBySome (compares : List (α → α → Ordering)) (left right : α) : Bool :=
  compares.any fun compare => compare left right == .lt

variable {compares : List (α → α → Ordering)} {left right : α}

theorem lexCompare_eq_eq_iff :
    lexCompare compares left right = .eq ↔ ∀ compare ∈ compares, compare left right = .eq := by
  induction compares with
  | nil => simp [lexCompare]
  | cons compare rest ih => simp [lexCompare, Ordering.then_eq_eq, ih]

theorem prefersBySome_of_lexCompare_lt (less : lexCompare compares left right = .lt) :
    prefersBySome compares left right = true := by
  induction compares with
  | nil => simp [lexCompare] at less
  | cons compare rest ih =>
    rcases Ordering.then_eq_lt.mp less with headLess | ⟨_, tailLess⟩
    · simp [prefersBySome, headLess]
    have := ih tailLess
    simp only [prefersBySome, List.any_cons] at this ⊢
    simp [this]

theorem prefersBySome_eq_false_of_lexCompare_eq (equal : lexCompare compares left right = .eq) :
    prefersBySome compares left right = false := by
  have allEqual := lexCompare_eq_eq_iff.mp equal
  simp only [prefersBySome, List.any_eq_false]
  intro compare compareMem
  simp [allEqual compare compareMem]

theorem transCmp_lexCompare (each : ∀ compare ∈ compares, Std.TransCmp compare) :
    Std.TransCmp (lexCompare compares) := by
  induction compares with
  | nil => exact { eq_swap := rfl, isLE_trans := fun _ _ => rfl }
  | cons compare rest ih =>
    have head : Std.TransCmp compare := each compare (by simp)
    have tail : Std.TransCmp (lexCompare rest) :=
      ih fun other otherMem => each other (by simp [otherMem])
    exact inferInstanceAs (Std.TransCmp (compareLex compare (lexCompare rest)))

variable {beats : α → Bool} {front back : List α} {value : α}

theorem insertIdx_length_append (front back : List α) (value : α) :
    (front ++ back).insertIdx front.length value = front ++ value :: back := by
  induction front with
  | nil => simp
  | cons head front ih => simp [ih]

theorem modify_length_append (front back : List α) (value : α) (change : α → α) :
    (front ++ value :: back).modify front.length change = front ++ change value :: back := by
  induction front with
  | nil => simp
  | cons head front ih => simp [ih]

theorem eq_false_of_length_lt_findIdx
    (early : front.length < (front ++ value :: back).findIdx beats) : beats value = false := by
  induction front with
  | nil =>
    cases passes : beats value with
    | false => rfl
    | true => simp [List.findIdx_cons, passes] at early
  | cons head front ih =>
    apply ih
    cases passes : beats head with
    | true => simp [List.findIdx_cons, passes] at early
    | false =>
      simp only [List.cons_append, List.findIdx_cons, passes, cond_false,
        List.length_cons] at early
      omega

theorem exists_of_findIdx_le_length (late : (front ++ value :: back).findIdx beats ≤ front.length) :
    ∃ found, (front ++ value :: back).find? beats = some found ∧
      (found ∈ front ∨ found = value) := by
  induction front with
  | nil =>
    cases passes : beats value with
    | true => exact ⟨value, by simp [passes], Or.inr rfl⟩
    | false => simp [List.findIdx_cons, passes] at late
  | cons head front ih =>
    cases passes : beats head with
    | true => exact ⟨head, by simp [passes], by simp⟩
    | false =>
      simp only [List.cons_append, List.findIdx_cons, passes, cond_false,
        List.length_cons] at late
      rcases ih (by omega) with ⟨found, foundEq, member⟩
      refine ⟨found, by simp [passes, foundEq], ?_⟩
      rcases member with member | same
      · exact Or.inl (by simp [member])
      · exact Or.inr same

variable {order : α → α → Ordering} [Std.TransCmp order] {fresh : α}

/-- Insertion before the first beaten element keeps a list sorted, provided that every
strictly later element is beaten and that the first beaten one is strictly later. -/
theorem pairwise_insertIdx_findIdx {values : List α}
    (sorted : values.Pairwise fun left right => (order left right).isLE)
    (complete : ∀ value ∈ values, order fresh value = .lt → beats value = true)
    (sound : ∀ value, values.find? beats = some value → order fresh value = .lt) :
    (values.insertIdx (values.findIdx beats) fresh).Pairwise
      fun left right => (order left right).isLE := by
  induction values with
  | nil => simp
  | cons head tail ih =>
    rcases List.pairwise_cons.mp sorted with ⟨headLe, tailSorted⟩
    cases beaten : beats head with
    | true =>
      have freshLt : order fresh head = .lt := sound head (by simp [beaten])
      simp only [List.findIdx_cons, beaten, cond_true, List.insertIdx_zero,
        List.pairwise_cons]
      refine ⟨?_, headLe, tailSorted⟩
      intro value valueMem
      rcases List.mem_cons.mp valueMem with rfl | valueMem
      · simp [freshLt]
      · exact Ordering.isLE_of_eq_lt
          (Std.TransCmp.lt_of_lt_of_isLE freshLt (headLe value valueMem))
    | false =>
      simp only [List.findIdx_cons, beaten, cond_false, List.insertIdx_succ_cons,
        List.pairwise_cons]
      constructor
      · intro value valueMem
        rcases (List.mem_insertIdx List.findIdx_le_length).mp valueMem with rfl | valueMem
        · have notLess : order value head ≠ .lt := by
            intro less
            simp [complete head (by simp) less] at beaten
          cases found : order value head with
          | lt => exact absurd found notLess
          | eq => simp [Std.OrientedCmp.eq_symm found]
          | gt => simp [Std.OrientedCmp.lt_of_gt found]
        · exact headLe value valueMem
      · apply ih tailSorted
        · intro value valueMem
          exact complete value (by simp [valueMem])
        · intro value found
          exact sound value (by simp [beaten, found])

end Sart.Lib
