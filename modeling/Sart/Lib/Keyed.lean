import Mathlib

/-!
# Lists of rows with keys

A list may hold one row for each key, in an order of its own.  Such a list is read by its
keys: what is found under a key does not depend on the order.
-/

namespace Sart.Lib

namespace Keyed

universe u v

variable {α : Type u} {κ : Type v} [DecidableEq κ] {key : α → κ} {item row : α} {rows : List α}
  {sought : κ}

def Distinct (key : α → κ) (rows : List α) : Prop := (rows.map key).Nodup

def find (key : α → κ) (rows : List α) (sought : κ) : Option α :=
    rows.find? fun row => key row = sought

/-- Replaces the row with the key of the item, or puts the item behind the rows. -/
def upsert (key : α → κ) (item : α) : List α → List α
  | [] => [item]
  | first :: rest => if key first = key item then item :: rest else first :: upsert key item rest

omit [DecidableEq κ] in
theorem Distinct.tail {first : α} (distinct : Distinct key (first :: rows)) : Distinct key rows :=
  (List.nodup_cons.mp distinct).2

omit [DecidableEq κ] in
theorem Distinct.ne_of_mem {first : α} (distinct : Distinct key (first :: rows))
    (member : row ∈ rows) : key row ≠ key first := by
  intro same
  exact (List.nodup_cons.mp distinct).1 (same ▸ List.mem_map_of_mem member)

omit [DecidableEq κ] in
theorem Distinct.ne_of_split {before after : List α} {first : α}
    (distinct : Distinct key (before ++ first :: after)) (member : row ∈ before ++ after) :
    key row ≠ key first :=
  ne_of_mem ((List.perm_middle.map key).nodup_iff.mp distinct) member

theorem mem_upsert (distinct : Distinct key rows) :
    row ∈ upsert key item rows ↔ row = item ∨ row ∈ rows ∧ key row ≠ key item := by
  induction rows with
  | nil => simp [upsert]
  | cons first rest ih =>
    rw [upsert]
    split_ifs with same
    · constructor
      · rintro (_ | ⟨_, later⟩)
        · exact .inl rfl
        · exact .inr ⟨List.mem_cons_of_mem _ later, same ▸ distinct.ne_of_mem later⟩
      · rintro (rfl | ⟨member, different⟩)
        · exact List.mem_cons_self
        rcases List.mem_cons.mp member with rfl | later
        · exact absurd same different
        · exact List.mem_cons_of_mem _ later
    rw [List.mem_cons, ih distinct.tail, List.mem_cons]
    constructor
    · rintro (rfl | now | ⟨later, different⟩)
      · exact .inr ⟨.inl rfl, same⟩
      · exact .inl now
      · exact .inr ⟨.inr later, different⟩
    · rintro (now | ⟨rfl | later, different⟩)
      · exact .inr (.inl now)
      · exact .inl rfl
      · exact .inr (.inr ⟨later, different⟩)

theorem Distinct.upsert (distinct : Distinct key rows) : Distinct key (upsert key item rows) := by
  induction rows with
  | nil => simp [Keyed.upsert, Distinct]
  | cons first rest ih =>
    rw [Keyed.upsert]
    split_ifs with same
    · rw [Distinct, List.map_cons, ← same]
      exact distinct
    rw [Distinct, List.map_cons, List.nodup_cons]
    refine ⟨fun member => ?_, ih distinct.tail⟩
    rcases List.mem_map.mp member with ⟨later, found, equal⟩
    rcases (mem_upsert distinct.tail).mp found with rfl | ⟨old, -⟩
    · exact same equal.symm
    · exact distinct.ne_of_mem old equal

theorem upsert_ne_nil (key : α → κ) (item : α) (rows : List α) : upsert key item rows ≠ [] := by
  cases rows with
  | nil => simp [upsert]
  | cons first rest =>
    rw [upsert]
    split_ifs <;> simp

theorem find_eq_some (distinct : Distinct key rows) {found : α} :
    Keyed.find key rows sought = some found ↔ found ∈ rows ∧ key found = sought := by
  constructor
  · intro first
    exact ⟨List.mem_of_find?_eq_some first, by simpa using List.find?_some first⟩
  · rintro ⟨member, rfl⟩
    induction rows with
    | nil => simp at member
    | cons first rest ih =>
      rw [Keyed.find, List.find?_cons]
      rcases List.mem_cons.mp member with rfl | later
      · simp
      have other : ¬key first = key found := Ne.symm (distinct.ne_of_mem later)
      simp only [decide_false, other]
      exact ih distinct.tail later

theorem find_eq_none : Keyed.find key rows sought = none ↔ ∀ other ∈ rows, key other ≠ sought := by
  simp [Keyed.find, List.find?_eq_none]

theorem find_eq_of_mem_iff {others : List α} (distinct : Distinct key rows)
    (distinct' : Distinct key others)
    (same : ∀ other, key other = sought → (other ∈ others ↔ other ∈ rows)) :
    Keyed.find key others sought = Keyed.find key rows sought := by
  ext found
  rw [find_eq_some distinct', find_eq_some distinct]
  constructor
  · rintro ⟨member, isKey⟩
    exact ⟨(same found isKey).mp member, isKey⟩
  · rintro ⟨member, isKey⟩
    exact ⟨(same found isKey).mpr member, isKey⟩

end Keyed

end Sart.Lib
