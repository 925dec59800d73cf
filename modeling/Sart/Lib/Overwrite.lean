import Mathlib

/-!
# Overwriting entries of a table

A table is a function from keys to values.  A list of writes is carried out from
the front, so that the last write under a key decides.
-/

namespace Sart.Lib

variable {κ ν μ : Type*} [DecidableEq κ]

def overwrite (table : κ → ν) (writes : List (κ × ν)) : κ → ν :=
  writes.foldl (fun table write => Function.update table write.1 write.2) table

/-- The value that the last write of a key has. -/
def lastWrite : List (κ × ν) → κ → Option ν
  | [], _ => none
  | write :: rest, key => (lastWrite rest key).or (if write.1 = key then some write.2 else none)

theorem overwrite_apply (table : κ → ν) (writes : List (κ × ν)) (key : κ) :
    overwrite table writes key = (lastWrite writes key).getD (table key) := by
  induction writes generalizing table with
  | nil => rfl
  | cons write rest ih =>
    have first : overwrite table (write :: rest) key =
        overwrite (Function.update table write.1 write.2) rest key := rfl
    rw [first, ih, lastWrite]
    cases lastWrite rest key with
    | some value => rfl
    | none =>
      by_cases here : write.1 = key
      · simp [← here]
      · simp [here, Function.update_of_ne (Ne.symm here)]

theorem lastWrite_append (first second : List (κ × ν)) (key : κ) :
    lastWrite (first ++ second) key = (lastWrite second key).or (lastWrite first key) := by
  induction first with
  | nil => simp [lastWrite]
  | cons write rest ih => simp only [List.cons_append, lastWrite, ih, Option.or_assoc]

variable {writes : List (κ × ν)}

theorem lastWrite_eq_none_iff {key : κ} :
    lastWrite writes key = none ↔ key ∉ writes.map Prod.fst := by
  induction writes with
  | nil => simp [lastWrite]
  | cons write rest ih =>
    simp only [lastWrite, Option.or_eq_none_iff, ih, List.map_cons, List.mem_cons, not_or]
    by_cases here : write.1 = key
    · simp [here]
    · simp [here, Ne.symm here]

theorem mem_of_lastWrite {key : κ} {value : ν} (last : lastWrite writes key = some value) :
    (key, value) ∈ writes := by
  induction writes with
  | nil => cases last
  | cons write rest ih =>
    rw [lastWrite, Option.or_eq_some_iff] at last
    rcases last with later | ⟨_, here⟩
    · exact List.mem_cons_of_mem write (ih later)
    split_ifs at here with same
    simp only [Option.some.injEq] at here
    simp [← same, ← here]

theorem lastWrite_map (writes : List (κ × ν)) (value : κ → ν → μ) (key : κ) :
    lastWrite (writes.map fun write => (write.1, value write.1 write.2)) key =
      (lastWrite writes key).map (value key) := by
  induction writes with
  | nil => rfl
  | cons write rest ih =>
    simp only [List.map_cons, lastWrite, ih]
    cases lastWrite rest key with
    | some last => rfl
    | none =>
      by_cases here : write.1 = key
      all_goals simp [here]

theorem lastWrite_const (keys : List κ) (value : ν) (key : κ) :
    lastWrite (keys.map fun key => (key, value)) key = if key ∈ keys then some value else none := by
  induction keys with
  | nil => rfl
  | cons first rest ih =>
    simp only [List.map_cons, lastWrite, ih, List.mem_cons]
    by_cases later : key ∈ rest
    · simp [later]
    · simp [later, eq_comm]

end Sart.Lib
