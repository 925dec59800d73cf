import Mathlib

/-!
# Tables filled by loops

A program that fills a hash map in a loop leaves behind a map of which only the
entries count, not the order in which they were made.  The lemmas here say what is
found under a key after such a loop.
-/

namespace Sart.Lib

namespace Table

universe u v w

variable {κ : Type u} [DecidableEq κ] {α : Type v} {γ : Type w}

variable {ι : Type*} {step : (AList fun _ : κ => α) → ι → AList fun _ : κ => α}

/-- A loop in which each item writes the entry of its key, for items with different keys. -/
theorem lookup_foldl (key : ι → κ) (own : ι → Option α → Option α)
    (writes : ∀ table item other, (step table item).lookup other =
      if other = key item then own item (table.lookup other) else table.lookup other)
    {items : List ι} (distinct : (items.map key).Nodup) (table : AList fun _ : κ => α) :
    (∀ item ∈ items, (items.foldl step table).lookup (key item) =
        own item (table.lookup (key item))) ∧
      ∀ other ∉ items.map key, (items.foldl step table).lookup other = table.lookup other := by
  induction items generalizing table with
  | nil => simp
  | cons first rest ih =>
    rw [List.map_cons, List.nodup_cons] at distinct
    rcases ih distinct.2 (step table first) with ⟨written, kept⟩
    constructor
    · intro item member
      rw [List.foldl_cons]
      rcases List.mem_cons.mp member with now | later
      · subst now
        rw [kept _ distinct.1, writes, if_pos rfl]
      have different : key item ≠ key first := by
        intro same
        exact distinct.1 (same ▸ List.mem_map_of_mem later)
      rw [written item later, writes, if_neg different]
    · intro other absent
      rw [List.map_cons, List.mem_cons, not_or] at absent
      rw [List.foldl_cons, kept other absent.2, writes, if_neg absent.1]

theorem lookup_foldl_keys {step : (AList fun _ : κ => α) → κ → AList fun _ : κ => α}
    (own : κ → Option α → Option α) (writes : ∀ table key other, (step table key).lookup other =
      if other = key then own key (table.lookup other) else table.lookup other)
    {keys : List κ} (distinct : keys.Nodup) (table : AList fun _ : κ => α) (key : κ) :
    (keys.foldl step table).lookup key =
      if key ∈ keys then own key (table.lookup key) else table.lookup key := by
  have loop := lookup_foldl id own writes (by rwa [List.map_id]) table
  rw [List.map_id] at loop
  split_ifs with member
  · exact loop.1 key member
  · exact loop.2 key member

theorem lookup_foldl_entries
    {step : (AList fun _ : κ => α) → (Sigma fun _ : κ => γ) → AList fun _ : κ => α}
    (own : γ → Option α → Option α)
    (writes : ∀ table (entry : Sigma fun _ : κ => γ) other, (step table entry).lookup other =
      if other = entry.1 then own entry.2 (table.lookup other) else table.lookup other)
    (entries : AList fun _ : κ => γ) (table : AList fun _ : κ => α) (key : κ) :
    (entries.entries.foldl step table).lookup key =
      match entries.lookup key with
      | some value => own value (table.lookup key)
      | none => table.lookup key := by
  have loop := lookup_foldl Sigma.fst (fun entry : Sigma fun _ : κ => γ => own entry.2) writes
    entries.nodupKeys table
  cases found : entries.lookup key with
  | none =>
    refine loop.2 key fun member => ?_
    exact AList.lookup_eq_none.mp found (AList.mem_keys.mpr member)
  | some value => exact loop.1 ⟨key, value⟩ (AList.mem_lookup_iff.mp found)

/-- The table of a function on some keys. -/
def ofKeys (keys : List κ) (value : κ → α) : AList fun _ : κ => α :=
  keys.foldl (fun table key => table.insert key (value key)) ∅

theorem lookup_insert (table : AList fun _ : κ => α) (key : κ) (value : α) (other : κ) :
    (table.insert key value).lookup other = if other = key then
      some value else table.lookup other := by
  by_cases same : other = key
  · subst same
    rw [AList.lookup_insert, if_pos rfl]
  · rw [AList.lookup_insert_ne same, if_neg same]

theorem lookup_erase (table : AList fun _ : κ => α) (key other : κ) :
    (table.erase key).lookup other = if other = key then none else table.lookup other := by
  by_cases same : other = key
  · subst same
    rw [AList.lookup_erase, if_pos rfl]
  · rw [AList.lookup_erase_ne same, if_neg same]

theorem lookup_erase_eq_some {table : AList fun _ : κ => α} {key other : κ} {value : α} :
    (table.erase key).lookup other = some value ↔
      other ≠ key ∧ table.lookup other = some value := by
  rw [lookup_erase]
  split_ifs with same
  all_goals simp [same]

variable (items : List α) (fits : γ → α → Bool) (keys : List κ) (value : κ → α)

theorem lookup_foldl_insert (table : AList fun _ : κ => α) (key : κ) :
    (keys.foldl (fun table key => table.insert key (value key)) table).lookup key =
      if key ∈ keys then some (value key) else table.lookup key := by
  induction keys generalizing table with
  | nil => rfl
  | cons first rest ih =>
    rw [List.foldl_cons, ih, lookup_insert]
    by_cases later : key ∈ rest
    · rw [if_pos later, if_pos (List.mem_cons_of_mem _ later)]
    by_cases now : key = first
    · rw [if_neg later, if_pos now, if_pos (by simp [now]), now]
    · rw [if_neg later, if_neg now, if_neg (by simp [now, later])]

@[simp]
theorem lookup_ofKeys (key : κ) :
    (ofKeys keys value).lookup key = if key ∈ keys then some (value key) else none := by
  rw [ofKeys, lookup_foldl_insert]
  rfl

theorem lookup_foldl_erase (table : AList fun _ : κ => α) (key : κ) :
    (keys.foldl (fun table key => table.erase key) table).lookup key =
      if key ∈ keys then none else table.lookup key := by
  induction keys generalizing table with
  | nil => rfl
  | cons first rest ih =>
    rw [List.foldl_cons, ih, lookup_erase]
    by_cases now : key = first
    · rw [if_pos now, ite_self, if_pos (by simp [now])]
    · rw [if_neg now]
      simp only [List.mem_cons, now, false_or]

def mapValues (change : γ → α) (table : AList fun _ : κ => γ) : AList fun _ : κ => α :=
  table.entries.foldl (fun changed entry => changed.insert entry.1 (change entry.2)) ∅

@[simp]
theorem lookup_mapValues (change : γ → α) (table : AList fun _ : κ => γ) (key : κ) :
    (mapValues change table).lookup key = (table.lookup key).map change := by
  rw [mapValues, lookup_foldl_entries fun value _ => some (change value)]
  · cases table.lookup key <;> rfl
  · exact fun changed entry other => lookup_insert changed entry.1 (change entry.2) other

def append (table : AList fun _ : κ => List α) (key : κ) (items : List α) :
    AList fun _ : κ => List α :=
  match table.lookup key with
  | some before => table.insert key (before ++ items)
  | none => table.insert key items

theorem lookup_append (table : AList fun _ : κ => List α) (key : κ) (items : List α) (other : κ) :
    (append table key items).lookup other =
      if other = key then some ((table.lookup other).getD [] ++ items) else table.lookup other := by
  by_cases same : other = key
  · subst same
    cases found : table.lookup other with
    | none | some before => simp [append, found]
  · cases found : table.lookup key with
    | none | some before => simp [append, found, same]

def nonEmpty : List α → Option (List α)
  | [] => none
  | items => some items

@[simp]
theorem getD_nonEmpty : (nonEmpty items).getD [] = items := by
  cases items <;> rfl

theorem nonEmpty_append_singleton (item : α) :
    nonEmpty (items ++ [item]) = some (items ++ [item]) := by
  cases items <;> rfl

theorem nonEmpty_eq_some {items others : List α} :
    nonEmpty items = some others ↔ items = others ∧ items ≠ [] := by
  cases items with
  | nil | cons first rest => simp [nonEmpty]

/-- Puts an item behind those of every key that it fits. -/
def pushFitting (fits : γ → α → Bool) (entries : List (Sigma fun _ : κ => γ)) (item : α)
    (table : AList fun _ : κ => List α) : AList fun _ : κ => List α :=
  entries.foldl (fun table entry => if fits entry.2 item then
    append table entry.1 [item] else table)
    table

theorem lookup_pushFitting (entries : AList fun _ : κ => γ) (item : α)
    (table : AList fun _ : κ => List α) (key : κ) :
    (pushFitting fits entries.entries item table).lookup key =
      if (entries.lookup key).any (fits · item) then some ((table.lookup key).getD [] ++ [item])
      else table.lookup key := by
  rw [pushFitting, lookup_foldl_entries fun value items =>
    if fits value item then some (items.getD [] ++ [item]) else items]
  · cases entries.lookup key <;> rfl
  intro table entry other
  by_cases fitting : fits entry.2 item = true
  · rw [if_pos fitting, lookup_append, if_pos fitting]
  · rw [if_neg fitting, if_neg fitting, ite_self]

def gather (fits : γ → α → Bool) (entries : AList fun _ : κ => γ) (items : List α) :
    AList fun _ : κ => List α :=
  items.foldl (fun table item => pushFitting fits entries.entries item table) ∅

theorem lookup_gather (entries : AList fun _ : κ => γ) (items : List α) (key : κ) :
    (gather fits entries items).lookup key =
      (entries.lookup key).bind fun value => nonEmpty (items.filter (fits value)) := by
  induction items using List.reverseRecOn with
  | nil => cases entries.lookup key <;> rfl
  | append_singleton before item ih =>
    have step : gather fits entries (before ++ [item]) =
        pushFitting fits entries.entries item (gather fits entries before) := by
      rw [gather, List.foldl_append]
      rfl
    rw [step, lookup_pushFitting, ih]
    cases entries.lookup key with
    | none => rfl
    | some value =>
      simp only [Option.any_some, Option.bind_some, List.filter_append]
      by_cases fitting : fits value item = true
      · rw [if_pos fitting, List.filter_cons_of_pos fitting, List.filter_nil,
          nonEmpty_append_singleton, getD_nonEmpty]
      · rw [if_neg fitting, List.filter_cons_of_neg fitting, List.filter_nil, List.append_nil]

end Table

end Sart.Lib
