import Mathlib

/-!
# Runs of a step function

A run feeds a list of inputs to a deterministic step function.  `AllSteps`
states a side condition of every step in the state the step starts from, and
`foldl_invariant` is the induction every safety statement about runs uses.
`Pending` is about the events of a run: one of them opens what a later one closes.
-/

namespace Sart.Lib

universe u v

variable {State : Type u} {Input : Type v}

def AllSteps (step : State → Input → State) (condition : State → Input → Prop) :
    State → List Input → Prop
  | _, [] => True
  | state, input :: inputs =>
    condition state input ∧ AllSteps step condition (step state input) inputs

instance decidableAllSteps (step : State → Input → State) (condition : State → Input → Prop)
    [∀ state input, Decidable (condition state input)] :
    (state : State) → (inputs : List Input) → Decidable (AllSteps step condition state inputs)
  | _, [] => isTrue trivial
  | state, input :: inputs =>
    have := decidableAllSteps step condition (step state input) inputs
    inferInstanceAs (Decidable (condition state input ∧ _))

variable {step : State → Input → State} {condition : State → Input → Prop}
  {inputs more : List Input} {state : State} {other : State → Input → Prop}
  (invariant good : State → Prop)

theorem foldl_invariant (kept : ∀ state input, invariant state → condition state input →
      invariant (step state input)) (initial : invariant state)
    (steps : AllSteps step condition state inputs) : invariant (inputs.foldl step state) := by
  induction inputs generalizing state with
  | nil => exact initial
  | cons input inputs ih =>
    rcases steps with ⟨here, later⟩
    exact ih (kept state input initial here) later

theorem AllSteps.of_append (steps : AllSteps step condition state (inputs ++ more)) :
    AllSteps step condition state inputs := by
  induction inputs generalizing state with
  | nil => trivial
  | cons input inputs ih => exact ⟨steps.1, ih steps.2⟩

theorem AllSteps.append_right (steps : AllSteps step condition state (inputs ++ more)) :
    AllSteps step condition (inputs.foldl step state) more := by
  induction inputs generalizing state with
  | nil => exact steps
  | cons input inputs ih => exact ih steps.2

theorem allSteps_of_forall {property : Input → Prop} (all : ∀ input ∈ inputs, property input) :
    AllSteps step (fun _ input => property input) state inputs := by
  induction inputs generalizing state with
  | nil => trivial
  | cons input inputs ih =>
    exact ⟨all input List.mem_cons_self, ih fun other later =>
      all other (List.mem_cons_of_mem _ later)⟩

theorem AllSteps.exists_of_mem {input : Input} (steps : AllSteps step condition state inputs)
    (member : input ∈ inputs) :
    ∃ reached, condition reached input := by
  induction inputs generalizing state with
  | nil => simp at member
  | cons first rest ih =>
    rcases List.mem_cons.mp member with rfl | later
    · exact ⟨state, steps.1⟩
    · exact ih steps.2 later

theorem AllSteps.and (steps : AllSteps step condition state inputs)
    (others : AllSteps step other state inputs) :
    AllSteps step (fun state input => condition state input ∧ other state input) state inputs := by
  induction inputs generalizing state with
  | nil => trivial
  | cons input inputs ih => exact ⟨⟨steps.1, others.1⟩, ih steps.2 others.2⟩

theorem allSteps_congr (kept : ∀ state input, invariant state → invariant (step state input))
    (agree : ∀ state input, invariant state → (condition state input ↔ other state input))
    (initial : invariant state) :
    AllSteps step condition state inputs ↔ AllSteps step other state inputs := by
  induction inputs generalizing state with
  | nil => exact Iff.rfl
  | cons input inputs ih =>
    exact and_congr (agree state input initial) (ih (kept state input initial))

/-- Where the condition is what a step needs to reach a good state from a state with the
invariant, a run is good throughout exactly if its steps meet the condition.  The steps may be
assumed to meet another one. -/
theorem forall_take_iff_allSteps_of {assumed : State → Input → Prop}
    (isGood : ∀ state, invariant state → good state)
    (kept : ∀ state input, invariant state → assumed state input → condition state input →
      invariant (step state input))
    (needed : ∀ state input, invariant state → assumed state input → good (step state input) →
      condition state input) (initial : invariant state)
    (within : AllSteps step assumed state inputs) :
    (∀ n, good ((inputs.take n).foldl step state)) ↔ AllSteps step condition state inputs := by
  induction inputs generalizing state with
  | nil => exact ⟨fun _ => trivial, fun _ n => by simpa using isGood state initial⟩
  | cons input inputs ih =>
    rcases within with ⟨here, later⟩
    constructor
    · intro always
      have meets := needed state input initial here (always 1)
      exact ⟨meets, (ih (kept state input initial here meets) later).mp fun n => always (n + 1)⟩
    · rintro ⟨meets, rest⟩ n
      cases n with
      | zero => exact isGood state initial
      | succ n => exact (ih (kept state input initial here meets) later).mpr rest n

theorem forall_take_iff_allSteps (isGood : ∀ state, invariant state → good state)
    (kept : ∀ state input, invariant state → condition state input → invariant (step state input))
    (needed : ∀ state input, invariant state → good (step state input) → condition state input)
    (initial : invariant state) :
    (∀ n, good ((inputs.take n).foldl step state)) ↔ AllSteps step condition state inputs := by
  apply forall_take_iff_allSteps_of invariant good isGood
  · exact fun state input holds _ meets => kept state input holds meets
  · exact fun state input holds _ reached => needed state input holds reached
  · exact initial
  · exact allSteps_of_forall fun _ _ => trivial

variable {Event : Type v} {opens closes : Event → Prop} {events more : List Event}

def Pending (opens closes : Event → Prop) : List Event → Prop
  | [] => False
  | event :: later => (opens event ∧ ∀ other ∈ later, ¬closes other) ∨ Pending opens closes later

theorem pending_append :
    Pending opens closes (events ++ more) ↔
      (Pending opens closes events ∧ ∀ other ∈ more, ¬closes other) ∨
        Pending opens closes more := by
  induction events with
  | nil => simp [Pending]
  | cons event later ih =>
    simp only [List.cons_append, Pending, List.forall_mem_append, ih]
    tauto

theorem not_pending (none : ∀ event ∈ events, ¬opens event) : ¬Pending opens closes events := by
  induction events with
  | nil => exact id
  | cons first later ih =>
    rintro (⟨opened, -⟩ | pending)
    · exact none first List.mem_cons_self opened
    · exact ih (fun other member => none other (List.mem_cons_of_mem _ member)) pending

theorem pending_append_of_not_opens (closing : ∀ event ∈ more, ¬opens event) :
    Pending opens closes (events ++ more) ↔
      Pending opens closes events ∧ ∀ other ∈ more, ¬closes other := by
  rw [pending_append, or_iff_left (not_pending closing)]

end Sart.Lib
