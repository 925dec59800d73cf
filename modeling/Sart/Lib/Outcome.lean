import Mathlib

/-!
# Outcomes of a computation that may panic

A fallible computation of the modelled programs ends in one of three ways: it
returns a value, it returns an error, or it panics (an index out of range, a
read past the end of a buffer, an arithmetic overflow).  Errors are values the
caller handles; a panic is not.
-/

namespace Sart.Lib

universe u v

/-- A value, an error, or a panic. -/
inductive Outcome (ε : Type u) (α : Type v) where
  | ok (value : α)
  | error (cause : ε)
  | panic
  deriving DecidableEq

namespace Outcome

variable {ε α β γ : Type u}

protected def bind (first : Outcome ε α) (next : α → Outcome ε β) : Outcome ε β :=
  match first with
  | .ok value => next value
  | .error cause => .error cause
  | .panic => .panic

instance : Monad (Outcome ε) where
  pure := .ok
  bind := Outcome.bind

@[simp]
theorem pure_def (value : α) : (pure value : Outcome ε α) = .ok value := rfl

@[simp]
theorem ok_bind (value : α) (next : α → Outcome ε β) :
    (Outcome.ok value >>= next) = next value := rfl

@[simp]
theorem error_bind (cause : ε) (next : α → Outcome ε β) :
    (Outcome.error cause >>= next) = .error cause := rfl

@[simp]
theorem panic_bind (next : α → Outcome ε β) :
    ((Outcome.panic : Outcome ε α) >>= next) = .panic := rfl

@[simp]
theorem bind_assoc (first : Outcome ε α) (second : α → Outcome ε β) (third : β → Outcome ε γ) :
    (first >>= second) >>= third = first >>= fun value => second value >>= third := by
  cases first <;> rfl

theorem bind_eq_ok {first : Outcome ε α} {next : α → Outcome ε β} {result : β} :
    (first >>= next) = .ok result ↔
      ∃ value, first = .ok value ∧ next value = .ok result := by
  cases first <;> simp

def concat (body : α → Outcome ε (List β)) : List α → Outcome ε (List β)
  | [] => .ok []
  | item :: rest => do
      let first ← body item
      let others ← concat body rest
      pure (first ++ others)

variable {body : α → Outcome ε (List β)} {part : α → List β} {items : List α}

theorem concat_eq_ok (parts : ∀ item ∈ items, body item = .ok (part item)) :
    concat body items = .ok (items.flatMap part) := by
  induction items with
  | nil => rfl
  | cons item rest ih =>
    rw [concat, parts item (by simp), ok_bind,
      ih fun item found => parts item (by simp [found]), ok_bind, List.flatMap_cons, pure_def]

theorem eq_flatMap_of_concat (parts : ∀ item value, body item = .ok value → value = part item)
    {whole : List β} (returned : concat body items = .ok whole) : whole = items.flatMap part := by
  induction items generalizing whole with
  | nil =>
    cases returned
    rfl
  | cons item rest ih =>
    obtain ⟨first, firstReturned, returned⟩ := bind_eq_ok.mp returned
    obtain ⟨others, othersReturned, returned⟩ := bind_eq_ok.mp returned
    cases returned
    rw [parts item first firstReturned, ih othersReturned, List.flatMap_cons]

variable {step : β → α → Outcome ε β} {start : β} (invariant : List α → β → Prop)

theorem foldlM_returns (initial : invariant [] start)
    (round : ∀ done item state, item ∈ items → invariant done state →
      ∃ next, step state item = .ok next ∧ invariant (done ++ [item]) next) :
    ∃ final, items.foldlM step start = .ok final ∧ invariant items final := by
  induction items generalizing start invariant with
  | nil => exact ⟨start, rfl, initial⟩
  | cons item rest ih =>
    rcases round [] item start (by simp) initial with ⟨next, ran, holds⟩
    rcases ih (fun done => invariant (item :: done)) holds
      (fun done other state member => round (item :: done) other state (by simp [member])) with
      ⟨final, returned, holds'⟩
    exact ⟨final, by rw [List.foldlM_cons, ran, ok_bind, returned], holds'⟩

theorem foldlM_invariant (initial : invariant [] start)
    (round : ∀ done item state next, item ∈ items → invariant done state →
      step state item = .ok next → invariant (done ++ [item]) next) {final : β}
    (returned : items.foldlM step start = .ok final) : invariant items final := by
  induction items generalizing start invariant with
  | nil =>
    cases returned
    exact initial
  | cons item rest ih =>
    rw [List.foldlM_cons, bind_eq_ok] at returned
    rcases returned with ⟨next, ran, returned⟩
    exact ih (fun done => invariant (item :: done)) (round [] item start next (by simp) initial ran)
      (fun done other state next member => round (item :: done) other state next (by simp [member]))
      returned

def position {ε : Type u} {α : Type v} (accepts : α → Outcome ε Bool) : List α →
    Outcome ε (Option Nat)
  | [] => .ok none
  | item :: rest =>
    match accepts item with
    | .ok true => .ok (some 0)
    | .ok false =>
      match position accepts rest with
      | .ok found => .ok (found.map (· + 1))
      | .error cause => .error cause
      | .panic => .panic
    | .error cause => .error cause
    | .panic => .panic

theorem position_cases {α : Type v} (accepts : α → Outcome ε Bool) (items : List α) :
    (∃ before item after, items = before ++ item :: after ∧
      (∀ other ∈ before, accepts other = .ok false) ∧ accepts item = .ok true ∧
      position accepts items = .ok (some before.length)) ∨
    ((∀ other ∈ items, accepts other = .ok false) ∧ position accepts items = .ok none) ∨
    ∃ before item after, items = before ++ item :: after ∧
      (∀ other ∈ before, accepts other = .ok false) ∧
      (accepts item = .panic ∧ position accepts items = .panic ∨
        ∃ cause, accepts item = .error cause ∧ position accepts items = .error cause) := by
  induction items with
  | nil => exact .inr (.inl ⟨by simp, rfl⟩)
  | cons first rest ih =>
    cases answer : accepts first with
    | ok accepted =>
      cases accepted with
      | true => exact .inl ⟨[], first, rest, rfl, by simp, answer, by simp [position, answer]⟩
      | false =>
        have head : ∀ before : List α, (∀ other ∈ before, accepts other = .ok false) →
            ∀ other ∈ first :: before, accepts other = .ok false := by
          intro before refused other member
          rcases List.mem_cons.mp member with rfl | later
          · exact answer
          · exact refused other later
        rcases ih with ⟨before, item, after, rfl, refused, accepted, found⟩ | ⟨refused, found⟩ |
          ⟨before, item, after, rfl, refused, ⟨panics, failed⟩ | ⟨cause, fails, failed⟩⟩
        · exact .inl ⟨first :: before, item, after, rfl, head before refused, accepted,
            by simp [position, answer, found]⟩
        · exact .inr (.inl ⟨head rest refused, by simp [position, answer, found]⟩)
        · exact .inr (.inr ⟨first :: before, item, after, rfl, head before refused,
            .inl ⟨panics, by simp [position, answer, failed]⟩⟩)
        · exact .inr (.inr ⟨first :: before, item, after, rfl, head before refused,
            .inr ⟨cause, fails, by simp [position, answer, failed]⟩⟩)
    | error cause =>
      exact .inr (.inr ⟨[], first, rest, rfl, by simp,
        .inr ⟨cause, answer, by simp [position, answer]⟩⟩)
    | panic =>
      exact .inr (.inr ⟨[], first, rest, rfl, by simp, .inl ⟨answer, by simp [position, answer]⟩⟩)

def ofOption (cause : ε) : Option α → Outcome ε α
  | some value => .ok value
  | none => .error cause

def isOk : Outcome ε α → Bool
  | .ok _ => true
  | _ => false

theorem isOk_iff {outcome : Outcome ε α} : outcome.isOk = true ↔ ∃ value, outcome = .ok value := by
  cases outcome <;> simp [isOk]

def Forall (property : α → Prop) : Outcome ε α → Prop
  | .ok value => property value
  | _ => True

instance {property : α → Prop} [DecidablePred property] :
    (outcome : Outcome ε α) → Decidable (outcome.Forall property)
  | .ok value => inferInstanceAs (Decidable (property value))
  | .error _ => isTrue trivial
  | .panic => isTrue trivial

end Outcome

end Sart.Lib
