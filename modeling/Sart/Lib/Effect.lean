import Sart.Lib.Outcome

/-!
# Effects that keep their state on failure

An effect reads and writes a state and ends in an `Outcome`.  It keeps what was
written before a failure.  `Spec` is the usual triple, with a second
postcondition for the states in which the effect gives up.
-/

namespace Sart.Lib

universe u

def Effect (σ ε α : Type u) : Type u := σ → Outcome ε α × σ

namespace Effect

variable {σ ε α β : Type u}

protected def bind (first : Effect σ ε α) (next : α → Effect σ ε β) : Effect σ ε β :=
  fun state =>
    match first state with
    | (.ok value, middle) => next value middle
    | (.error cause, middle) => (.error cause, middle)
    | (.panic, middle) => (.panic, middle)

instance : Monad (Effect σ ε) where
  pure value := fun state => (.ok value, state)
  bind := Effect.bind

def fail (cause : ε) : Effect σ ε α := fun state => (.error cause, state)

def read (view : σ → α) : Effect σ ε α := fun state => (.ok (view state), state)

def modify (change : σ → σ) : Effect σ ε PUnit := fun state => (.ok ⟨⟩, change state)

def lift (outcome : Outcome ε α) : Effect σ ε α := fun state => (outcome, state)

/-- Run the body on every item and join what it returns, up to the first failure. -/
def collect (body : α → Effect σ ε (List β)) : List α → Effect σ ε (List β)
  | [] => pure []
  | item :: rest => do
      let first ← body item
      let others ← collect body rest
      pure (first ++ others)

def forEach (body : α → Effect σ ε PUnit) : List α → Effect σ ε PUnit
  | [] => pure ⟨⟩
  | item :: rest => do
      body item
      forEach body rest

def mapError (change : ε → ε) (effect : Effect σ ε α) : Effect σ ε α := fun state =>
  match effect state with
  | (.error cause, final) => (.error (change cause), final)
  | result => result

def unwrap (effect : Effect σ ε α) : Effect σ ε α := fun state =>
  match effect state with
  | (.error _, final) => (.panic, final)
  | result => result

theorem pure_apply (value : α) (state : σ) :
    (pure value : Effect σ ε α) state = (.ok value, state) := rfl

theorem bind_apply (first : Effect σ ε α) (next : α → Effect σ ε β) (state : σ) :
    (first >>= next) state =
      match first state with
      | (.ok value, middle) => next value middle
      | (.error cause, middle) => (.error cause, middle)
      | (.panic, middle) => (.panic, middle) := rfl

variable {next : α → Effect σ ε β} {first : Effect σ ε α} {state : σ}

theorem bind_of_ok {middle : σ} {value : α} (done : first state = (.ok value, middle)) :
    (first >>= next) state = next value middle := by
  rw [bind_apply, done]

theorem lift_ok_bind (value : α) (next : α → Effect σ ε β) :
    (lift (.ok value) >>= next) = next value := rfl

theorem bind_eq_ok {final : σ} {result : β} : (first >>= next) state = (.ok result, final) ↔
      ∃ value middle, first state = (.ok value, middle) ∧
        next value middle = (.ok result, final) := by
  rw [bind_apply]
  rcases first state with ⟨value | cause | _, middle⟩
  · constructor
    · exact fun run => ⟨value, middle, rfl, run⟩
    · rintro ⟨_, _, ⟨⟩, run⟩
      exact run
  · simp
  · simp

def Calm (effect : Effect σ ε α) : Prop := ∀ state final, effect state ≠ (.panic, final)

/-- The first item whose body does not return, with the items before and behind it. -/
def firstFailure (body : α → Effect σ ε β) : σ → List α → Option (List α × α × List α)
  | _, [] => none
  | state, item :: rest =>
    match body item state with
    | (.ok _, next) => (firstFailure body next rest).map fun parts => (item :: parts.1, parts.2)
    | _ => some ([], item, rest)

variable {body : α → Effect σ ε (List β)} {items : List α} {item : α} {rest : List α}
  {values : List β} {next : σ}

theorem collect_of_firstFailure {before after : List α}
    (failure : firstFailure body state items = some (before, item, after)) :
    items = before ++ item :: after ∧ ∃ values middle,
      collect body before state = (.ok values, middle) ∧
      collect body items state = body item middle ∧
      ∀ value final, body item middle ≠ (.ok value, final) := by
  induction items generalizing state before with
  | nil => simp [firstFailure] at failure
  | cons first rest ih =>
    rcases ran : body first state with ⟨values | cause | _, next⟩
    · simp only [firstFailure, ran, Option.map_eq_some_iff] at failure
      rcases failure with ⟨⟨before', parts⟩, failure, shape⟩
      rcases shape with ⟨rfl, rfl⟩
      rcases ih failure with ⟨rfl, others, middle, returned, ends, failed⟩
      refine ⟨rfl, values ++ others, middle, ?_, ?_, failed⟩
      · simp [collect, bind_apply, ran, returned, pure_apply]
      rw [collect, bind_apply, ran]
      dsimp only
      rw [bind_apply, ends]
      rcases run : body item middle with ⟨value | cause | _, final⟩
      · exact absurd run (failed value final)
      · rfl
      · rfl
    all_goals
      simp only [firstFailure, ran, Option.some.injEq, Prod.mk.injEq] at failure
      rcases failure with ⟨rfl, rfl, rfl⟩
      exact ⟨rfl, [], state, rfl, by simp [collect, bind_apply, ran], by simp [ran]⟩

theorem collect_cons (ran : body item state = (.ok values, next)) :
    collect body (item :: rest) state =
      match collect body rest next with
      | (.ok others, final) => (.ok (values ++ others), final)
      | (.error cause, final) => (.error cause, final)
      | (.panic, final) => (.panic, final) := by
  rw [collect, bind_apply, ran]
  dsimp only
  rw [bind_apply]
  rcases collect body rest next with ⟨others | cause | _, final⟩ <;> rfl

theorem collect_cons_final (ran : body item state = (.ok values, next)) :
    (collect body (item :: rest) state).2 = (collect body rest next).2 := by
  rw [collect_cons ran]
  rcases collect body rest next with ⟨others | cause | _, final⟩ <;> rfl

theorem collect_cons_error {cause : ε} (ran : body item state = (.error cause, next)) :
    collect body (item :: rest) state = (.error cause, next) := by
  rw [collect, bind_apply, ran]

theorem collect_cons_ok {out : List β} {final : σ}
    (run : collect body (item :: rest) state = (.ok out, final)) :
    ∃ values others next, body item state = (.ok values, next) ∧
      collect body rest next = (.ok others, final) ∧ out = values ++ others := by
  rw [collect, bind_eq_ok] at run
  rcases run with ⟨values, next, ran, run⟩
  rw [bind_eq_ok] at run
  rcases run with ⟨others, middle, returned, last⟩
  rcases last with ⟨rfl, rfl⟩
  exact ⟨values, others, next, ran, returned, rfl⟩

theorem collect_error_of_firstFailure {parts : List α × α × List α}
    (calm : ∀ item, Calm (body item)) (failure : firstFailure body state items = some parts) :
    ∃ cause final, collect body items state = (.error cause, final) := by
  rcases collect_of_firstFailure failure with ⟨_, values, middle, _, ends, failed⟩
  rcases ran : body parts.2.1 middle with ⟨value | cause | _, final⟩
  · exact absurd ran (failed value final)
  · exact ⟨cause, final, ends.trans ran⟩
  · exact absurd ran (calm _ middle final)

theorem collect_of_no_failure (success : firstFailure body state items = none) :
    ∃ values final, collect body items state = (.ok values, final) := by
  induction items generalizing state with
  | nil => exact ⟨[], state, rfl⟩
  | cons first rest ih =>
    rcases ran : body first state with ⟨values | cause | _, next⟩
    · simp only [firstFailure, ran, Option.map_eq_none_iff] at success
      rcases ih success with ⟨others, final, returned⟩
      exact ⟨values ++ others, final, by simp [collect, bind_apply, ran, returned, pure_apply]⟩
    all_goals simp [firstFailure, ran] at success

/-- From a state with `pre` the effect returns with `post` or gives up with `abort`, which
sees the error, or nothing after a panic. -/
structure Spec (pre : σ → Prop) (effect : Effect σ ε α) (post : α → σ → Prop)
    (abort : Option ε → σ → Prop) : Prop where
  returns : ∀ {state value final}, pre state → effect state = (.ok value, final) →
    post value final
  fails : ∀ {state cause final}, pre state → effect state = (.error cause, final) →
    abort (some cause) final
  panics : ∀ {state final}, pre state → effect state = (.panic, final) → abort none final

namespace Spec

variable {pre : σ → Prop} {post : β → σ → Prop} {abort : Option ε → σ → Prop}

def Ends (post : α → σ → Prop) (abort : Option ε → σ → Prop) : Outcome ε α × σ → Prop
  | (.ok value, state) => post value state
  | (.error cause, state) => abort (some cause) state
  | (.panic, state) => abort none state

variable {effect : Effect σ ε β} {post' : β → σ → Prop} {abort' : Option ε → σ → Prop}
  {pre' invariant : σ → Prop}

theorem of_ends (ends : ∀ state, pre state → Ends post abort (effect state)) :
    Spec pre effect post abort where
  returns {state} _ _ start run := by simpa [run, Ends] using ends state start
  fails {state} _ _ start run := by simpa [run, Ends] using ends state start
  panics {state} _ start run := by simpa [run, Ends] using ends state start

theorem ends (spec : Spec pre effect post abort) (start : pre state) :
    Ends post abort (effect state) := by
  rcases run : effect state with ⟨value | cause | _, final⟩
  · exact spec.returns start run
  · exact spec.fails start run
  · exact spec.panics start run

theorem pure {value : α} {post : α → σ → Prop} (holds : ∀ state, pre state → post value state) :
    Spec pre (pure value : Effect σ ε α) post abort := of_ends holds

theorem fail {cause : ε} {post : α → σ → Prop}
    (holds : ∀ state, pre state → abort (some cause) state) :
    Spec pre (fail cause : Effect σ ε α) post abort := of_ends holds

theorem read {view : σ → α} :
    Spec pre (read view : Effect σ ε α) (fun value state => value = view state ∧ pre state)
      abort :=
  of_ends fun _ start => ⟨rfl, start⟩

theorem modify {change : σ → σ} {post : PUnit → σ → Prop}
    (holds : ∀ state, pre state → post ⟨⟩ (change state)) :
    Spec pre (modify change : Effect σ ε PUnit) post abort := of_ends holds

theorem lift {outcome : Outcome ε α} (holds : ∀ state, pre state →
      (∀ cause, outcome = .error cause → abort (some cause) state) ∧
        (outcome = .panic → abort none state)) :
    Spec pre (lift outcome) (fun value state => outcome = .ok value ∧ pre state) abort := by
  refine of_ends fun state start => ?_
  cases outcome with
  | ok value => exact ⟨rfl, start⟩
  | error cause => exact (holds state start).1 cause rfl
  | panic => exact (holds state start).2 rfl

theorem of_false (never : ∀ state, ¬pre state) :
    Spec pre effect post abort where
  returns start _ := absurd start (never _)
  fails start _ := absurd start (never _)
  panics start _ := absurd start (never _)

theorem bind {first : Effect σ ε α} {next : α → Effect σ ε β} {middle : α → σ → Prop}
    (firstSpec : Spec pre first middle abort)
    (nextSpec : ∀ value, Spec (middle value) (next value) post abort) :
    Spec pre (first >>= next) post abort := by
  refine of_ends fun state start => ?_
  rw [bind_apply]
  rcases ran : first state with ⟨value | cause | _, between⟩
  · exact (nextSpec value).ends (firstSpec.returns start ran)
  · exact firstSpec.fails start ran
  · exact firstSpec.panics start ran

theorem exists_pre {ι : Sort*} {pre : ι → σ → Prop} (spec : ∀ i, Spec (pre i) effect post abort) :
    Spec (fun state => ∃ i, pre i state) effect post abort where
  returns := fun ⟨i, start⟩ run => (spec i).returns start run
  fails := fun ⟨i, start⟩ run => (spec i).fails start run
  panics := fun ⟨i, start⟩ run => (spec i).panics start run

theorem fact_pre {fact : Prop} (spec : fact → Spec pre effect post abort) :
    Spec (fun state => fact ∧ pre state) effect post abort where
  returns := fun ⟨holds, start⟩ run => (spec holds).returns start run
  fails := fun ⟨holds, start⟩ run => (spec holds).fails start run
  panics := fun ⟨holds, start⟩ run => (spec holds).panics start run

theorem readState {next : σ → Effect σ ε β}
    (nextSpec : ∀ state, pre state → Spec (fun current => current = state)
    (next state) post abort) :
    Spec pre (Effect.read id >>= next) post abort where
  returns start run := (nextSpec _ start).returns rfl run
  fails start run := (nextSpec _ start).fails rfl run
  panics start run := (nextSpec _ start).panics rfl run

theorem weaken (spec : Spec pre effect post abort) (entry : ∀ state, pre' state → pre state)
    (exit : ∀ value state, post value state → post' value state)
    (failure : ∀ cause state, abort cause state → abort' cause state) :
    Spec pre' effect post' abort' where
  returns start run := exit _ _ (spec.returns (entry _ start) run)
  fails start run := failure _ _ (spec.fails (entry _ start) run)
  panics start run := failure _ _ (spec.panics (entry _ start) run)

theorem and (spec : Spec pre effect post abort) (spec' : Spec pre' effect post' abort') :
    Spec (fun state => pre state ∧ pre' state) effect
      (fun value state => post value state ∧ post' value state)
      (fun cause state => abort cause state ∧ abort' cause state) where
  returns start run := ⟨spec.returns start.1 run, spec'.returns start.2 run⟩
  fails start run := ⟨spec.fails start.1 run, spec'.fails start.2 run⟩
  panics start run := ⟨spec.panics start.1 run, spec'.panics start.2 run⟩

theorem final {effect : Effect σ ε α}
    (spec : Spec pre effect (fun _ => invariant) (fun _ => invariant)) (start : pre state) :
    invariant (effect state).2 := by
  rcases run : effect state with ⟨value | cause | _, final⟩
  · exact spec.returns start run
  · exact spec.fails start run
  · exact spec.panics start run

theorem of_final {effect : Effect σ ε α} (kept : ∀ state, pre state → invariant (effect state).2) :
    Spec pre effect (fun _ => invariant) (fun _ => invariant) := by
  refine of_ends fun state start => ?_
  have holds := kept state start
  revert holds
  rcases effect state with ⟨value | cause | _, final⟩ <;> exact id

theorem mapError {change : ε → ε} {abort : σ → Prop} (spec : Spec pre effect post fun _ => abort) :
    Spec pre (Effect.mapError change effect) post fun _ => abort := by
  refine of_ends fun state start => ?_
  have ends := spec.ends start
  revert ends
  rw [Effect.mapError]
  rcases effect state with ⟨value | cause | _, final⟩ <;> exact id

theorem unwrap {abort : σ → Prop} (spec : Spec pre effect post fun _ => abort) :
    Spec pre (Effect.unwrap effect) post fun _ => abort := by
  refine of_ends fun state start => ?_
  have ends := spec.ends start
  revert ends
  rw [Effect.unwrap]
  rcases effect state with ⟨value | cause | _, final⟩ <;> exact id

theorem conseq (spec : Spec pre effect post abort) (entry : ∀ state, pre' state → pre state)
    (exit : ∀ value state, post value state → post' value state) :
    Spec pre' effect post' abort :=
  spec.weaken entry exit fun _ _ holds => holds

theorem implies (spec : Spec pre effect post abort)
    (exit : ∀ value state, post value state → post' value state) : Spec pre effect post' abort :=
  spec.conseq (fun _ start => start) exit

theorem mono (spec : Spec pre effect post abort)
    (exit : ∀ value state, post value state → post' value state)
    (failure : ∀ cause state, abort cause state → abort' cause state) :
    Spec pre effect post' abort' :=
  spec.weaken (fun _ start => start) exit failure

/-- The loop rule.  The invariant speaks of the items still to come and of the values
collected so far. -/
theorem collect {body : α → Effect σ ε (List β)} (invariant : List α → List β → σ → Prop)
    (step : ∀ item rest collected, Spec (invariant (item :: rest) collected) (body item)
      (fun values => invariant rest (collected ++ values)) abort)
    (items : List α) (collected : List β) :
    Spec (invariant items collected) (collect body items)
      (fun values => invariant [] (collected ++ values)) abort := by
  induction items generalizing collected with
  | nil =>
    refine Spec.pure fun state holds => ?_
    simpa using holds
  | cons item rest ih =>
    refine (step item rest collected).bind fun values => ?_
    refine (ih (collected ++ values)).bind fun others => ?_
    refine Spec.pure fun state holds => ?_
    simpa using holds

theorem forEach {body : α → Effect σ ε PUnit} (invariant : List α → σ → Prop)
    (step : ∀ item rest, Spec (invariant (item :: rest)) (body item)
      (fun _ => invariant rest) abort) (items : List α) :
    Spec (invariant items) (forEach body items) (fun _ => invariant []) abort := by
  induction items with
  | nil => exact Spec.pure fun state holds => holds
  | cons item rest ih => exact (step item rest).bind fun _ => ih

end Spec

abbrev Keeps (property : σ → Prop) (effect : Effect σ ε α) : Prop :=
  Spec property effect (fun _ => property) (fun _ => property)

namespace Keeps

variable {property : σ → Prop}

@[grind .]
theorem pure {value : α} : Keeps property (pure value : Effect σ ε α) :=
  Spec.pure fun _ holds => holds

@[grind .]
theorem fail {cause : ε} : Keeps property (fail cause : Effect σ ε α) :=
  Spec.fail fun _ holds => holds

@[grind .]
theorem lift {outcome : Outcome ε α} : Keeps property (lift outcome : Effect σ ε α) :=
  (Spec.lift fun _ holds => ⟨fun _ _ => holds, fun _ => holds⟩).conseq (fun _ holds => holds)
    fun _ _ holds => holds.2

@[grind .]
theorem read {view : σ → α} : Keeps property (read view : Effect σ ε α) :=
  Spec.read.implies fun _ _ holds => holds.2

@[grind ←]
theorem modify {change : σ → σ} (kept : ∀ state, property state → property (change state)) :
    Keeps property (modify change : Effect σ ε PUnit) :=
  Spec.modify kept

@[grind ←]
theorem bind {first : Effect σ ε α} {next : α → Effect σ ε β} (firstKeeps : Keeps property first)
    (nextKeeps : ∀ value, Keeps property (next value)) : Keeps property (first >>= next) :=
  Spec.bind firstKeeps nextKeeps

@[grind ←]
theorem readState {next : σ → Effect σ ε β} (kept : ∀ state, Keeps property (next state)) :
    Keeps property (Effect.read id >>= next) := by
  refine Spec.readState fun start holds => ?_
  refine (kept start).conseq ?_ fun _ _ holds => holds
  rintro _ rfl
  exact holds

theorem collect_of_mem {items : List α} (kept : ∀ item ∈ items, Keeps property (body item)) :
    Keeps property (Effect.collect body items) := by
  induction items with
  | nil => exact .pure
  | cons item rest ih =>
    refine (kept item List.mem_cons_self).bind fun _ => ?_
    refine (ih fun other member => kept other (List.mem_cons_of_mem _ member)).bind fun _ => ?_
    exact .pure

@[grind ←]
theorem collect (kept : ∀ item, Keeps property (body item)) (items : List α) :
    Keeps property (collect body items) :=
  collect_of_mem fun item _ => kept item

@[grind ←]
theorem forEach {body : α → Effect σ ε PUnit} (kept : ∀ item, Keeps property (body item))
    (items : List α) : Keeps property (forEach body items) :=
  Spec.forEach (fun _ => property) (fun item _ => kept item) items

@[grind ←]
theorem mapError {effect : Effect σ ε α} {change : ε → ε} (kept : Keeps property effect) :
    Keeps property (mapError change effect) :=
  Spec.mapError kept

@[grind ←]
theorem unwrap {effect : Effect σ ε α} (kept : Keeps property effect) :
    Keeps property (unwrap effect) :=
  Spec.unwrap kept

end Keeps

def Grows (measure : σ → Nat) (bound : Nat) (effect : Effect σ ε α) : Prop :=
  ∀ state, measure (effect state).2 ≤ measure state + bound

namespace Grows

variable {measure : σ → Nat} {bound more : Nat} {effect : Effect σ ε α} {next : α → Effect σ ε β}

theorem of_same (same : ∀ state, measure (effect state).2 = measure state) :
    Grows measure 0 effect :=
  fun state => Nat.le_of_eq (same state)

theorem mono (grows : Grows measure bound effect) (most : bound ≤ more) :
    Grows measure more effect := by
  intro state
  have grown := grows state
  omega

@[grind .]
theorem pure {value : α} : Grows measure bound (pure value : Effect σ ε α) :=
  fun _ => Nat.le_add_right _ _

@[grind .]
theorem fail {cause : ε} : Grows measure bound (fail cause : Effect σ ε α) :=
  fun _ => Nat.le_add_right _ _

theorem bind (firstGrows : Grows measure bound first)
    (nextGrows : ∀ value, Grows measure more (next value)) :
    Grows measure (bound + more) (first >>= next) := by
  intro state
  have before := firstGrows state
  rw [bind_apply]
  revert before
  rcases first state with ⟨value | cause | _, middle⟩
  · have after := nextGrows value middle
    dsimp only
    omega
  all_goals
    dsimp only
    omega

@[grind ←]
theorem after (same : Grows measure 0 first) (nextGrows : ∀ value,
    Grows measure bound (next value)) :
    Grows measure bound (first >>= next) :=
  (same.bind nextGrows).mono (Nat.le_of_eq (Nat.zero_add _))

@[grind ←]
theorem read {view : σ → α} (grows : ∀ value, Grows measure bound (next value)) :
    Grows measure bound (Effect.read view >>= next) :=
  after (of_same fun _ => rfl) grows

@[grind ←]
theorem lift {outcome : Outcome ε α} (grows : ∀ value, Grows measure bound (next value)) :
    Grows measure bound (Effect.lift outcome >>= next) :=
  after (of_same fun _ => rfl) grows

@[grind ←]
theorem collect {body : α → Effect σ ε (List β)} (same : ∀ item, Grows measure 0 (body item))
    (items : List α) : Grows measure 0 (Effect.collect body items) := by
  induction items with
  | nil => exact .pure
  | cons item rest ih => exact (same item).after fun _ => ih.after fun _ => .pure

theorem forEach {body : α → Effect σ ε PUnit} {bounds : α → Nat}
    (grows : ∀ item, Grows measure (bounds item) (body item)) (items : List α) :
    Grows measure (items.map bounds).sum (Effect.forEach body items) := by
  induction items with
  | nil => exact .pure
  | cons item rest ih =>
    exact (grows item).bind fun _ => ih

end Grows

end Effect

end Sart.Lib
