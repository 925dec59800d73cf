import Sart.Lib.Yields

/-!
# Readers in front of more octets

A reader may look at the number of octets left.  Two readers are local up to a
relation if whatever the first returns on its own, the second returns in front
of the tail, for the same octets.  A difference of two numbers is local only in
a build with overflow checks: where it wraps around, it stays as it is in front
of more octets until there are enough of them.
-/

namespace Sart.Lib

/-- What the first reader reads on its own, the second reads in front of the tail. -/
def Local {ε α β : Type} (tail : List UInt8) (related : α → β → Prop) (reader : Reader ε α)
    (reader' : Reader ε β) : Prop :=
  ∀ cursor value final, reader cursor = (.ok value, final) →
    ∃ taken value', cursor.data = taken ++ final.data ∧ related value value' ∧
      Yields reader' taken (final.data ++ tail) value'

abbrev Unmoved {ε α : Type} (tail : List UInt8) (reader : Reader ε α) : Prop :=
  Local tail Eq reader reader

def Moved (tail : List UInt8) (left left' : ℕ) : Prop := left' = left + tail.length

namespace Local

open Reader

variable {ε α β γ δ : Type} {tail : List UInt8} {related : α → β → Prop} {related' : γ → δ → Prop}
  {value : α} {reader' first' : Reader ε β} {cause : ε} {first body : Reader ε α}
  {next : α → Reader ε γ} {condition : Prop}

theorem yields {reader reader' : Reader ε α} (isLocal : Local tail Eq reader reader')
    {octets : List UInt8} (run : reader ⟨octets⟩ = (.ok value, ⟨[]⟩)) :
    Yields reader' octets tail value := by
  obtain ⟨taken, _, shape, rfl, yields⟩ := isLocal _ _ _ run
  simp only [List.append_nil] at shape
  rwa [shape]

@[grind ←]
theorem pure {value' : β} (same : related value value') :
    Local tail related (pure value : Reader ε α) (pure value') := by
  intro cursor returned final run
  obtain ⟨rfl, rfl⟩ := run
  exact ⟨[], value', rfl, same, .pure⟩

@[grind .]
theorem fail :
    Local tail related (Effect.fail cause : Reader ε α) reader' := by
  intro cursor returned final run
  simp [Effect.fail] at run

@[grind .]
theorem crash : Local tail related (crash : Reader ε α) reader' := by
  intro cursor returned final run
  simp [Reader.crash] at run

theorem bind {next' : β → Reader ε δ} (firstLocal : Local tail related first first')
    (nextLocal : ∀ value value', related value value' →
      Local tail related' (next value) (next' value')) :
    Local tail related' (first >>= next) (first' >>= next') := by
  intro cursor returned final run
  obtain ⟨value, middle, firstRun, nextRun⟩ := Effect.bind_eq_ok.mp run
  obtain ⟨taken, value', shape, same, yields⟩ := firstLocal _ _ _ firstRun
  obtain ⟨taken', returned', shape', same', yields'⟩ := nextLocal value value' same _ _ _ nextRun
  refine ⟨taken ++ taken', returned', ?_, same', ?_⟩
  · rw [shape, shape', List.append_assoc]
  · rw [shape', List.append_assoc] at yields
    exact yields.bind yields'

@[grind ←]
theorem bind_eq {first' : Reader ε α} {next' : α → Reader ε δ}
    (firstLocal : Local tail Eq first first')
    (nextLocal : ∀ value, Local tail related' (next value) (next' value)) :
    Local tail related' (first >>= next) (first' >>= next') :=
  firstLocal.bind fun value _ same => same ▸ nextLocal value

theorem ite [Decidable condition] {second : Reader ε α} {second' : Reader ε β}
    (holds : condition → Local tail related first first')
    (fails : ¬condition → Local tail related second second') :
    Local tail related (if condition then first else second)
      (if condition then first' else second') := by
  split_ifs with known
  · exact holds known
  · exact fails known

theorem check {condition' : Prop} [Decidable condition] [Decidable condition'] {cause' : ε}
    (weaker : ¬condition → ¬condition') (passes : ¬condition → Local tail related first first') :
    Local tail related (if condition then Effect.fail cause else first)
      (if condition' then Effect.fail cause' else first') := by
  split_ifs with failed failed' failed'
  · exact fail
  · exact fail
  · exact absurd failed' (weaker failed)
  · exact passes failed

theorem remaining : Local tail (Moved tail) (remaining : Reader ε ℕ) remaining := by
  intro cursor value final run
  obtain ⟨rfl, rfl⟩ := run
  exact ⟨[], _, rfl, List.length_append, .remaining⟩

theorem subtract [Profile] (checks : Profile.overflowChecks = true) {left left' : ℕ}
    (moved : Moved tail left left') (width right : ℕ) :
    Local tail (Moved tail) (subtract width left right : Reader ε ℕ)
      (subtract width left' right) := by
  unfold Moved at moved
  unfold Reader.subtract
  by_cases le : right ≤ left
  · rw [if_pos le, if_pos (show right ≤ left' by omega)]
    refine pure ?_
    unfold Moved
    omega
  · rw [if_neg le, if_pos checks]
    exact crash

@[grind .]
theorem subtract_eq [Profile] (width left right : ℕ) :
    Local tail Eq (Reader.subtract width left right : Reader ε ℕ)
      (Reader.subtract width left right) :=
  .ite (fun _ => .pure rfl) fun _ => .ite (fun _ => .crash) fun _ => .pure rfl

@[grind .]
theorem getBytes (count : ℕ) :
    Local tail Eq (getBytes count : Reader ε (List UInt8)) (getBytes count) := by
  intro cursor value final run
  unfold Reader.getBytes at run
  split_ifs at run with enough
  · simp only [Prod.mk.injEq, Outcome.ok.injEq] at run
    obtain ⟨rfl, rfl⟩ := run
    exact ⟨_, _, (List.take_append_drop count cursor.data).symm, rfl,
      .getBytes_of_length (by simp [enough])⟩
  · simp at run

theorem getNat (count : ℕ) : Local tail Eq (getNat count : Reader ε ℕ) (getNat count) :=
  (getBytes count).bind_eq fun _ => .pure rfl

@[grind .]
theorem getU8 : Local tail Eq (getU8 : Reader ε UInt8) getU8 :=
  (getNat 1).bind_eq fun _ => .pure rfl

@[grind .]
theorem getU16 : Local tail Eq (getU16 : Reader ε UInt16) getU16 :=
  (getNat 2).bind_eq fun _ => .pure rfl

@[grind .]
theorem getU32 : Local tail Eq (getU32 : Reader ε UInt32) getU32 :=
  (getNat 4).bind_eq fun _ => .pure rfl

@[grind .]
theorem getU64 : Local tail Eq (getU64 : Reader ε UInt64) getU64 :=
  (getNat 8).bind_eq fun _ => .pure rfl

@[grind .]
theorem getU128 : Local tail Eq (getU128 : Reader ε (BitVec 128)) getU128 :=
  (getNat 16).bind_eq fun _ => .pure rfl

@[grind .]
theorem fillArray (width count : ℕ) :
    Local tail Eq (fillArray width count : Reader ε (List UInt8)) (fillArray width count) :=
  (getBytes _).bind_eq fun _ => .ite (fun _ => .pure rfl) fun _ => .crash

@[grind ←]
theorem times (count : ℕ) (bodyLocal : Local tail Eq body body) :
    Local tail Eq (times count body) (times count body) := by
  unfold Reader.times
  induction List.range count with
  | nil => exact pure rfl
  | cons index rest ih =>
    exact (bodyLocal.bind_eq fun _ => .pure rfl).bind_eq fun _ => ih.bind_eq fun _ => .pure rfl

theorem whileDo {more : α → ℕ → Bool} {more' : β → ℕ → Bool} {body : α → Reader ε α}
    {body' : β → Reader ε β} (bodyTakes : ∀ state, Takes 1 (body state))
    (bodyTakes' : ∀ state, Takes 1 (body' state))
    (condition : ∀ state state' left, related state state' →
      more' state' (left + tail.length) = more state left)
    (bodyLocal : ∀ state state', related state state' →
      Local tail related (body state) (body' state')) {state : α} {state' : β}
    (start : related state state') :
    Local tail related (whileDo more body state) (whileDo more' body' state') := by
  intro cursor
  -- every round takes an octet
  induction length : cursor.data.length using Nat.strongRecOn
    generalizing cursor state state' with
  | ind count ih =>
    intro value final run
    rw [whileDo_eq bodyTakes, Effect.bind_apply] at run
    simp only [Reader.remaining, Effect.read] at run
    have same := condition state state' cursor.data.length start
    split_ifs at run with goesOn
    · obtain ⟨next, middle, roundRun, restRun⟩ := Effect.bind_eq_ok.mp run
      have shorter := (bodyTakes state).length_le roundRun
      obtain ⟨taken, next', shape, nextRelated, yields⟩ :=
        bodyLocal state state' start _ _ _ roundRun
      obtain ⟨taken', value', shape', related', yields'⟩ :=
        ih _ (by omega) nextRelated middle rfl _ _ restRun
      refine ⟨taken ++ taken', value', by rw [shape, shape', List.append_assoc], related', ?_⟩
      rw [whileDo_eq bodyTakes']
      refine Yields.remaining.bind_nil (.ite_pos ?_ ?_)
      · rw [← goesOn, ← same, shape, shape']
        simp [Nat.add_assoc]
      · rw [shape', List.append_assoc] at yields
        exact yields.bind yields'
    · simp only [Effect.pure_apply, Prod.mk.injEq, Outcome.ok.injEq] at run
      obtain ⟨rfl, rfl⟩ := run
      refine ⟨[], state', rfl, start, ?_⟩
      rw [whileDo_eq bodyTakes']
      refine Yields.remaining.bind_nil (.ite_neg ?_ .pure)
      rw [List.nil_append, List.length_append, same]
      exact goesOn

theorem whileLeft {more more' : ℕ → Bool} {item : Reader ε α} (itemTakes : Takes 1 item)
    (condition : ∀ left, more' (left + tail.length) = more left)
    (itemLocal : Local tail Eq item item) :
    Local tail Eq (whileLeft more item) (whileLeft more' item) := by
  refine whileDo (fun _ => itemTakes.bind_first fun _ => .pure)
    (fun _ => itemTakes.bind_first fun _ => .pure) (fun _ _ left _ => condition left) ?_ rfl
  rintro items _ rfl
  exact itemLocal.bind_eq fun _ => .pure rfl

end Local

end Sart.Lib
