import Sart.Lib.Effect

/-!
# Readers of octet strings

A reader takes values off the front of a buffer.  A read past the end of the
buffer is a panic, not an error.  Whether a number that leaves its type is one
too depends on the profile the program is built with.
-/

namespace Sart.Lib

/-- How a program is built: arithmetic that leaves its type panics if it is checked, and wraps
around if it is not. -/
class Profile where
  overflowChecks : Bool

/-- The profile with overflow checks, which tests and debug builds have. -/
abbrev Profile.checked : Profile := ⟨true⟩

/-- The profile of a release build. -/
abbrev Profile.wrapping : Profile := ⟨false⟩

structure Cursor where
  data : List UInt8
  deriving DecidableEq

abbrev Reader (ε α : Type) := Effect Cursor ε α

def bigEndian (octets : List UInt8) : ℕ :=
  octets.foldl (fun value octet => value * 256 + octet.toNat) 0

def toOctets : ℕ → ℕ → List UInt8
  | 0, _ => []
  | count + 1, value => toOctets count (value / 256) ++ [UInt8.ofNat value]

@[simp]
theorem length_toOctets (count value : ℕ) : (toOctets count value).length = count := by
  induction count generalizing value with
  | zero => rfl
  | succ count ih => simp [toOctets, ih]

variable {count value width : ℕ}

theorem bigEndian_toOctets (bound : value < 256 ^ count) :
    bigEndian (toOctets count value) = value := by
  induction count generalizing value with
  | zero =>
    simp only [Nat.pow_zero, Nat.lt_one_iff] at bound
    simp [toOctets, bigEndian, bound]
  | succ count ih =>
    have smaller : value / 256 < 256 ^ count := by
      rw [Nat.div_lt_iff_lt_mul (by decide)]
      simpa [Nat.pow_succ] using bound
    have front := ih smaller
    simp only [bigEndian] at front
    simp only [toOctets, bigEndian, List.foldl_append, front, List.foldl_cons, List.foldl_nil,
      UInt8.toNat_ofNat']
    omega

variable (octets : List UInt8)

theorem bigEndian_append (octet : UInt8) :
    bigEndian (octets ++ [octet]) = bigEndian octets * 256 + octet.toNat := by
  simp [bigEndian]

theorem bigEndian_lt : bigEndian octets < 256 ^ octets.length := by
  induction octets using List.reverseRecOn with
  | nil => decide
  | append_singleton octets octet ih =>
    have small := octet.toNat_lt
    rw [bigEndian_append, List.length_append, List.length_singleton, Nat.pow_succ]
    omega

theorem bigEndian_append_zeros (count : ℕ) :
    bigEndian (octets ++ List.replicate count 0) = bigEndian octets * 256 ^ count := by
  induction count with
  | zero => simp
  | succ count ih =>
    rw [List.replicate_succ', ← List.append_assoc, bigEndian_append, ih, Nat.pow_succ,
      Nat.mul_assoc]
    rfl

theorem take_toOctets (le : count ≤ width) :
    (toOctets width value).take count = toOctets count (value / 256 ^ (width - count)) := by
  induction width generalizing value with
  | zero =>
    obtain rfl : count = 0 := by omega
    rfl
  | succ width ih =>
    rcases Nat.lt_or_eq_of_le le with smaller | rfl
    · have drop : width + 1 - count = (width - count) + 1 := by omega
      rw [toOctets, List.take_append_of_le_length (by simp; omega), ih (by omega), drop,
        Nat.pow_succ, Nat.mul_comm, ← Nat.div_div_eq_div_mul]
    · rw [List.take_of_length_le (by simp)]
      simp

theorem bigEndian_take_append_zeros (le : count ≤ width) (bound : value < 256 ^ width)
    (zeros : value % 256 ^ (width - count) = 0) :
    bigEndian ((toOctets width value).take count ++ List.replicate (width - count) 0) = value := by
  have front : value / 256 ^ (width - count) < 256 ^ count := by
    rw [Nat.div_lt_iff_lt_mul (Nat.pow_pos (by decide)), ← Nat.pow_add,
      Nat.add_sub_cancel' le]
    exact bound
  rw [bigEndian_append_zeros, take_toOctets le, bigEndian_toOctets front,
    Nat.div_mul_cancel (Nat.dvd_of_mod_eq_zero zeros)]

namespace Reader

variable {ε α β : Type}

def crash : Reader ε α := fun cursor => (.panic, cursor)

def remaining : Reader ε ℕ := Effect.read fun cursor => cursor.data.length

/-- The difference of two unsigned numbers of the given width. -/
def subtract [Profile] (width left right : ℕ) : Reader ε ℕ :=
  if right ≤ left then pure (left - right)
  else if Profile.overflowChecks then crash
  else pure (2 ^ width + left - right)

def getBytes (count : ℕ) : Reader ε (List UInt8) := fun cursor =>
  if count ≤ cursor.data.length then
    (.ok (cursor.data.take count), ⟨cursor.data.drop count⟩)
  else (.panic, cursor)

def takeUpTo (count : ℕ) : Reader ε (List UInt8) := fun cursor =>
  (.ok (cursor.data.take count), ⟨cursor.data.drop count⟩)

def getNat (count : ℕ) : Reader ε ℕ := do
  let octets ← getBytes count
  pure (bigEndian octets)

def getU8 : Reader ε UInt8 := do
  let value ← getNat 1
  pure (UInt8.ofNat value)

def getU16 : Reader ε UInt16 := do
  let value ← getNat 2
  pure (UInt16.ofNat value)

def getU32 : Reader ε UInt32 := do
  let value ← getNat 4
  pure (UInt32.ofNat value)

def getU64 : Reader ε UInt64 := do
  let value ← getNat 8
  pure (UInt64.ofNat value)

def getU128 : Reader ε (BitVec 128) := do
  let value ← getNat 16
  pure (BitVec.ofNat 128 value)

def fillArray (width count : ℕ) : Reader ε (List UInt8) := do
  let octets ← getBytes (min count width)
  if count ≤ width then pure (octets ++ List.replicate (width - count) 0) else crash

/-! A number is read if all its octets are there. -/

variable {cursor : Cursor}

theorem getBytes_of_le (enough : count ≤ cursor.data.length) :
    (getBytes count : Reader ε (List UInt8)) cursor =
      (.ok (cursor.data.take count), ⟨cursor.data.drop count⟩) :=
  if_pos enough

theorem getNat_of_le (enough : count ≤ cursor.data.length) : (getNat count : Reader ε ℕ) cursor =
      (.ok (bigEndian (cursor.data.take count)),
        ⟨cursor.data.drop count⟩) := by
  simp [getNat, Effect.bind_apply, getBytes_of_le enough, Effect.pure_apply]

theorem getU8_of_le (enough : 1 ≤ cursor.data.length) : (getU8 : Reader ε UInt8) cursor =
      (.ok (UInt8.ofNat (bigEndian (cursor.data.take 1))),
        ⟨cursor.data.drop 1⟩) := by
  simp [getU8, Effect.bind_apply, getNat_of_le enough, Effect.pure_apply]

theorem getU16_of_le (enough : 2 ≤ cursor.data.length) : (getU16 : Reader ε UInt16) cursor =
      (.ok (UInt16.ofNat (bigEndian (cursor.data.take 2))),
        ⟨cursor.data.drop 2⟩) := by
  simp [getU16, Effect.bind_apply, getNat_of_le enough, Effect.pure_apply]

theorem getU128_of_le (enough : 16 ≤ cursor.data.length) :
    (getU128 : Reader ε (BitVec 128)) cursor =
      (.ok (BitVec.ofNat 128 (bigEndian (cursor.data.take 16))),
        ⟨cursor.data.drop 16⟩) := by
  simp [getU128, Effect.bind_apply, getNat_of_le enough, Effect.pure_apply]

def times (count : ℕ) (body : Reader ε α) : Reader ε (List α) :=
  Effect.collect (fun _ => do
    let value ← body
    pure [value]) (List.range count)

/-- A loop that goes on while the condition on its state and on the octets left holds, for at
most the given number of rounds. -/
def loop (more : β → ℕ → Bool) (body : β → Reader ε β) : ℕ → β → Reader ε β
  | 0, state => pure state
  | rounds + 1, state => do
      let left ← remaining
      if more state left then
        let next ← body state
        loop more body rounds next
      else pure state

/-- A loop without a bound, for a body that takes at least one octet in each round: there can
be no more rounds than octets, and one that fails on the empty buffer. -/
def whileDo (more : β → ℕ → Bool) (body : β → Reader ε β) (state : β) : Reader ε β := do
  let left ← remaining
  loop more body (left + 1) state

def whileLeft (more : ℕ → Bool) (item : Reader ε α) : Reader ε (List α) :=
  whileDo (fun _ left => more left) (fun items => do
    let value ← item
    pure (items ++ [value])) []

/-- What the reader takes comes off the front of the buffer, at least so many octets of it. -/
def Takes (least : ℕ) (reader : Reader ε α) : Prop :=
  ∀ cursor value final, reader cursor = (.ok value, final) →
    ∃ taken, cursor.data = taken ++ final.data ∧ least ≤ taken.length

namespace Takes

variable {least more : ℕ} {reader first : Reader ε α} {value : α} {next : α → Reader ε β}
  {body : β → Reader ε β}

theorem length_le (takes : Takes least reader) {cursor final : Cursor}
    (run : reader cursor = (.ok value, final)) :
    final.data.length + least ≤ cursor.data.length := by
  rcases takes cursor value final run with ⟨taken, shape, enough⟩
  rw [shape, List.length_append]
  omega

theorem weaken (takes : Takes more reader) (le : least ≤ more) :
    Takes least reader := by
  intro cursor value final run
  rcases takes cursor value final run with ⟨taken, shape, enough⟩
  exact ⟨taken, shape, Nat.le_trans le enough⟩

@[grind →]
theorem any (takes : Takes least reader) : Takes 0 reader :=
  takes.weaken (Nat.zero_le least)

@[grind .]
theorem pure : Takes 0 (pure value : Reader ε α) := by
  intro cursor returned final run
  simp only [Effect.pure_apply, Prod.mk.injEq] at run
  rw [← run.2]
  exact ⟨[], rfl, Nat.le_refl 0⟩

@[grind .]
theorem fail {cause : ε} : Takes least (Effect.fail cause : Reader ε α) := by
  intro cursor value final run
  simp [Effect.fail] at run

@[grind .]
theorem crash : Takes least (crash : Reader ε α) := by
  intro cursor value final run
  simp [Reader.crash] at run

@[grind .]
theorem read {view : Cursor → α} : Takes 0 (Effect.read view : Reader ε α) := by
  intro cursor returned final run
  simp only [Effect.read, Prod.mk.injEq] at run
  rw [← run.2]
  exact ⟨[], rfl, Nat.le_refl 0⟩

@[grind .]
theorem remaining : Takes 0 (remaining : Reader ε ℕ) := read

theorem bind (firstTakes : Takes least first) (nextTakes : ∀ value, Takes more (next value)) :
    Takes (least + more) (first >>= next) := by
  intro cursor returned final run
  rw [Effect.bind_apply] at run
  rcases ran : first cursor with ⟨value | cause | _, middle⟩ <;> rw [ran] at run
  · rcases firstTakes cursor value middle ran with ⟨taken, shape, enough⟩
    rcases nextTakes value middle returned final run with ⟨taken', shape', enough'⟩
    refine ⟨taken ++ taken', ?_, ?_⟩
    · rw [shape, shape', List.append_assoc]
    · rw [List.length_append]
      exact Nat.add_le_add enough enough'
  all_goals simp at run

@[grind ←]
theorem bind_first (firstTakes : Takes least first) (nextTakes : ∀ value, Takes 0 (next value)) :
    Takes least (first >>= next) :=
  firstTakes.bind nextTakes

theorem bind_next (firstTakes : Takes 0 first) (nextTakes : ∀ value, Takes least (next value)) :
    Takes least (first >>= next) :=
  (firstTakes.bind nextTakes).weaken (Nat.le_add_left least 0)

theorem ite {condition : Prop} [Decidable condition] {second : Reader ε α}
    (holds : Takes least first) (fails : Takes least second) :
    Takes least (if condition then first else second) := by
  split_ifs
  · exact holds
  · exact fails

theorem getBytes (count : ℕ) : Takes count (getBytes count : Reader ε (List UInt8)) := by
  intro cursor value final run
  unfold Reader.getBytes at run
  split_ifs at run with enough
  · simp only [Prod.mk.injEq] at run
    rw [← run.2]
    exact ⟨cursor.data.take count, (List.take_append_drop ..).symm, by simp [enough]⟩
  · simp at run

@[grind .]
theorem takeUpTo (count : ℕ) : Takes 0 (takeUpTo count : Reader ε (List UInt8)) := by
  intro cursor value final run
  simp only [Reader.takeUpTo, Prod.mk.injEq] at run
  rw [← run.2]
  exact ⟨cursor.data.take count, (List.take_append_drop ..).symm, Nat.zero_le _⟩

theorem getNat (count : ℕ) : Takes count (getNat count : Reader ε ℕ) :=
  (getBytes count).bind_first fun _ => .pure

@[grind! .]
theorem getU8 : Takes 1 (getU8 : Reader ε UInt8) := (getNat 1).bind_first fun _ => .pure

@[grind! .]
theorem getU16 : Takes 2 (getU16 : Reader ε UInt16) := (getNat 2).bind_first fun _ => .pure

@[grind! .]
theorem getU32 : Takes 4 (getU32 : Reader ε UInt32) := (getNat 4).bind_first fun _ => .pure

@[grind! .]
theorem getU64 : Takes 8 (getU64 : Reader ε UInt64) := (getNat 8).bind_first fun _ => .pure

@[grind! .]
theorem getU128 : Takes 16 (getU128 : Reader ε (BitVec 128)) :=
  (getNat 16).bind_first fun _ => .pure

@[grind .]
theorem subtract [Profile] (width left right : ℕ) :
    Takes 0 (subtract width left right : Reader ε ℕ) :=
  ite pure (ite crash pure)

@[grind .]
theorem fillArray (width count : ℕ) : Takes 0 (fillArray width count : Reader ε (List UInt8)) :=
  ((getBytes _).bind_first fun _ => ite pure crash).any

@[grind ←]
theorem times (count : ℕ) {body : Reader ε α} (bodyTakes : Takes 0 body) :
    Takes 0 (times count body) := by
  unfold Reader.times
  induction List.range count with
  | nil => exact pure
  | cons item rest ih =>
    exact (bodyTakes.bind_first fun _ => pure).bind_first fun _ => ih.bind_first fun _ => pure

theorem loop {more : β → ℕ → Bool} (bodyTakes : ∀ state, Takes 0 (body state)) (rounds : ℕ)
    (state : β) :
    Takes 0 (loop more body rounds state) := by
  induction rounds generalizing state with
  | zero => exact .pure
  | succ rounds ih =>
    refine Takes.bind_first .read fun left => ?_
    split
    · exact (bodyTakes state).bind_first ih
    · exact .pure

@[grind ←]
theorem whileDo {more : β → ℕ → Bool} (bodyTakes : ∀ state, Takes 0 (body state)) (state : β) :
    Takes 0 (whileDo more body state) :=
  Takes.bind_first .read fun left => .loop bodyTakes (left + 1) state

@[grind ←]
theorem whileLeft {more : ℕ → Bool} {item : Reader ε α} (itemTakes : Takes 0 item) :
    Takes 0 (whileLeft more item) :=
  .whileDo (fun _ => itemTakes.bind_first fun _ => pure) []

end Takes

variable {body : β → Reader ε β} {more : β → ℕ → Bool}

theorem loop_of_lt (bodyTakes : ∀ state, Takes 1 (body state)) {rounds others : ℕ} {state : β}
    {cursor : Cursor} (enough : cursor.data.length < rounds)
    (enough' : cursor.data.length < others) :
    loop more body rounds state cursor = loop more body others state cursor := by
  induction rounds generalizing others state cursor with
  | zero => omega
  | succ rounds ih =>
    cases others with
    | zero => omega
    | succ others =>
      simp only [loop, Effect.bind_apply, remaining, Effect.read]
      split_ifs
      · simp only [Effect.bind_apply]
        rcases ran : body state cursor with ⟨next | cause | _, middle⟩
        · have taken := (bodyTakes state).length_le ran
          exact ih (by omega) (by omega)
        · rfl
        · rfl
      · rfl

theorem whileDo_eq (bodyTakes : ∀ state, Takes 1 (body state)) (state : β) :
    whileDo more body state = (do
      let left ← remaining
      if more state left then
        let next ← body state
        whileDo more body next
      else pure state) := by
  funext cursor
  simp only [whileDo, Effect.bind_apply, remaining, Effect.read, loop]
  split_ifs
  · simp only [Effect.bind_apply]
    rcases ran : body state cursor with ⟨next | cause | _, middle⟩
    · have taken := (bodyTakes state).length_le ran
      have same : loop more body cursor.data.length next middle =
          loop more body (middle.data.length + 1) next middle :=
        loop_of_lt bodyTakes (by omega) (by omega)
      exact same
    · rfl
    · rfl
  · rfl

def Returns (property : α → Prop) (reader : Reader ε α) : Prop :=
  ∀ cursor value final, reader cursor = (.ok value, final) → property value

namespace Returns

variable {property : α → Prop} {reader : Reader ε α} {next : β → Reader ε α} {first : Reader ε β}
  {invariant : β → Prop} {state : β}

theorem any : Returns (fun _ => True) reader := fun _ _ _ _ => trivial

theorem weaken {weaker : α → Prop} (returns : Returns property reader)
    (implies : ∀ value, property value → weaker value) : Returns weaker reader :=
  fun cursor value final run => implies value (returns cursor value final run)

@[grind ←]
theorem pure {value : α} (holds : property value) : Returns property (pure value : Reader ε α) := by
  intro cursor returned final run
  simp only [Effect.pure_apply, Prod.mk.injEq, Outcome.ok.injEq] at run
  exact run.1 ▸ holds

@[grind .]
theorem fail {cause : ε} : Returns property (Effect.fail cause : Reader ε α) := by
  intro cursor value final run
  simp [Effect.fail] at run

@[grind .]
theorem crash : Returns property (crash : Reader ε α) := by
  intro cursor value final run
  simp [Reader.crash] at run

theorem bind {known : β → Prop} (firstReturns : Returns known first)
    (nextReturns : ∀ value, known value → Returns property (next value)) :
    Returns property (first >>= next) := by
  intro cursor returned final run
  obtain ⟨value, middle, firstRun, nextRun⟩ := Effect.bind_eq_ok.mp run
  exact nextReturns value (firstReturns _ _ _ firstRun) _ _ _ nextRun

@[grind ←]
theorem bind_any (nextReturns : ∀ value, Returns property (next value)) :
    Returns property (first >>= next) :=
  any.bind fun value _ => nextReturns value

theorem ite {condition : Prop} [Decidable condition] {first second : Reader ε α}
    (holds : condition → Returns property first) (fails : ¬condition → Returns property second) :
    Returns property (if condition then first else second) := by
  split_ifs with known
  · exact holds known
  · exact fails known

theorem loop (step : ∀ state, invariant state → Returns invariant (body state)) (rounds : ℕ)
    (start : invariant state) : Returns invariant (loop more body rounds state) := by
  induction rounds generalizing state with
  | zero => exact pure start
  | succ rounds ih =>
    exact bind_any fun left => ite (fun _ => (step state start).bind fun next => ih)
      fun _ => pure start

theorem whileDo (step : ∀ state, invariant state → Returns invariant (body state))
    (start : invariant state) : Returns invariant (whileDo more body state) :=
  bind_any fun left => loop step (left + 1) start

theorem whileLeft {more : ℕ → Bool} {item : Reader ε α} (returns : Returns property item) :
    Returns (fun values => ∀ value ∈ values, property value) (whileLeft more item) := by
  refine whileDo ?_ (by simp)
  intro items known
  refine returns.bind fun value holds => pure fun other found => ?_
  rcases List.mem_append.mp found with old | new
  · exact known other old
  · exact List.mem_singleton.mp new ▸ holds

theorem times_length (count : ℕ) {body : Reader ε α} :
    Returns (fun values => values.length = count) (times count body) := by
  have rounds : ∀ indices : List ℕ, Returns (fun values => values.length = indices.length)
      (Effect.collect (fun _ => do
        let value ← body
        Pure.pure [value]) indices : Reader ε (List α)) := by
    intro indices
    induction indices with
    | nil => exact pure rfl
    | cons index rest ih =>
      have one : Returns (fun values => values.length = 1) (do
          let value ← body
          Pure.pure [value] : Reader ε (List α)) := bind_any fun _ => pure rfl
      refine one.bind fun first single => ih.bind fun others length => pure ?_
      rw [List.length_append, single, length, List.length_cons, Nat.add_comm]
  have whole := rounds (List.range count)
  rwa [List.length_range] at whole

end Returns

end Reader

end Sart.Lib
