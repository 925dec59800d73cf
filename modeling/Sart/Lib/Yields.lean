import Sart.Lib.Reader

/-!
# Readers on the octets written for a value

A reader yields a value on some octets in front of a tail if it takes exactly
these octets and returns the value.  The tail is a parameter because a reader
may count the octets that are left.  The rules follow the ways readers are put
together, loops included.
-/

namespace Sart.Lib

def Yields {ε α : Type} (reader : Reader ε α) (octets tail : List UInt8) (value : α) : Prop :=
  reader ⟨octets ++ tail⟩ = (.ok value, ⟨tail⟩)

/-- The reader takes the octets and returns the value wherever the octets stand. -/
def Reads {ε α : Type} (reader : Reader ε α) (octets : List UInt8) (value : α) : Prop :=
  ∀ tail, Yields reader octets tail value

namespace Reads

open Reader

variable {ε α β : Type} {tail : List UInt8} {octets : List UInt8} {value : α} {count : ℕ}

theorem yields {reader : Reader ε α} (reads : Reads reader octets value) :
    Yields reader octets tail value :=
  reads tail

theorem bind_apply {first : Reader ε α} {next : α → Reader ε β}
    (reads : Reads first octets value) : (first >>= next) ⟨octets ++ tail⟩ = next value ⟨tail⟩ := by
  have run : first ⟨octets ++ tail⟩ = (.ok value, ⟨tail⟩) := reads tail
  rw [Effect.bind_apply, run]

theorem getBytes (length : octets.length = count) :
    Reads (getBytes count : Reader ε (List UInt8)) octets octets := by
  intro tail
  rw [Yields, getBytes_of_le (by simp [length])]
  simp [← length]

theorem number {value : ℕ} (bound : value < 256 ^ count) {build : ℕ → α} {result : α}
    (same : build value = result) :
    Reads (getNat count >>= fun value => Pure.pure (build value) : Reader ε α)
      (toOctets count value) result := by
  intro tail
  have octets : Reads (Reader.getBytes count : Reader ε (List UInt8)) (toOctets count value)
      (toOctets count value) := getBytes (length_toOctets count value)
  rw [Yields, Effect.bind_apply, getNat, octets.bind_apply, bigEndian_toOctets bound, ← same]
  rfl

theorem getU8 (value : UInt8) : Reads (getU8 : Reader ε UInt8) [value] value := by
  have octet : Reads (Reader.getU8 : Reader ε UInt8) (toOctets 1 value.toNat) value :=
    number value.toNat_lt UInt8.ofNat_toNat
  simpa [toOctets] using octet

theorem getU16 (value : UInt16) :
    Reads (getU16 : Reader ε UInt16) (toOctets 2 value.toNat) value :=
  number value.toNat_lt UInt16.ofNat_toNat

theorem getU128 (value : BitVec 128) :
    Reads (getU128 : Reader ε (BitVec 128)) (toOctets 16 value.toNat) value :=
  number value.isLt (BitVec.ofNat_toNat 128 value)

end Reads

namespace Yields

open Reader

variable {ε α β : Type} {tail : List UInt8} {value : α} {octets : List UInt8}
  {first second body item : Reader ε α} {next : α → Reader ε β} {result : β} {condition : Prop}
  {count width : ℕ} {write : α → List UInt8} {values : List α} {more : ℕ → Bool}

theorem pure : Yields (pure value : Reader ε α) [] tail value := rfl

theorem bind {more : List UInt8} (firstYields : Yields first octets (more ++ tail) value)
    (nextYields : Yields (next value) more tail result) :
    Yields (first >>= next) (octets ++ more) tail result := by
  rw [Yields] at firstYields ⊢
  rw [List.append_assoc, Effect.bind_apply, firstYields]
  exact nextYields

theorem bind_nil (firstYields : Yields first [] (octets ++ tail) value)
    (nextYields : Yields (next value) octets tail result) :
    Yields (first >>= next) octets tail result :=
  firstYields.bind nextYields

theorem bind_pure (firstYields : Yields first octets tail value) (result : α → β) :
    Yields (first >>= fun value => Pure.pure (result value)) octets tail (result value) := by
  rw [Yields] at firstYields ⊢
  rw [Effect.bind_apply, firstYields]
  rfl

theorem bind_pure_eq (firstYields : Yields first octets tail value) {build : α → β}
    (same : build value = result) :
    Yields (first >>= fun value => Pure.pure (build value)) octets tail result :=
  same ▸ firstYields.bind_pure build

theorem of_eq {reader : Reader ε α} {octets' : List UInt8}
    (yields : Yields reader octets tail value) (same : octets' = octets) :
    Yields reader octets' tail value := same ▸ yields

theorem ite_pos [Decidable condition] (holds : condition)
    (yields : Yields first octets tail value) :
    Yields (if condition then first else second) octets tail value := by
  rwa [if_pos holds]

theorem ite_neg [Decidable condition] (fails : ¬condition)
    (yields : Yields second octets tail value) :
    Yields (if condition then first else second) octets tail value := by
  rwa [if_neg fails]

theorem remaining : Yields (remaining : Reader ε ℕ) [] tail tail.length := rfl

theorem subtract [Profile] {width left right : ℕ} (le : right ≤ left) :
    Yields (subtract width left right : Reader ε ℕ) [] tail (left - right) :=
  ite_pos le pure

theorem getBytes_of_length (length : octets.length = count) :
    Yields (getBytes count : Reader ε (List UInt8)) octets tail octets :=
  (Reads.getBytes length).yields

theorem takeUpTo (octets : List UInt8) :
    Yields (takeUpTo octets.length : Reader ε (List UInt8)) octets tail octets := by
  simp [Yields, Reader.takeUpTo]

theorem number {value : ℕ} (bound : value < 256 ^ count) {build : ℕ → α} {result : α}
    (same : build value = result) :
    Yields (Reader.getNat count >>= fun value => Pure.pure (build value) : Reader ε α)
      (toOctets count value) tail result :=
  (Reads.number bound same).yields

theorem getU8 (value : UInt8) : Yields (getU8 : Reader ε UInt8) [value] tail value :=
  (Reads.getU8 value).yields

theorem getU16 (value : UInt16) :
    Yields (getU16 : Reader ε UInt16) (toOctets 2 value.toNat) tail value :=
  (Reads.getU16 value).yields

theorem getU32 (value : UInt32) :
    Yields (getU32 : Reader ε UInt32) (toOctets 4 value.toNat) tail value :=
  number value.toNat_lt UInt32.ofNat_toNat

theorem getU64 (value : UInt64) :
    Yields (getU64 : Reader ε UInt64) (toOctets 8 value.toNat) tail value :=
  number value.toNat_lt UInt64.ofNat_toNat

theorem getU128 (value : BitVec 128) :
    Yields (getU128 : Reader ε (BitVec 128)) (toOctets 16 value.toNat) tail value :=
  (Reads.getU128 value).yields

theorem fillArray (le : octets.length ≤ width) :
    Yields (fillArray width octets.length : Reader ε (List UInt8)) octets tail
      (octets ++ List.replicate (width - octets.length) 0) := by
  have front : Yields (Reader.getBytes (min octets.length width) : Reader ε (List UInt8)) octets
      ([] ++ tail) octets := getBytes_of_length (Nat.min_eq_left le).symm
  exact (front.bind (ite_pos le pure)).of_eq (List.append_nil octets).symm

theorem fillArray_bigEndian {value : ℕ} (le : count ≤ width) (bound : value < 256 ^ width)
    (zeros : value % 256 ^ (width - count) = 0) (build : ℕ → α) {result : α}
    (same : build value = result) :
    Yields (Reader.fillArray width count >>= fun octets => Pure.pure (build (bigEndian octets)) :
      Reader ε α) ((toOctets width value).take count) tail result := by
  have written : ((toOctets width value).take count).length = count := by simp [le]
  have filled : Yields (Reader.fillArray width count : Reader ε (List UInt8))
      ((toOctets width value).take count) tail
      ((toOctets width value).take count ++ List.replicate (width - count) 0) := by
    have whole : Yields (Reader.fillArray width ((toOctets width value).take count).length :
        Reader ε (List UInt8)) _ tail _ := fillArray (by omega)
    rwa [written] at whole
  have number := filled.bind_pure fun octets => build (bigEndian octets)
  rwa [bigEndian_take_append_zeros le bound zeros, same] at number

theorem times (bodyYields : ∀ value ∈ values, ∀ tail, Yields body (write value) tail value) :
    Yields (times values.length body) (values.flatMap write) tail values := by
  have rounds : ∀ indices : List ℕ, indices.length = values.length →
      Yields (Effect.collect (fun _ => do
        let value ← body
        Pure.pure [value]) indices : Reader ε (List α)) (values.flatMap write) tail values := by
    intro indices length
    induction values generalizing indices with
    | nil =>
      obtain rfl := List.length_eq_zero_iff.mp length
      exact pure
    | cons value rest ih =>
      obtain ⟨index, others, rfl⟩ := List.exists_cons_of_length_eq_add_one length
      have first := (bodyYields value (by simp) (rest.flatMap write ++ tail)).bind_pure
        fun value => [value]
      have others := ih (fun value found => bodyYields value (by simp [found])) others
        (by simpa using length)
      exact first.bind (others.bind_pure fun values => [value] ++ values)
  exact rounds _ List.length_range

/-- A loop over values: in each round the body yields the next state on the octets of the next
value, and the condition holds exactly as long as values are left. -/
theorem whileDo {more : β → ℕ → Bool} {body : β → Reader ε β} {next : β → α → β}
    (bodyTakes : ∀ state, Takes 1 (body state)) (invariant : β → List α → Prop)
    (goes : ∀ state value rest, invariant state (value :: rest) →
      more state (((value :: rest).flatMap write).length + tail.length) = true ∧
        Yields (body state) (write value) (rest.flatMap write ++ tail) (next state value) ∧
        invariant (next state value) rest)
    (stops : ∀ state, invariant state [] → more state tail.length = false) (values : List α)
    (state : β) (start : invariant state values) :
    Yields (whileDo more body state) (values.flatMap write) tail (values.foldl next state) := by
  induction values generalizing state with
  | nil =>
    rw [Yields, whileDo_eq bodyTakes]
    simp [Effect.bind_apply, Reader.remaining, Effect.read, stops state start, Effect.pure_apply]
  | cons value rest ih =>
    obtain ⟨goOn, round, left⟩ := goes state value rest start
    have restRun := ih (next state value) left
    rw [Yields] at round ⊢
    rw [whileDo_eq bodyTakes, Effect.bind_apply]
    simp only [Reader.remaining, Effect.read, List.length_append]
    rw [if_pos goOn, Effect.bind_apply, List.flatMap_cons, List.append_assoc, round]
    exact restRun

theorem whileLeft_split (itemTakes : Takes 1 item)
    (bound : ∀ left, more left = true ↔ tail.length < left)
    (itemYields : ∀ before value after, values = before ++ value :: after →
      write value ≠ [] ∧ Yields item (write value) (after.flatMap write ++ tail) value) :
    Yields (whileLeft more item) (values.flatMap write) tail values := by
  have loop : Yields (Reader.whileLeft more item) (values.flatMap write) tail
      (values.foldl (fun items value => items ++ [value]) []) := by
    refine whileDo (fun items => itemTakes.bind_first fun _ => .pure)
      (fun items left => values = items ++ left) ?_ ?_ values [] rfl
    · intro items value rest split
      obtain ⟨written, yielded⟩ := itemYields items value rest split
      refine ⟨?_, yielded.bind_pure _, by simp [split]⟩
      have := List.length_pos_iff.mpr written
      simp only [bound, List.flatMap_cons, List.length_append]
      omega
    intro items _
    have := bound tail.length
    simpa using this
  have collected : values.foldl (fun items value => items ++ [value]) [] = values := by
    simpa [List.flatMap] using List.flatMap_singleton' values
  rwa [collected] at loop

theorem whileLeft (itemTakes : Takes 1 item) (bound : ∀ left, more left = true ↔ tail.length < left)
    (itemYields : ∀ value ∈ values, write value ≠ [] ∧
      ∀ tail, Yields item (write value) tail value) :
    Yields (whileLeft more item) (values.flatMap write) tail values := by
  refine whileLeft_split itemTakes bound fun before value after split => ?_
  obtain ⟨written, yielded⟩ := itemYields value (by simp [split])
  exact ⟨written, yielded _⟩

end Yields

end Sart.Lib
