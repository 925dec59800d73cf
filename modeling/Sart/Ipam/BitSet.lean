import Sart.Lib.Outcome
import Sart.Lib.Words

/-!
# Bit sets

Words of 128 bits and the number of bits that count.  The size passes the check of the
indices; when it is a multiple of the word length, there is no word for it.

A set counts as empty when its words add up to zero, in 128 bits.  `wraps` tells whether
the program was built to wrap around or to panic on an overflow.
-/

namespace Sart

open Sart.Lib

inductive BitSetError where
  | invalidIndex
  | full
  | alreadySet
  deriving DecidableEq

structure BitSet (size : ℕ) where
  inner : List (BitVec 128)
  length_inner : inner.length = size / 128 + if size % 128 > 0 then 1 else 0
  deriving DecidableEq

namespace BitSet

variable {size : ℕ}

def new (size : ℕ) : BitSet size where
  inner := List.replicate (size / 128 + if size % 128 > 0 then 1 else 0) 0
  length_inner := List.length_replicate

def has (bits : BitSet size) (index : ℕ) : Bool := Words.bit bits.inner index

def isSet (bits : BitSet size) (index : ℕ) : Outcome BitSetError Bool :=
  if index > size then .ok false
  else if index / 128 < bits.inner.length then .ok (bits.has index)
  else .panic

def write (bits : BitSet size) (index : ℕ) (value : Bool) : BitSet size where
  inner := Words.write bits.inner index value
  length_inner := by rw [Words.length_write, bits.length_inner]

def set (bits : BitSet size) (index : ℕ) (value : Bool) : Outcome BitSetError (BitSet size) :=
  if index > size then .error .invalidIndex
  else if index / 128 < bits.inner.length then .ok (bits.write index value)
  else .panic

def setTrue (bits : BitSet size) (index : ℕ) : Outcome BitSetError (BitSet size) := do
  let set ← bits.isSet index
  if set then .error .alreadySet else bits.set index true

def getMinUnsetIndex (bits : BitSet size) : Outcome BitSetError ℕ :=
  match bits.inner.zipIdx.findSome? fun entry =>
    (Words.firstUnset entry.1 (if size / 128 = entry.2 then size % 128 else 128)).map
      fun index => entry.2 * 128 + index with
  | some index => .ok index
  | none => .error .full

def setNext (bits : BitSet size) : Outcome BitSetError (ℕ × BitSet size) := do
  let index ← bits.getMinUnsetIndex
  let bits ← bits.set index true
  .ok (index, bits)

def isEmpty (wraps : Bool) (bits : BitSet size) : Outcome BitSetError Bool :=
  let sum := (bits.inner.map BitVec.toNat).sum
  if sum < 2 ^ 128 then .ok (sum == 0)
  else if wraps then .ok (sum % 2 ^ 128 == 0)
  else .panic

def isFull (bits : BitSet size) : Bool :=
  match bits.getMinUnsetIndex with
  | .ok _ => false
  | _ => true

theorem has_new (index : ℕ) : (new size).has index = false :=
  Words.bit_replicate _ index

def Reaches (size index : ℕ) : Prop := index < size ∨ index = size ∧ size % 128 ≠ 0
  deriving Decidable

variable {index : ℕ} (bits : BitSet size)

theorem word_of_reaches (reaches : Reaches size index) : index / 128 < bits.inner.length := by
  rw [bits.length_inner]
  rcases reaches with inside | ⟨rfl, last⟩ <;> split_ifs <;> omega

theorem word_of_lt (inside : index < size) : index / 128 < bits.inner.length :=
  bits.word_of_reaches (.inl inside)

theorem set_cases (index : ℕ) (value : Bool) :
    Reaches size index ∧ bits.set index value = .ok (bits.write index value) ∨
      ¬Reaches size index ∧ bits.set index value =
        if index = size then .panic else .error .invalidIndex := by
  by_cases reaches : Reaches size index
  · refine .inl ⟨reaches, ?_⟩
    rw [set, if_neg (by rcases reaches with inside | ⟨rfl, -⟩ <;> omega),
      if_pos (bits.word_of_reaches reaches)]
  refine .inr ⟨reaches, ?_⟩
  rw [Reaches, not_or, not_and_not_right] at reaches
  by_cases same : index = size
  · have whole := reaches.2 same
    rw [set, if_neg (by omega), if_neg (by rw [bits.length_inner, if_neg (by omega)]; omega),
      if_pos same]
  · rw [set, if_pos (by omega), if_neg same]

theorem isSet_eq {bits : BitSet size} (inside : index < size) :
    bits.isSet index = .ok (bits.has index) := by
  rw [isSet, if_neg (by omega), if_pos (bits.word_of_lt inside)]

theorem has_write {bits : BitSet size} (reaches : Reaches size index) (value : Bool) (other : ℕ) :
    (bits.write index value).has other = if other = index then value else bits.has other :=
  Words.bit_write (bits.word_of_reaches reaches) (by decide) value other

theorem set_eq_ok {bits : BitSet size} (inside : index < size) (value : Bool) :
    bits.set index value = .ok (bits.write index value) := by
  rcases bits.set_cases index value with ⟨-, set⟩ | ⟨outside, -⟩
  · exact set
  · exact absurd (.inl inside) outside

theorem setTrue_eq {bits : BitSet size} (inside : index < size) :
    bits.setTrue index =
      if bits.has index then .error .alreadySet else .ok (bits.write index true) := by
  rw [setTrue, isSet_eq inside, Outcome.ok_bind, set_eq_ok inside]

theorem has_of_word {bits : BitSet size} {n offset : ℕ} {word : BitVec 128}
    (found : bits.inner[n]? = some word) (small : offset < 128) :
    bits.has (n * 128 + offset) = word.getLsbD offset := by
  have word_eq : (n * 128 + offset) / 128 = n := by omega
  have bit_eq : (n * 128 + offset) % 128 = offset := by omega
  rw [has, Words.bit, word_eq, bit_eq, found, Option.getD_some]

theorem getMinUnsetIndex_eq_ok {bits : BitSet size} (found : bits.getMinUnsetIndex = .ok index) :
    index < size ∧ bits.has index = false ∧ ∀ other < index, bits.has other = true := by
  unfold getMinUnsetIndex at found
  split at found
  · rename_i first search
    simp only [Outcome.ok.injEq] at found
    subst found
    rcases List.findSome?_eq_some_iff.mp search with ⟨before, ⟨word, n⟩, after, split, here, full⟩
    have entry : bits.inner[n]? = some word := by
      rw [← List.mem_zipIdx_iff_getElem? (x := (word, n)), split]
      simp
    rcases Option.map_eq_some_iff.mp here with ⟨offset, unset, rfl⟩
    rcases Words.firstUnset_eq_some unset with ⟨inside, clear, lower⟩
    have counted : n < bits.inner.length := (List.getElem?_eq_some_iff.mp entry).1
    rw [bits.length_inner] at counted
    have small : offset < 128 := by
      split_ifs at inside <;> omega
    refine ⟨?_, (has_of_word entry small).trans clear, fun other below => ?_⟩
    · dsimp only at inside ⊢
      split_ifs at inside counted <;> omega
    have place : before.length = n := by
      have at_place : bits.inner.zipIdx[before.length]? = some (word, n) := by
        rw [split, List.getElem?_append_right le_rfl, Nat.sub_self, List.getElem?_cons_zero]
      rw [List.getElem?_zipIdx, Option.map_eq_some_iff] at at_place
      rcases at_place with ⟨_, _, same⟩
      simpa using congrArg Prod.snd same
    rw [← Nat.div_add_mod' other 128]
    have modulo : other % 128 < 128 := Nat.mod_lt _ (by decide)
    rcases (show other / 128 < n ∨ other / 128 = n by omega) with earlier | same
    · -- all of an earlier word is searched, since it is not the last one
      have stored : other / 128 < bits.inner.length := bits.length_inner ▸ earlier.trans counted
      have entry' := List.getElem?_eq_getElem stored
      have listed := List.getElem?_zipIdx (l := bits.inner) (i := 0) (j := other / 128)
      rw [split, List.getElem?_append_left (place ▸ earlier), entry', Option.map_some,
        Nat.zero_add] at listed
      have whole := Option.map_eq_none_iff.mp (full _ (List.mem_of_getElem? listed))
      rw [has_of_word entry' modulo]
      refine Words.firstUnset_eq_none whole ?_
      split_ifs at counted ⊢ <;> omega
    · rw [same, has_of_word entry modulo]
      exact lower _ (by omega)
  · simp at found

theorem getMinUnsetIndex_eq_error {bits : BitSet size} {cause : BitSetError}
    (full : bits.getMinUnsetIndex = .error cause) (inside : index < size) :
    bits.has index = true := by
  unfold getMinUnsetIndex at full
  split at full
  · simp at full
  rename_i search
  have counted := bits.word_of_lt inside
  have entry : (bits.inner[index / 128], index / 128) ∈ bits.inner.zipIdx := by
    rw [List.mem_zipIdx_iff_getElem?]
    exact List.getElem?_eq_getElem counted
  have none := List.findSome?_eq_none_iff.mp search _ entry
  rw [Option.map_eq_none_iff] at none
  rw [has, Words.bit, List.getElem?_eq_getElem counted, Option.getD_some]
  refine Words.firstUnset_eq_none none ?_
  split_ifs <;> omega

theorem setNext_cases :
    (∃ index, bits.getMinUnsetIndex = .ok index ∧ index < size ∧ bits.has index = false ∧
      bits.setNext = .ok (index, bits.write index true)) ∨
    bits.getMinUnsetIndex = .error .full ∧ bits.setNext = .error .full ∧
      ∀ index < size, bits.has index = true := by
  cases minimum : bits.getMinUnsetIndex with
  | ok index =>
    rcases getMinUnsetIndex_eq_ok minimum with ⟨inside, unset, -⟩
    refine .inl ⟨index, rfl, inside, unset, ?_⟩
    rw [setNext, minimum, Outcome.ok_bind, set_eq_ok inside, Outcome.ok_bind]
  | error cause =>
    have full : cause = .full := by
      unfold getMinUnsetIndex at minimum
      split at minimum <;> simp_all
    subst full
    refine .inr ⟨rfl, ?_, fun index inside => getMinUnsetIndex_eq_error minimum inside⟩
    rw [setNext, minimum, Outcome.error_bind]
  | panic =>
    unfold getMinUnsetIndex at minimum
    split at minimum <;> simp at minimum

def Vacant (bits : BitSet size) : Prop := ∀ index, bits.has index = false

/-- The first 129 indices are in the set, and the words add up to zero. -/
example : (⟨[BitVec.allOnes 128, 1#128], rfl⟩ : BitSet 256).isEmpty true = .ok true := by decide

def NoOverflow (bits : BitSet size) : Prop := (bits.inner.map BitVec.toNat).sum < 2 ^ 128

instance (bits : BitSet size) : Decidable bits.NoOverflow :=
  inferInstanceAs (Decidable (_ < _))

theorem NoOverflow.write_false {bits : BitSet size} (fits : bits.NoOverflow) (index : ℕ) :
    (bits.write index false).NoOverflow :=
  (Words.sum_write_false_le bits.inner index).trans_lt fits

theorem NoOverflow.isEmpty {bits : BitSet size} (fits : bits.NoOverflow) (wraps : Bool) :
    ∃ empty, bits.isEmpty wraps = .ok empty ∧ (empty = true ↔ bits.Vacant) := by
  refine ⟨_, if_pos fits, ?_⟩
  rw [beq_iff_eq]
  exact Words.sum_eq_zero_iff (by decide) bits.inner

theorem NoOverflow.of_isEmpty {bits : BitSet size} {empty : Bool}
    (returned : bits.isEmpty false = .ok empty) : bits.NoOverflow := by
  by_contra overflows
  rw [NoOverflow] at overflows
  rw [BitSet.isEmpty, if_neg overflows] at returned
  cases returned

end BitSet

end Sart
