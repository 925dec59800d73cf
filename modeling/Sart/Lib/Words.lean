import Mathlib

/-!
# A table of bits in machine words

A list of words of one width holds a bit for each number, the low bits of the
first word first.  Setting a bit changes that bit and no other one; the sum of the
words is zero exactly when no bit is set.
-/

namespace Sart.Lib.Words

variable {w : ℕ}

/-- The bit with an index, counted through all words. -/
def bit (words : List (BitVec w)) (index : ℕ) : Bool :=
  ((words[index / w]?).getD 0).getLsbD (index % w)

def write (words : List (BitVec w)) (index : ℕ) (value : Bool) : List (BitVec w) :=
  words.modify (index / w) fun word =>
    if value then word ||| 1#w <<< (index % w) else word &&& ~~~(1#w <<< (index % w))

@[simp]
theorem length_write (words : List (BitVec w)) (index : ℕ) (value : Bool) :
    (write words index value).length = words.length := by
  simp [write]

theorem bit_replicate (count index : ℕ) : bit (List.replicate count (0 : BitVec w)) index =
    false := by
  unfold bit
  rw [List.getElem?_replicate]
  split_ifs <;> simp

variable {index limit : ℕ} {words : List (BitVec w)} {word : BitVec w}

theorem getLsbD_mask {other : ℕ} (inside : other < w) :
    (1#w <<< index).getLsbD other = decide (other = index) := by
  have positive : 0 < w := Nat.zero_lt_of_lt inside
  by_cases below : other < index
  · simp [BitVec.getLsbD_shiftLeft, below, below.ne]
  rw [BitVec.getLsbD_shiftLeft, BitVec.getLsbD_one]
  simp only [inside, positive, decide_true, below, decide_false, Bool.not_false, Bool.true_and]
  congr 1
  exact propext ⟨fun same => by omega, fun same => by omega⟩

theorem bit_write (inside : index / w < words.length) (positive : 0 < w) (value : Bool)
    (other : ℕ) :
    bit (write words index value) other = if other = index then value else bit words other := by
  unfold bit write
  rw [List.getElem?_modify]
  by_cases sameWord : index / w = other / w
  · have here : other / w < words.length := sameWord ▸ inside
    have small : other % w < w := Nat.mod_lt _ positive
    have sameIndex : other % w = index % w ↔ other = index := by
      constructor
      · intro sameBit
        rw [← Nat.div_add_mod other w, ← Nat.div_add_mod index w, sameWord, sameBit]
      · rintro rfl
        rfl
    simp only [List.getElem?_eq_getElem here, if_pos sameWord, Option.map_eq_map, Option.map_some,
      Option.getD_some]
    cases value with
    | true =>
      rw [if_pos rfl, BitVec.getLsbD_or, getLsbD_mask small]
      by_cases same : other = index
      · simp [same]
      · simp [same, sameIndex]
    | false =>
      rw [if_neg (by simp), BitVec.getLsbD_and, BitVec.getLsbD_not, getLsbD_mask small]
      by_cases same : other = index
      · simp [same]
      · simp [same, sameIndex, small]
  · have different : other ≠ index := fun same => sameWord (by rw [same])
    simp [sameWord, different]

theorem bit_cons_of_lt (inside : index < w) :
    bit (word :: words) index = word.getLsbD index := by
  simp [bit, Nat.div_eq_of_lt inside, Nat.mod_eq_of_lt inside]

theorem bit_cons_add (positive : 0 < w) (word : BitVec w) (words : List (BitVec w)) (index : ℕ) :
    bit (word :: words) (index + w) = bit words index := by
  simp [bit, Nat.add_div_right index positive]

theorem sum_eq_zero_iff (positive : 0 < w) (words : List (BitVec w)) :
    (words.map BitVec.toNat).sum = 0 ↔ ∀ index, bit words index = false := by
  induction words with
  | nil => simp [bit]
  | cons word rest ih =>
    rw [List.map_cons, List.sum_cons, Nat.add_eq_zero_iff, ih]
    constructor
    · rintro ⟨zero, unset⟩ index
      by_cases inside : index < w
      · rw [bit_cons_of_lt inside, BitVec.getLsbD, zero, Nat.zero_testBit]
      · rw [← Nat.sub_add_cancel (not_lt.mp inside), bit_cons_add positive]
        exact unset _
    · intro unset
      constructor
      · have zero : word = 0#w := by
          refine BitVec.eq_of_getLsbD_eq fun index inside => ?_
          rw [← bit_cons_of_lt inside, unset, BitVec.getLsbD_zero]
        rw [zero, BitVec.toNat_ofNat, Nat.zero_mod]
      · intro index
        rw [← bit_cons_add positive word, unset]

theorem sum_write_false_le (words : List (BitVec w)) (index : ℕ) :
    ((write words index false).map BitVec.toNat).sum ≤ (words.map BitVec.toNat).sum := by
  unfold write
  generalize index / w = place
  induction words generalizing place with
  | nil => simp
  | cons word rest ih =>
    cases place with
    | zero =>
      refine Nat.add_le_add_right ?_ _
      exact Nat.and_le_left
    | succ place =>
      exact Nat.add_le_add_left (ih place) _

def firstUnset (word : BitVec w) (limit : ℕ) : Option ℕ :=
  (List.range limit).find? fun index => (word >>> index).toNat % 2 = 0

theorem shiftRight_mod_two (word : BitVec w) (index : ℕ) :
    (word >>> index).toNat % 2 = 0 ↔ word.getLsbD index = false := by
  rw [BitVec.toNat_ushiftRight, BitVec.getLsbD, Nat.testBit_eq_decide_div_mod_eq,
    Nat.shiftRight_eq_div_pow]
  simp

theorem firstUnset_eq_some (found : firstUnset word limit = some index) :
    index < limit ∧ word.getLsbD index = false ∧ ∀ other < index, word.getLsbD other = true := by
  rcases List.find?_range_eq_some.mp found with ⟨unset, inside, before⟩
  rw [decide_eq_true_iff, shiftRight_mod_two] at unset
  refine ⟨List.mem_range.mp inside, unset, fun other below => ?_⟩
  have set := before other below
  rw [Bool.not_eq_true', decide_eq_false_iff_not, shiftRight_mod_two] at set
  simpa using set

theorem firstUnset_eq_none (full : firstUnset word limit = none) (inside : index < limit) :
    word.getLsbD index = true := by
  have set := List.find?_eq_none.mp full index (List.mem_range.mpr inside)
  rw [decide_eq_true_iff, shiftRight_mod_two] at set
  simpa using set

end Sart.Lib.Words
