import Mathlib.Data.List.Basic
import Mathlib.Data.Nat.Basic

/-!
# Bitmaps

A set of numbers kept in a list of machine words, `w` bits in each: the number `n` is the bit
`n % w` of the word `n / w`. The lemmas say what the numbers of the set are after a bit is set or
cleared and after the list has grown.
-/

namespace VosStack.Table

variable {w : ℕ} {ws : List (BitVec w)} {m n k i : ℕ}

/-- The number is in the set. -/
def bit (ws : List (BitVec w)) (n : ℕ) : Bool := (ws.getD (n / w) 0).getLsbD (n % w)

theorem bit_mul_add (hi : i < w) : bit ws (k * w + i) = (ws.getD k 0).getLsbD i := by
  have hdiv : (k * w + i) / w = k := by
    rw [Nat.mul_comm, Nat.mul_add_div (by omega), Nat.div_eq_of_lt hi, Nat.add_zero]
  have hmod : (k * w + i) % w = i := by
    rw [Nat.mul_comm, Nat.mul_add_mod, Nat.mod_eq_of_lt hi]
  rw [bit, hdiv, hmod]

theorem bit_of_le (hw : 0 < w) (h : ws.length * w ≤ n) : bit ws n = false := by
  have hle : ws.length ≤ n / w := (Nat.le_div_iff_mul_le hw).mpr h
  rw [bit, List.getD_eq_getElem?_getD, List.getElem?_eq_none hle]
  exact BitVec.getLsbD_zero

/-- The word with only the bit `i`. -/
theorem getLsbD_one_shiftLeft (hi : i < w) : (1#w <<< m).getLsbD i = decide (i = m) := by
  rw [← BitVec.twoPow_eq, BitVec.getLsbD_twoPow, ← Bool.decide_and]
  refine decide_eq_decide.mpr ⟨fun h => h.2.symm, ?_⟩
  rintro rfl
  exact ⟨hi, rfl⟩

theorem and_one_shiftLeft_ne_zero_iff {x : BitVec w} (hi : i < w) :
    x &&& 1#w <<< i ≠ 0#w ↔ x.getLsbD i = true := by
  rw [ne_eq, BitVec.eq_of_getLsbD_eq_iff, not_forall]
  constructor
  · rintro ⟨j, hj⟩
    rw [Classical.not_imp, BitVec.getLsbD_and, getLsbD_one_shiftLeft (by omega),
      BitVec.getLsbD_zero] at hj
    obtain ⟨-, hbit⟩ := hj
    rw [Bool.not_eq_false, Bool.and_eq_true, decide_eq_true_eq] at hbit
    exact hbit.2 ▸ hbit.1
  · intro hbit
    refine ⟨i, ?_⟩
    rw [Classical.not_imp, BitVec.getLsbD_and, getLsbD_one_shiftLeft hi, hbit]
    exact ⟨hi, by simp⟩

/-- Two numbers are the same if word and bit are. -/
theorem eq_iff_div_mod : m = n ↔ m / w = n / w ∧ m % w = n % w := by
  constructor
  · rintro rfl
    exact ⟨rfl, rfl⟩
  · rintro ⟨hdiv, hmod⟩
    rw [← Nat.div_add_mod m w, hdiv, hmod, Nat.div_add_mod]

theorem decide_eq_div_mod :
    decide (m = n) = (decide (m / w = n / w) && decide (m % w = n % w)) := by
  rw [← Bool.decide_and]
  exact decide_eq_decide.mpr eq_iff_div_mod

/-- A change of one word. -/
theorem getD_modify (f : BitVec w → BitVec w) (h : k < ws.length) :
    (ws.modify k f).getD n 0 = if k = n then f (ws.getD n 0) else ws.getD n 0 := by
  rw [List.getD_eq_getElem?_getD, List.getElem?_modify, List.getD_eq_getElem?_getD]
  split_ifs with heq
  · subst heq
    rw [List.getElem?_eq_getElem h]
    rfl
  · cases ws[n]? <;> rfl

theorem bit_set (hw : 0 < w) (h : n / w < ws.length) :
    bit (ws.modify (n / w) (· ||| 1#w <<< (n % w))) m = (bit ws m || decide (m = n)) := by
  have hm : m % w < w := Nat.mod_lt m hw
  rw [bit, getD_modify _ h, bit, decide_eq_div_mod (w := w)]
  split_ifs with hdiv
  · rw [BitVec.getLsbD_or, getLsbD_one_shiftLeft hm]
    simp [hdiv]
  · simp [Ne.symm hdiv]

theorem bit_clear (hw : 0 < w) (h : n / w < ws.length) :
    bit (ws.modify (n / w) (· &&& ~~~(1#w <<< (n % w)))) m = (bit ws m && !decide (m = n)) := by
  have hm : m % w < w := Nat.mod_lt m hw
  rw [bit, getD_modify _ h, bit, decide_eq_div_mod (w := w)]
  split_ifs with hdiv
  · rw [BitVec.getLsbD_and, BitVec.getLsbD_not, getLsbD_one_shiftLeft hm, decide_eq_true hm]
    simp [hdiv]
  · simp [Ne.symm hdiv]

theorem bit_append_zeros : bit (ws ++ List.replicate k 0) n = bit ws n := by
  have hget : (ws ++ List.replicate k 0).getD (n / w) 0 = ws.getD (n / w) 0 := by
    rw [List.getD_eq_getElem?_getD, List.getD_eq_getElem?_getD, List.getElem?_append]
    split_ifs with hlt
    · rfl
    · rw [List.getElem?_eq_none (Nat.not_lt.mp hlt), List.getElem?_replicate]
      split_ifs <;> rfl
  rw [bit, hget, bit]

end VosStack.Table
