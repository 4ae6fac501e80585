import VosStack.Atomic.Port
import VosStack.Transition.Retry

/-!
# Test and set, test and clear

`atomic_testandset_long` and `atomic_testandclear_long` are loops around `atomic_fcmpset_long`: they
try to change a bit until they have changed it or find it changed already. Both have the shape of
`Transition.Retry`, with the bit as the condition.

What is proved here takes the exchange as one atomic step, as its name says. That is the call of
`Atomic.Port` with nothing between its load and its last access (`fcmpset_eq_finish`); the host's
functions are not atomic without further conditions, which is another matter.
-/

namespace VosStack.Atomic

open Transition
open Transition.Retry (Loop fcmpset)

/-- `bit`; the word has `sizeof(*p) * 8` bits. -/
def bitMask (v : BitVec 32) : BitVec 64 := 1#64 <<< (v.toNat % 64)

/-- A function made of such a loop. -/
structure BitFunction extends Loop (BitVec 64) where
  /-- what it returns when the loop has left `ret` -/
  result (ret : Bool) : Bool

/-- `atomic_testandset_long`. -/
def atomicTestandsetLong (v : BitVec 32) : BitFunction where
  again old := old &&& bitMask v == 0
  update old := old ||| bitMask v
  result ret := !ret

/-- `atomic_testandclear_long`. -/
def atomicTestandclearLong (v : BitVec 32) : BitFunction where
  again old := old &&& bitMask v != 0
  update old := old &&& ~~~ bitMask v
  result ret := ret

/-- The exchange of the loops is `atomic_fcmpset_long` of the host, done at once. -/
theorem fcmpset_eq_finish (word old newvalue : BitVec 64) (spurious : Bool) :
    let r := fcmpset word old newvalue spurious
    (atomicFcmpsetLong old newvalue).finish word spurious word =
      (r.2.1, .flagExpected r.1 r.2.2) := by
  cases spurious with
  | true =>
    rw [fcmpset, if_neg fun h => h.2 rfl]
    exact if_neg fun h => h.2 ⟨rfl, rfl⟩
  | false =>
    rw [fcmpset]
    by_cases hword : word = old
    · rw [if_pos ⟨hword, Bool.false_ne_true⟩]
      exact if_pos ⟨hword, fun h => Bool.false_ne_true h.2⟩
    · rw [if_neg fun h => hword h.1]
      exact if_neg fun h => hword h.1

/-! ### Bits -/

theorem getLsbD_bitMask (v : BitVec 32) (j : ℕ) :
    (bitMask v).getLsbD j = decide (j = v.toNat % 64) := by
  have hlt : v.toNat % 64 < 64 := Nat.mod_lt _ (by decide)
  rw [bitMask, BitVec.getLsbD_shiftLeft, BitVec.getLsbD_one]
  by_cases hj : j = v.toNat % 64
  · subst hj
    simp [hlt]
  · simp [hj]
    omega

/-- The test of both loops. -/
theorem and_bitMask_eq_zero_iff {x : BitVec 64} {v : BitVec 32} :
    x &&& bitMask v = 0 ↔ x.getLsbD (v.toNat % 64) = false := by
  constructor
  · intro h
    have hbit := congrArg (BitVec.getLsbD · (v.toNat % 64)) h
    simp only [BitVec.getLsbD_and, getLsbD_bitMask, decide_true, Bool.and_true] at hbit
    exact hbit.trans BitVec.getLsbD_zero
  · intro h
    refine BitVec.eq_of_getLsbD_eq fun j _ => ?_
    rw [BitVec.getLsbD_and, getLsbD_bitMask]
    by_cases hj : j = v.toNat % 64
    · rw [hj, h, Bool.false_and]
      exact BitVec.getLsbD_zero.symm
    · rw [decide_eq_false hj, Bool.and_false]
      exact BitVec.getLsbD_zero.symm

/-- At an access, the bit `i` was `r` and became `value`, and the other bits are unchanged. -/
structure Changes (i : ℕ) (value r : Bool) (e : BitVec 64 × BitVec 64) : Prop where
  had : e.1.getLsbD i = r
  now : e.2.getLsbD i = value
  others : ∀ j, j ≠ i → e.2.getLsbD j = e.1.getLsbD j

section changes

variable {i : ℕ} {value : Bool} {v : BitVec 32} {e : BitVec 64 × BitVec 64}

/-- A bit that has the value already stays as it is. -/
theorem changes_of_eq (h : e.1.getLsbD i = value) (he : e.2 = e.1) : Changes i value value e where
  had := h
  now := by rw [he, h]
  others j _ := by rw [he]

theorem changes_of_or (h : e.1.getLsbD (v.toNat % 64) = false) (he : e.2 = e.1 ||| bitMask v) :
    Changes (v.toNat % 64) true false e where
  had := h
  now := by rw [he, BitVec.getLsbD_or, getLsbD_bitMask, decide_eq_true rfl, Bool.or_true]
  others j hj := by rw [he, BitVec.getLsbD_or, getLsbD_bitMask, decide_eq_false hj, Bool.or_false]

theorem changes_of_and_not (h : e.1.getLsbD (v.toNat % 64) = true)
    (he : e.2 = e.1 &&& ~~~ bitMask v) : Changes (v.toNat % 64) false true e where
  had := h
  now := by
    rw [he, BitVec.getLsbD_and, BitVec.getLsbD_not, getLsbD_bitMask, decide_eq_true rfl,
      Bool.not_true, Bool.and_false, Bool.and_false]
  others j hj := by
    rw [he, BitVec.getLsbD_and, BitVec.getLsbD_not, getLsbD_bitMask, decide_eq_false hj,
      Bool.not_false, Bool.and_true]
    -- bits beyond the word are clear
    by_cases hlt : j < 64
    · rw [decide_eq_true hlt, Bool.and_true]
    · rw [BitVec.getLsbD_of_ge e.1 j (Nat.le_of_not_lt hlt), Bool.false_and]

end changes

/-! ### The calls -/

/-- **What a call does** that makes the bit `i` of the word `value`. When it returns, one of its
accesses found the bit as it is returned and made it `value`, and the others changed nothing; left
alone it tries at most once, and it returns. -/
structure ChangesBit (f : BitFunction) (i : ℕ) (value : Bool) : Prop where
  instant : ∀ word s ret, Reachable f.step (.start word) s → s.pos = .done ret →
    ∃ quiet e, s.accesses = quiet ++ [e] ∧ (∀ x ∈ quiet, x.1 = x.2) ∧
      Changes i value (f.result ret) e
  attempts : ∀ word s, Reach f.step Loop.Alone (.start word) s → s.attempts ≤ 1
  returns : ∀ word, ∃ s ret, Reach f.step Loop.Alone (.start word) s ∧ s.pos = .done ret

/-- It is enough to look at the access that ends the loop. -/
theorem changesBit_of_ends {f : BitFunction} {i : ℕ} {value : Bool}
    (h : ∀ ret e, f.Ends ret e → Changes i value (f.result ret) e) : ChangesBit f i value where
  instant word s ret hs hret := by
    have heffect := Loop.effect_of_reachable hs
    rw [Loop.Effect, hret] at heffect
    obtain ⟨quiet, e, haccesses, hquiet, hends⟩ := heffect
    exact ⟨quiet, e, haccesses, hquiet, h ret e hends⟩
  attempts _ _ := Loop.attempts_le_one
  returns := f.exists_done

/-- **Test and set, test and clear.** For every word, every bit number and every interference: the
first returns the bit and sets it, the second returns the bit and clears it, each at one
instant. -/
theorem testandset_testandclear_changeBit (v : BitVec 32) :
    ChangesBit (atomicTestandsetLong v) (v.toNat % 64) true ∧
      ChangesBit (atomicTestandclearLong v) (v.toNat % 64) false := by
  constructor
  · refine changesBit_of_ends ?_
    rintro (_ | _) e ⟨hagain, he⟩
    -- left without an update: the bit was found set, by the load or by a failed exchange
    · refine changes_of_eq ?_ he
      rw [← Bool.not_eq_false, ← and_bitMask_eq_zero_iff]
      exact beq_eq_false_iff_ne.mp hagain
    · exact changes_of_or (and_bitMask_eq_zero_iff.mp (beq_iff_eq.mp hagain)) he
  · refine changesBit_of_ends ?_
    rintro (_ | _) e ⟨hagain, he⟩
    -- here it was found clear
    · exact changes_of_eq (and_bitMask_eq_zero_iff.mp (bne_eq_false_iff_eq.mp hagain)) he
    · refine changes_of_and_not ?_ he
      rw [← Bool.not_eq_false, ← and_bitMask_eq_zero_iff]
      exact bne_iff_ne.mp hagain

end VosStack.Atomic
