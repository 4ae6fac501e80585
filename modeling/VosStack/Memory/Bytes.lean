import Mathlib.Algebra.Group.Nat.Defs

/-!
# Byte-addressed memory

A memory with addresses of `w` bits holds one byte at each address, and addresses wrap around.
A little-endian word of `n` bytes is read by `load` and written by `store`.

* `getLsbD_load`: each bit of a loaded word is a bit of one byte.
* `load_store_self`: a stored word is read back, when its bytes have different addresses.
* `Within n p a`: the byte at `a` is one of the `n` bytes at `p`. A store changes no other byte
  (`store_apply_of_not_within`).
-/

namespace VosStack.Memory

/-- The byte at each address. -/
abbrev Mem (w : ℕ) := BitVec w → BitVec 8

variable {w : ℕ}

/-- The word of `n` bytes at `p`, the byte at `p` being the lowest. -/
def load : (n : ℕ) → Mem w → BitVec w → BitVec (8 * n)
  | 0, _, _ => 0
  | n + 1, m, p => load n m (p + 1) ++ m p

/-- The byte at `a` is one of the `n` bytes from `p` on. -/
def Within (n : ℕ) (p a : BitVec w) : Prop := (a - p).toNat < n

instance (n : ℕ) (p a : BitVec w) : Decidable (Within n p a) :=
  inferInstanceAs (Decidable ((a - p).toNat < n))

/-- Write the `n` bytes of `v` at `p`. -/
def store (n : ℕ) (m : Mem w) (p : BitVec w) (v : BitVec (8 * n)) : Mem w := fun a =>
  if Within n p a then v.extractLsb' (8 * (a - p).toNat) 8 else m a

theorem within_self {n : ℕ} (hn : 0 < n) (p : BitVec w) : Within n p p := by
  rw [Within, BitVec.sub_self]
  exact hn

theorem store_apply_of_within {n : ℕ} {m : Mem w} {p a : BitVec w} {v : BitVec (8 * n)}
    (h : Within n p a) : store n m p v a = v.extractLsb' (8 * (a - p).toNat) 8 := if_pos h

theorem store_apply_of_not_within {n : ℕ} {m : Mem w} {p a : BitVec w} {v : BitVec (8 * n)}
    (h : ¬ Within n p a) : store n m p v a = m a := if_neg h

theorem getLsbD_load (n : ℕ) (m : Mem w) (p : BitVec w) (i : ℕ) (hi : i < 8 * n) :
    (load n m p).getLsbD i = (m (p + BitVec.ofNat w (i / 8))).getLsbD (i % 8) := by
  induction n generalizing p i with
  | zero => omega
  | succ n ih =>
    rw [load, BitVec.getLsbD_append]
    split
    · next h =>
      rw [Nat.div_eq_of_lt h, Nat.mod_eq_of_lt h, BitVec.add_zero]
    · next h =>
      have hdiv : 1 + (i - 8) / 8 = i / 8 := by omega
      have hmod : (i - 8) % 8 = i % 8 := by omega
      have haddr : p + 1 + BitVec.ofNat w ((i - 8) / 8) = p + BitVec.ofNat w (i / 8) := by
        rw [← hdiv, BitVec.ofNat_add, BitVec.add_assoc]
        rfl
      rw [ih (p + 1) (i - 8) (by omega), haddr, hmod]

theorem load_one (m : Mem w) (p : BitVec w) : load 1 m p = m p := by
  apply BitVec.eq_of_getLsbD_eq
  intro i hi
  rw [getLsbD_load 1 m p i hi, Nat.div_eq_of_lt hi, Nat.mod_eq_of_lt hi, BitVec.add_zero]

/-- **Read after write.** -/
theorem load_store_self {n : ℕ} (hn : n ≤ 2 ^ w) (m : Mem w) (p : BitVec w)
    (v : BitVec (8 * n)) : load n (store n m p v) p = v := by
  apply BitVec.eq_of_getLsbD_eq
  intro i hi
  have hbyte : (p + BitVec.ofNat w (i / 8) - p).toNat = i / 8 := by
    rw [BitVec.add_comm, BitVec.add_sub_cancel, BitVec.toNat_ofNat, Nat.mod_eq_of_lt (by omega)]
  have hwithin : Within n p (p + BitVec.ofNat w (i / 8)) := by
    rw [Within, hbyte]
    omega
  rw [getLsbD_load n _ p i hi, store_apply_of_within hwithin, hbyte, BitVec.getLsbD_extractLsb',
    Nat.div_add_mod, decide_eq_true (Nat.mod_lt i (by omega)), Bool.true_and]

end VosStack.Memory
