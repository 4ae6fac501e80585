import Mathlib.Data.Nat.Digits.Defs

/-!
# Numerals

`numeral b n` is the list of the digits of `n` in base `b`, the most significant one first, as a
printer writes them: at least one digit, and no zero in front of others.

A reader goes through the digits from the left and keeps the number read so far. `run_numeral`
is the rule for readers: if the first digit takes it to the state of that digit, and each further
digit `d` from the state of `m ≠ 0` to that of `m * b + d`, then the numeral of `n` takes it to the
state of `n`. Numerals are the only lists that are read this way (`numeral_append_digit`).
-/

namespace VosStack.Text

variable {b n : ℕ}

/-- The digits of `n` in base `b`, the most significant first. -/
def numeral (b n : ℕ) : List ℕ := if n = 0 then [0] else (Nat.digits b n).reverse

theorem numeral_of_lt (h : n < b) : numeral b n = [n] := by
  rw [numeral]
  split
  · next hzero => rw [hzero]
  · next hpos => rw [Nat.digits_of_lt b n hpos h, List.reverse_singleton]

theorem numeral_of_le (hb : 2 ≤ b) (h : b ≤ n) : numeral b n = numeral b (n / b) ++ [n % b] := by
  have hdiv : n / b ≠ 0 := Nat.div_ne_zero_iff.mpr ⟨by omega, h⟩
  rw [numeral, if_neg (by omega), Nat.digits_def' hb (by omega), List.reverse_cons, numeral,
    if_neg hdiv]

/-- A further digit. -/
theorem numeral_append_digit {m d : ℕ} (hm : m ≠ 0) (hd : d < b) (hb : 2 ≤ b) :
    numeral b (m * b + d) = numeral b m ++ [d] := by
  have hpos : 0 < m := Nat.pos_of_ne_zero hm
  have hle : b ≤ m * b + d := by
    calc b = 1 * b := (Nat.one_mul b).symm
      _ ≤ m * b := Nat.mul_le_mul_right b hpos
      _ ≤ m * b + d := Nat.le_add_right _ _
  have hdiv : (m * b + d) / b = m := by
    rw [Nat.mul_comm, Nat.mul_add_div (by omega), Nat.div_eq_of_lt hd, Nat.add_zero]
  have hmod : (m * b + d) % b = d := by
    rw [Nat.mul_comm, Nat.mul_add_mod, Nat.mod_eq_of_lt hd]
  rw [numeral_of_le hb hle, hdiv, hmod]

/-- Numbers as their digits: what holds of the digits and is kept by a further digit holds of all
numbers. -/
theorem digit_induction {P : ℕ → Prop} (hb : 2 ≤ b) (hfirst : ∀ d, d < b → P d)
    (hnext : ∀ m d, m ≠ 0 → d < b → P m → P (m * b + d)) (n : ℕ) : P n := by
  induction n using Nat.strong_induction_on with
  | _ n ih =>
    by_cases hlt : n < b
    · exact hfirst n hlt
    · have hne : n / b ≠ 0 := Nat.div_ne_zero_iff.mpr ⟨by omega, by omega⟩
      have hrec := hnext (n / b) (n % b) hne (Nat.mod_lt n (by omega))
        (ih (n / b) (Nat.div_lt_self (by omega) (by omega)))
      rwa [Nat.mul_comm, Nat.div_add_mod] at hrec

theorem numeral_ne_nil (hb : 2 ≤ b) (n : ℕ) : numeral b n ≠ [] := by
  by_cases hlt : n < b
  · rw [numeral_of_lt hlt]
    exact List.cons_ne_nil n []
  · rw [numeral_of_le hb (by omega)]
    exact List.append_ne_nil_of_right_ne_nil _ (List.cons_ne_nil _ [])

theorem lt_of_mem_numeral (hb : 2 ≤ b) {d : ℕ} (h : d ∈ numeral b n) : d < b := by
  revert h
  refine digit_induction (P := fun n => d ∈ numeral b n → d < b) hb (fun n hn hd => ?_)
    (fun m e hm he ih hd => ?_) n
  · rw [numeral_of_lt hn, List.mem_singleton] at hd
    exact hd ▸ hn
  · rw [numeral_append_digit hm he hb, List.mem_append, List.mem_singleton] at hd
    rcases hd with hd | rfl
    · exact ih hd
    · exact he

/-- The length of a numeral. -/
theorem length_numeral_le (hb : 2 ≤ b) {k : ℕ} (hn : n < b ^ (k + 1)) :
    (numeral b n).length ≤ k + 1 := by
  induction k generalizing n with
  | zero =>
    rw [Nat.zero_add, Nat.pow_one] at hn
    rw [numeral_of_lt hn]
    rfl
  | succ k ih =>
    by_cases hlt : n < b
    · rw [numeral_of_lt hlt]
      exact Nat.le_add_left 1 (k + 1)
    · have hdiv : n / b < b ^ (k + 1) :=
        Nat.div_lt_of_lt_mul (by rwa [Nat.mul_comm, ← Nat.pow_succ])
      rw [numeral_of_le hb (by omega), List.length_append, List.length_singleton]
      exact Nat.succ_le_succ (ih hdiv)

/-- **Reading a numeral.** -/
theorem run_numeral {α β σ : Type*} {run : List α → σ → β} {char : ℕ → α} {s₀ : σ}
    (state : ℕ → σ) {N : ℕ} (hb : 2 ≤ b)
    (hfirst : ∀ d r, d < b → d ≤ N → run (char d :: r) s₀ = run r (state d))
    (hnext : ∀ m d r, m ≠ 0 → d < b → m * b + d ≤ N →
      run (char d :: r) (state m) = run r (state (m * b + d)))
    (hn : n ≤ N) (r : List α) :
    run ((numeral b n).map char ++ r) s₀ = run r (state n) := by
  revert r
  refine digit_induction
    (P := fun n => n ≤ N → ∀ r, run ((numeral b n).map char ++ r) s₀ = run r (state n))
    hb (fun n hlt hn r => ?_) (fun m d hm hd ih hn r => ?_) n hn
  · rw [numeral_of_lt hlt]
    exact hfirst n r hlt hn
  · have hle : m ≤ N := by
      have : m * 1 ≤ m * b := Nat.mul_le_mul_left m (by omega)
      omega
    rw [numeral_append_digit hm hd hb, List.map_append, List.append_assoc, ih hle]
    exact hnext m d r hm hd hn

end VosStack.Text
