import Mathlib.Data.List.Infix

/-!
# Greedy parsing with a cutting function

A function `f` on strings decides how much of the front of a string is one message: `f x`
elements if `0 < f x ≤ |x|` (`Cuts`), and no message otherwise, whether because `f` wants
to see more or because it asks for more than there is. `Greedy f x ms r` says that cutting
off messages as long as `f` allows it turns `x` into the messages `ms` and the rest `r`.

A parser that is fed the string piece by piece and keeps only the rest sees different
strings than one that gets it whole. `PrefixStable` is what makes the two agree: a message
that was cut off is cut off in the same way however the string goes on. The composition law
is `Greedy.append`.
-/

namespace VosStack.Parse

variable {α : Type*} {f : List α → ℕ}

/-- `f` cuts a message off the front of `x`. -/
def Cuts (f : List α → ℕ) (x : List α) : Prop := 0 < f x ∧ f x ≤ x.length

instance (f : List α → ℕ) (x : List α) : Decidable (Cuts f x) :=
  inferInstanceAs (Decidable (_ ∧ _))

/-- There is no message in nothing. -/
theorem not_cuts_nil (f : List α → ℕ) : ¬Cuts f [] := by
  rintro ⟨hpos, hle⟩
  exact absurd (Nat.lt_of_lt_of_le hpos hle) (Nat.lt_irrefl 0)

/-- `x` is parsed greedily into the messages `ms`, with the rest `r`. -/
inductive Greedy (f : List α → ℕ) : List α → List (List α) → List α → Prop
  | stop {x : List α} (h : ¬Cuts f x) : Greedy f x [] x
  | cut {x : List α} {ms : List (List α)} {r : List α} (h : Cuts f x)
      (ht : Greedy f (x.drop (f x)) ms r) : Greedy f x (x.take (f x) :: ms) r

/-- What `f` cuts off does not depend on how the string goes on. -/
def PrefixStable (f : List α → ℕ) : Prop := ∀ x y, Cuts f x → f (x ++ y) = f x

/-- What is cut off in front of more input is also there to be cut off. -/
theorem Cuts.append (hf : PrefixStable f) {x : List α} (h : Cuts f x) (y : List α) :
    Cuts f (x ++ y) := by
  unfold Cuts
  rw [hf x y h, List.length_append]
  exact ⟨h.1, Nat.le_add_right_of_le h.2⟩

/-- A parse only cuts: the messages and the rest make up the string. -/
theorem Greedy.flatten_append {x r : List α} {ms : List (List α)} (h : Greedy f x ms r) :
    ms.flatten ++ r = x := by
  induction h with
  | stop => rfl
  | cut hc ht ih => rw [List.flatten_cons, List.append_assoc, ih, List.take_append_drop]

/-- No message can be cut off the rest. -/
theorem Greedy.not_cuts {x r : List α} {ms : List (List α)} (h : Greedy f x ms r) :
    ¬Cuts f r := by
  induction h with
  | stop hc => exact hc
  | cut _ _ ih => exact ih

/-- Every string has a greedy parse. -/
theorem exists_greedy (f : List α → ℕ) (x : List α) : ∃ ms r, Greedy f x ms r := by
  induction hn : x.length using Nat.strong_induction_on generalizing x with
  | _ n ih =>
    by_cases hc : Cuts f x
    · have hlt : (x.drop (f x)).length < n := by
        rw [List.length_drop]
        have := hc.1
        have := hc.2
        omega
      obtain ⟨ms, r, h⟩ := ih _ hlt _ rfl
      exact ⟨_, _, .cut hc h⟩
    · exact ⟨_, _, .stop hc⟩

/-- A string has only one greedy parse. -/
theorem Greedy.unique {x r r' : List α} {ms ms' : List (List α)} (h : Greedy f x ms r)
    (h' : Greedy f x ms' r') : ms = ms' ∧ r = r' := by
  induction h generalizing ms' r' with
  | stop hc =>
    cases h' with
    | stop => exact ⟨rfl, rfl⟩
    | cut hc' => exact absurd hc' hc
  | cut hc ht ih =>
    cases h' with
    | stop hc' => exact absurd hc hc'
    | cut _ ht' =>
      obtain ⟨rfl, rfl⟩ := ih ht'
      exact ⟨rfl, rfl⟩

/-- **Composition.** Parsing the rest together with more input continues the parse of the
whole. -/
theorem Greedy.append (hf : PrefixStable f) {x y r r' : List α} {ms ms' : List (List α)}
    (h : Greedy f x ms r) (h' : Greedy f (r ++ y) ms' r') :
    Greedy f (x ++ y) (ms ++ ms') r' := by
  induction h with
  | stop => exact h'
  | @cut x ms r hc ht ih =>
    have hrest : Greedy f ((x ++ y).drop (f (x ++ y))) (ms ++ ms') r' := by
      rw [hf x y hc, List.drop_append_of_le_length hc.2]
      exact ih h'
    have hcut := Greedy.cut (hc.append hf y) hrest
    rwa [hf x y hc, List.take_append_of_le_length hc.2] at hcut

/-- The messages of a prefix are a prefix of the messages. -/
theorem Greedy.isPrefix_append (hf : PrefixStable f) {x y r r' : List α}
    {ms ms' : List (List α)} (h : Greedy f x ms r) (h' : Greedy f (x ++ y) ms' r') :
    ms <+: ms' := by
  obtain ⟨ms₂, r₂, h₂⟩ := exists_greedy f (r ++ y)
  obtain ⟨rfl, -⟩ := h'.unique (h.append hf h₂)
  exact List.prefix_append _ _

end VosStack.Parse
