import VosStack.Transition.Run

/-!
# Loops that are left from inside

A loop `for(;;)` whose body reads one input in each round, and either goes on with a new state or
leaves with a result. It is run on a list of inputs; a loop that is still running after the last
one has no result.

What holds of the result is a question about the rounds that are made (`Visits`), one by one:
`loop_forall_iff`.
-/

namespace VosStack.Transition

variable {σ ι ρ : Type*}

/-- The result of the loop. -/
def loop (body : σ → ι → σ ⊕ ρ) : σ → List ι → Option ρ
  | _, [] => none
  | s, i :: is =>
    match body s i with
    | .inl s' => loop body s' is
    | .inr r => some r

/-- The loop makes a round in the state `s'` with the input `i`. -/
inductive Visits (body : σ → ι → σ ⊕ ρ) : σ → List ι → σ → ι → Prop
  | here {s : σ} {i : ι} {is : List ι} : Visits body s (i :: is) s i
  | there {s s₁ s' : σ} {i i' : ι} {is : List ι} (hbody : body s i = .inl s₁)
      (h : Visits body s₁ is s' i') : Visits body s (i :: is) s' i'

variable {body : σ → ι → σ ⊕ ρ}

theorem loop_cons_of_inl {s s' : σ} {i : ι} (h : body s i = .inl s') (is : List ι) :
    loop body s (i :: is) = loop body s' is := by
  rw [loop, h]

theorem loop_cons_of_inr {s : σ} {i : ι} {r : ρ} (h : body s i = .inr r) (is : List ι) :
    loop body s (i :: is) = some r := by
  rw [loop, h]

/-- **Invariant rule.** -/
theorem Visits.induct {I : σ → Prop} {s s' : σ} {is : List ι} {i : ι}
    (h : Visits body s is s' i) (hs : I s)
    (hbody : ∀ s i s', I s → body s i = .inl s' → I s') : I s' := by
  induction h with
  | here => exact hs
  | there hinl _ ih => exact ih (hbody _ _ _ hs hinl)

/-- The result comes from a round that was made. -/
theorem loop_eq_some_iff {s : σ} {is : List ι} {r : ρ} :
    loop body s is = some r ↔ ∃ s' i, Visits body s is s' i ∧ body s' i = .inr r := by
  induction is generalizing s with
  | nil =>
    constructor
    · intro h
      contradiction
    · rintro ⟨_, _, hvisits, _⟩
      cases hvisits
  | cons i is ih =>
    cases hbody : body s i with
    | inl s₁ =>
      rw [loop_cons_of_inl hbody, ih]
      constructor
      · rintro ⟨s', i', hvisits, hr⟩
        exact ⟨s', i', .there hbody hvisits, hr⟩
      · rintro ⟨s', i', hvisits, hr⟩
        cases hvisits with
        | here =>
          rw [hbody] at hr
          contradiction
        | there hbody' hvisits =>
          cases hbody.symm.trans hbody'
          exact ⟨s', i', hvisits, hr⟩
    | inr r₁ =>
      rw [loop_cons_of_inr hbody]
      constructor
      · rintro ⟨rfl⟩
        exact ⟨s, i, .here, hbody⟩
      · rintro ⟨s', i', hvisits, hr⟩
        cases hvisits with
        | here =>
          cases hbody.symm.trans hr
          rfl
        | there hbody' _ =>
          rw [hbody] at hbody'
          contradiction

/-- **Rule for loops.** A property of the result is one of the rounds in which the loop may be
left. -/
theorem loop_forall_iff {s : σ} {is : List ι} {Q : ρ → Prop} :
    (∀ r, loop body s is = some r → Q r) ↔
      ∀ s' i, Visits body s is s' i → ∀ r, body s' i = .inr r → Q r := by
  constructor
  · intro h s' i hvisits r hr
    exact h r (loop_eq_some_iff.mpr ⟨s', i, hvisits, hr⟩)
  · intro h r hr
    obtain ⟨s', i, hvisits, hbody⟩ := loop_eq_some_iff.mp hr
    exact h s' i hvisits r hbody

end VosStack.Transition
