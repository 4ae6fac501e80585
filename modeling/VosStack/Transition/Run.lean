import Mathlib.Data.List.Basic

/-!
# Runs of a partial, labelled step function

A system is given by its step function `step : σ → α → Option σ`: what the action `a` does
in the state `s`, or `none` when `a` is not enabled there. Every interleaving of several
threads is a list of actions, so statements about all interleavings are statements about
all lists.

* `exec step s as` runs a list of actions; it is computable, so a concrete run is settled
  by evaluation.
* `Reach step ok s₀ s`: the state `s` is reached from `s₀` by a run each of whose steps
  meets `ok`, a condition on the state before the step and on the action taken. With
  `ok = fun _ _ => True` (`Reachable`) these are all reachable states.
* `Reach.induct` is the invariant rule; `Reach.induct_of` is the same rule when the step
  case may use an invariant already proved.
* `Reach.simulate` follows a run by a run of another system.
* `pairwise_snoc` and `rel_of_pairwise` add an entry to a log and read the order of two.
-/

namespace VosStack.Transition

variable {σ : Type*} {α : Type*}

/-- Run the actions `as` from `s`, or `none` if one of them is not enabled. -/
def exec (step : σ → α → Option σ) (s : σ) : List α → Option σ
  | [] => some s
  | a :: as => (step s a).bind fun s' => exec step s' as

@[simp]
theorem exec_nil (step : σ → α → Option σ) (s : σ) : exec step s [] = some s := rfl

/-- The states reached from `s₀` by runs all of whose steps meet `ok`. -/
inductive Reach (step : σ → α → Option σ) (ok : σ → α → Prop) (s₀ : σ) : σ → Prop
  | refl : Reach step ok s₀ s₀
  | tail {s s' : σ} {a : α} (h : Reach step ok s₀ s) (hok : ok s a)
      (hs : step s a = some s') : Reach step ok s₀ s'

/-- The states reached by unrestricted runs. -/
def Reachable (step : σ → α → Option σ) (s₀ s : σ) : Prop :=
  Reach step (fun _ _ => True) s₀ s

variable {step : σ → α → Option σ} {ok : σ → α → Prop} {s₀ s : σ}

/-- **Invariant rule.** What holds at the start and is kept by every admitted step holds in
every state reached. -/
theorem Reach.induct {I : σ → Prop} (h : Reach step ok s₀ s) (h₀ : I s₀)
    (hstep : ∀ s s' a, I s → ok s a → step s a = some s' → I s') : I s := by
  induction h with
  | refl => exact h₀
  | tail _ hok hs ih => exact hstep _ _ _ ih hok hs

/-- The invariant rule on top of an invariant `J` that is known to hold in every state
reached. -/
theorem Reach.induct_of {I J : σ → Prop} (h : Reach step ok s₀ s)
    (hJ : ∀ s, Reach step ok s₀ s → J s) (h₀ : I s₀)
    (hstep : ∀ s s' a, J s → I s → ok s a → step s a = some s' → I s') : I s := by
  induction h with
  | refl => exact h₀
  | tail hr hok hs ih => exact hstep _ _ _ (hJ _ hr) ih hok hs

/-- A run whose steps meet more than is asked for. -/
theorem Reach.mono {ok' : σ → α → Prop} (h : Reach step ok s₀ s)
    (hok : ∀ s a, ok s a → ok' s a) : Reach step ok' s₀ s := by
  induction h with
  | refl => exact .refl
  | tail _ ha hs ih => exact .tail ih (hok _ _ ha) hs

/-- A run after a run. -/
theorem Reach.trans {s₁ : σ} (h : Reach step ok s₀ s₁) (h' : Reach step ok s₁ s) :
    Reach step ok s₀ s := by
  induction h' with
  | refl => exact h
  | tail _ hok hs ih => exact .tail ih hok hs

/-- **Simulation rule.** A run is followed by a run of another system when each of its steps is. -/
theorem Reach.simulate {τ β : Type*} {step' : τ → β → Option τ} {ok' : τ → β → Prop}
    {R : σ → τ → Prop} {t₀ : τ} (h : Reach step ok s₀ s) (h₀ : R s₀ t₀)
    (hstep : ∀ s s' a t, R s t → ok s a → step s a = some s' →
      ∃ t', Reach step' ok' t t' ∧ R s' t') :
    ∃ t, Reach step' ok' t₀ t ∧ R s t := by
  induction h with
  | refl => exact ⟨t₀, .refl, h₀⟩
  | tail _ hok hs ih =>
    obtain ⟨t, hreach, hr⟩ := ih
    obtain ⟨t', hreach', hr'⟩ := hstep _ _ _ t hr hok hs
    exact ⟨t', hreach.trans hreach', hr'⟩

/-- A run prefixed by an admitted step. -/
theorem Reach.head {s₁ : σ} {a : α} (hok : ok s₀ a) (hs : step s₀ a = some s₁)
    (h : Reach step ok s₁ s) : Reach step ok s₀ s :=
  Reach.trans (.tail .refl hok hs) h

/-- An executed list of actions reaches its final state. -/
theorem reachable_of_exec (as : List α) (h : exec step s₀ as = some s) :
    Reachable step s₀ s := by
  induction as generalizing s₀ with
  | nil =>
    obtain rfl : s₀ = s := by simpa using h
    exact .refl
  | cons a as ih =>
    obtain ⟨s₁, hs, has⟩ := Option.bind_eq_some_iff.mp h
    exact Reach.head trivial hs (ih has)

/-- Every step of the run of `as` from `s` meets the condition `ok`. -/
def Admitted (step : σ → α → Option σ) (ok : σ → α → Prop) (s : σ) : List α → Prop
  | [] => True
  | a :: as => ok s a ∧ ∀ s' ∈ step s a, Admitted step ok s' as

instance [∀ s a, Decidable (ok s a)] : ∀ s as, Decidable (Admitted step ok s as)
  | _, [] => .isTrue trivial
  | s, a :: as =>
    have : Decidable (∀ s' ∈ step s a, Admitted step ok s' as) :=
      match step s a with
      | none => .isTrue (by simp)
      | some s₁ =>
        have : Decidable (Admitted step ok s₁ as) := instDecidableAdmitted s₁ as
        decidable_of_iff (Admitted step ok s₁ as) (by simp)
    inferInstanceAs (Decidable (_ ∧ _))

/-- A condition that the actions meet in every state. -/
theorem admitted_of_forall {as : List α} (h : ∀ s, ∀ a ∈ as, ok s a) (s : σ) :
    Admitted step ok s as := by
  induction as generalizing s with
  | nil => exact trivial
  | cons a as ih =>
    exact ⟨h s a List.mem_cons_self, fun s' _ => ih (fun s a ha => h s a (.tail _ ha)) s'⟩

/-- An executed list of actions all of whose steps meet `ok` reaches its final state. -/
theorem reach_of_exec (as : List α) (hok : Admitted step ok s₀ as)
    (h : exec step s₀ as = some s) : Reach step ok s₀ s := by
  induction as generalizing s₀ with
  | nil =>
    obtain rfl : s₀ = s := by simpa using h
    exact .refl
  | cons a as ih =>
    obtain ⟨s₁, hs, has⟩ := Option.bind_eq_some_iff.mp h
    exact Reach.head hok.1 hs (ih (hok.2 s₁ hs) has)

/-- `P` holds in every state of the run of `as` from `s`. -/
def Always (step : σ → α → Option σ) (P : σ → Prop) (s : σ) : List α → Prop
  | [] => P s
  | a :: as => P s ∧ ∀ s' ∈ step s a, Always step P s' as

theorem Always.head {P : σ → Prop} : ∀ {as : List α}, Always step P s as → P s
  | [], h => h
  | _ :: _, h => h.1

/-- Of an enabled step there is one outcome to look at. -/
theorem forall_mem_some_iff {P : σ → Prop} : (∀ s' ∈ some s, P s') ↔ P s := by
  simp only [Option.mem_def, Option.some.injEq, forall_eq']

/-- **Rule for exact conditions.** If in the states with the invariant `I` a step meets the
condition `ok` exactly when it leads to a state with `P`, and `I` is not lost as long as `P` holds,
then `P` holds all along a run exactly when all its steps meet the condition. -/
theorem always_iff_admitted {I P : σ → Prop} (hP : ∀ s, I s → P s)
    (hok : ∀ s a, I s → (ok s a ↔ ∀ s' ∈ step s a, P s'))
    (hkeep : ∀ s a s', I s → step s a = some s' → P s' → I s') (as : List α) (hs : I s) :
    Always step P s as ↔ Admitted step ok s as := by
  induction as generalizing s with
  | nil => exact iff_of_true (hP s hs) trivial
  | cons a as ih =>
    constructor
    · rintro ⟨_, h⟩
      refine ⟨(hok s a hs).mpr fun s' hs' => (h s' hs').head, fun s' hs' => ?_⟩
      exact (ih (hkeep s a s' hs hs' (h s' hs').head)).mp (h s' hs')
    · rintro ⟨hadm, h⟩
      refine ⟨hP s hs, fun s' hs' => ?_⟩
      have hP' : P s' := (hok s a hs).mp hadm s' hs'
      exact (ih (hkeep s a s' hs hs' hP')).mpr (h s' hs')

/-- The rule when the condition is one on enabled steps only: it suffices that a step that meets it
keeps the invariant, and that a step that leads to `P` meets it. -/
theorem always_iff_admitted_enabled {I P : σ → Prop} (hP : ∀ s, I s → P s)
    (hkeep : ∀ s a s', I s → ok s a → step s a = some s' → I s')
    (hok : ∀ s a s', I s → step s a = some s' → P s' → ok s a) (as : List α) (hs : I s) :
    Always step P s as ↔ Admitted step (fun s a => step s a ≠ none → ok s a) s as := by
  refine always_iff_admitted hP (fun s a h => ?_) ?_ as hs
  · constructor
    · intro hcond s' hs'
      have hs' : step s a = some s' := hs'
      exact hP s' (hkeep s a s' h (hcond (hs' ▸ Option.some_ne_none s')) hs')
    · intro hall hne
      obtain ⟨s', hs'⟩ := Option.ne_none_iff_exists'.mp hne
      exact hok s a s' h hs' (hall s' hs')
  · intro s a s' h hs' hP'
    exact hkeep s a s' h (hok s a s' h hs' hP') hs'

/-! ### Logs

A run that keeps a log adds entries at its end. "Nothing of one kind after something of
another" is a pairwise property of the log. -/

section log

variable {ε : Type*} {R : ε → ε → Prop}

/-- What holds of all entries holds of one more. -/
theorem forall_mem_snoc_iff {P : ε → Prop} {log : List ε} {e : ε} (h : ∀ x ∈ log, P x) :
    (∀ x ∈ log ++ [e], P x) ↔ P e := by
  rw [List.forall_mem_append, List.forall_mem_singleton, and_iff_right h]

/-- An entry related to all before it may be added. -/
theorem pairwise_snoc {log : List ε} {e : ε} (h : log.Pairwise R) (he : ∀ x ∈ log, R x e) :
    (log ++ [e]).Pairwise R := by
  rw [List.pairwise_append]
  refine ⟨h, List.pairwise_singleton R e, ?_⟩
  intro x hx y hy
  rw [List.mem_singleton.mp hy]
  exact he x hx

/-- An entry is related to all after it. -/
theorem rel_of_pairwise {before after : List ε} {e x : ε}
    (h : (before ++ e :: after).Pairwise R) (hx : x ∈ after) : R e x := by
  rw [List.pairwise_append, List.pairwise_cons] at h
  exact h.2.1.1 x hx

end log

end VosStack.Transition
