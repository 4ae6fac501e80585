import VosStack.Transition.Run

/-!
# Linearization points

A system of several threads serves operations on a shared object. Its *log* lists the
operations that are done, in the order in which they took effect. `Legal spec x₀ log x` says
that the sequential specification `spec` explains the log: performed one at a time from `x₀`,
its operations may give the results they gave and leave the object in the state `x`.

`Reach.legal` is the rule of linearization points. If each step either changes neither the log
nor the object, or adds one operation that `spec` allows in the object's state at that moment,
then the log is legal in every state reached. `Reach.legal_of_runs` is the rule for steps that
add several operations at once.
-/

namespace VosStack.Transition

variable {σ : Type*} {α : Type*} {ε : Type*} {χ : Type*}

/-- The log `log` is a sequential run of `spec` from `x₀` to `x`. -/
inductive Legal (spec : χ → ε → χ → Prop) (x₀ : χ) : List ε → χ → Prop
  | nil : Legal spec x₀ [] x₀
  | snoc {log : List ε} {x x' : χ} {e : ε} (h : Legal spec x₀ log x) (he : spec x e x') :
      Legal spec x₀ (log ++ [e]) x'

variable {step : σ → α → Option σ} {ok : σ → α → Prop} {s₀ s : σ}
variable {spec : χ → ε → χ → Prop}

/-- **Linearization points.** -/
theorem Reach.legal {J : σ → Prop} (log : σ → List ε) (obj : σ → χ)
    (h : Reach step ok s₀ s) (hJ : ∀ s, Reach step ok s₀ s → J s) (h₀ : log s₀ = [])
    (hstep : ∀ s s' a, J s → ok s a → step s a = some s' →
      log s' = log s ∧ obj s' = obj s ∨
        ∃ e, log s' = log s ++ [e] ∧ spec (obj s) e (obj s')) :
    Legal spec (obj s₀) (log s) (obj s) := by
  refine h.induct_of (I := fun s => Legal spec (obj s₀) (log s) (obj s)) hJ ?_ ?_
  · rw [h₀]
    exact .nil
  · intro s s' a hj hl hok hs
    rcases hstep s s' a hj hok hs with ⟨hlog, hobj⟩ | ⟨e, hlog, he⟩
    · rw [hlog, hobj]
      exact hl
    · rw [hlog]
      exact .snoc hl he

theorem Legal.append {x₀ x x' : χ} {l l' : List ε} (h : Legal spec x₀ l x)
    (h' : Legal spec x l' x') : Legal spec x₀ (l ++ l') x' := by
  induction h' with
  | nil => rwa [List.append_nil]
  | snoc _ he ih =>
    rw [← List.append_assoc]
    exact .snoc ih he

/-- The state in which an operation of the log was performed. -/
theorem Legal.split {x₀ x : χ} {log l l' : List ε} {e : ε} (h : Legal spec x₀ log x)
    (hlog : log = l ++ e :: l') : ∃ y y', Legal spec x₀ l y ∧ spec y e y' := by
  induction h generalizing l' with
  | nil => exact absurd hlog.symm (by simp)
  | snoc h he ih =>
    rcases List.eq_nil_or_concat l' with rfl | ⟨l'', e', rfl⟩
    · obtain ⟨rfl, heq⟩ := List.append_inj' hlog rfl
      obtain rfl := List.head_eq_of_cons_eq heq
      exact ⟨_, _, h, he⟩
    · rw [List.concat_eq_append, ← List.cons_append, ← List.append_assoc] at hlog
      exact ih (List.append_inj' hlog rfl).1

/-- A log of one operation. -/
theorem Legal.single {x x' : χ} {e : ε} (he : spec x e x') : Legal spec x [e] x' := by
  have h : Legal spec x ([] ++ [e]) x' := .snoc .nil he
  exact h

/-- **Linearization points**, when a step may perform several operations. -/
theorem Reach.legal_of_runs {J : σ → Prop} (log : σ → List ε) (obj : σ → χ)
    (h : Reach step ok s₀ s) (hJ : ∀ s, Reach step ok s₀ s → J s) (h₀ : log s₀ = [])
    (hstep : ∀ s s' a, J s → ok s a → step s a = some s' →
      ∃ es, log s' = log s ++ es ∧ Legal spec (obj s) es (obj s')) :
    Legal spec (obj s₀) (log s) (obj s) := by
  refine h.induct_of (I := fun s => Legal spec (obj s₀) (log s) (obj s)) hJ ?_ ?_
  · rw [h₀]
    exact .nil
  · intro s s' a hj hl hok hs
    obtain ⟨es, hlog, hes⟩ := hstep s s' a hj hok hs
    rw [hlog]
    exact hl.append hes

end VosStack.Transition
