import Mathlib.Data.List.Basic
import Mathlib.Logic.Function.Basic

/-!
# Tables

Objects have labels, at most one each, and a table finds an object by its label. The table is an
**index** of the labels when it finds `i` under `k` exactly if `k` is the label of `i`; labels are
then unique. Taking an object out under its label and putting one in under a free label keep the
table an index.

A table may also be a list, with the positions as labels: `getElem?_set_cases` and
`getElem?_snoc_cases` say where an entry comes from.
-/

namespace VosStack.Table

universe u v

variable {ι : Type u} {κ : Type v}

/-- The table finds `i` under `k` exactly if `k` is the label of `i`. -/
def Index (label : ι → Option κ) (table : κ → Option ι) : Prop :=
  ∀ k i, table k = some i ↔ label i = some k

variable {label : ι → Option κ} {table : κ → Option ι}

theorem index_none : Index (fun _ : ι => none) (fun _ : κ => none) :=
  fun _ _ => iff_of_false nofun nofun

theorem Index.unique (h : Index label table) {i j : ι} {k : κ} (hi : label i = some k)
    (hj : label j = some k) : i = j :=
  Option.some.inj (((h k i).mpr hi).symm.trans ((h k j).mpr hj))

variable [DecidableEq ι] [DecidableEq κ]

omit [DecidableEq κ] in
/-- What an updated table finds was put there, or was there before. -/
theorem update_cases {f : ι → Option κ} {i j : ι} {o : Option κ} {x : κ}
    (h : Function.update f i o j = some x) : j = i ∧ o = some x ∨ j ≠ i ∧ f j = some x := by
  by_cases hji : j = i
  · subst hji
    rw [Function.update_self] at h
    exact .inl ⟨rfl, h⟩
  · rw [Function.update_of_ne hji] at h
    exact .inr ⟨hji, h⟩

/-- An object loses its label and is taken out. -/
theorem Index.remove (h : Index label table) {i : ι} {k : κ} (hi : label i = some k) :
    Index (Function.update label i none) (Function.update table k none) := by
  intro k' j
  by_cases hji : j = i
  · subst hji
    rw [Function.update_self]
    refine iff_of_false (fun hj => ?_) nofun
    by_cases hk : k' = k
    · subst hk
      rw [Function.update_self] at hj
      exact absurd hj nofun
    · rw [Function.update_of_ne hk, h, hi] at hj
      exact hk (Option.some.inj hj).symm
  · rw [Function.update_of_ne hji]
    by_cases hk : k' = k
    · subst hk
      rw [Function.update_self]
      exact iff_of_false nofun fun hj => hji (h.unique hj hi)
    · rw [Function.update_of_ne hk]
      exact h k' j

/-- An object without a label gets one that is not in use, and is put in. -/
theorem Index.insert (h : Index label table) {i : ι} {k : κ} (hi : label i = none)
    (hk : table k = none) :
    Index (Function.update label i (some k)) (Function.update table k (some i)) := by
  intro k' j
  by_cases hji : j = i
  · subst hji
    rw [Function.update_self]
    by_cases hk' : k' = k
    · subst hk'
      exact iff_of_true (Function.update_self ..) rfl
    · rw [Function.update_of_ne hk', h, hi]
      exact iff_of_false nofun fun heq => hk' (Option.some.inj heq).symm
  · rw [Function.update_of_ne hji]
    by_cases hk' : k' = k
    · subst hk'
      rw [Function.update_self]
      refine iff_of_false (fun heq => hji (Option.some.inj heq).symm) fun hj => ?_
      exact absurd (hk.symm.trans ((h k' j).mpr hj)) nofun
    · rw [Function.update_of_ne hk']
      exact h k' j

section list

variable {α : Type u} {l : List α} {a b : α} {i j : ℕ}

/-- An entry of a table with a replaced entry is that one, or was there before. -/
theorem getElem?_set_cases (h : (l.set i a)[j]? = some b) :
    j = i ∧ b = a ∨ j ≠ i ∧ l[j]? = some b := by
  rw [List.getElem?_set] at h
  split at h
  · next hij =>
    split at h
    · exact .inl ⟨hij.symm, (Option.some.inj h).symm⟩
    · exact absurd h nofun
  · next hij => exact .inr ⟨fun hji => hij hji.symm, h⟩

/-- An entry of a table with a new last entry is that one, or was there before. -/
theorem getElem?_snoc_cases (h : (l ++ [a])[j]? = some b) :
    j = l.length ∧ b = a ∨ l[j]? = some b := by
  rcases Nat.lt_or_ge j l.length with hlt | hge
  · rw [List.getElem?_append_left hlt] at h
    exact .inr h
  · have hlt := (List.getElem?_eq_some_iff.mp h).1
    rw [List.length_append, List.length_singleton] at hlt
    obtain rfl : j = l.length := by omega
    rw [List.getElem?_concat_length] at h
    exact .inl ⟨rfl, (Option.some.inj h).symm⟩

end list

end VosStack.Table
