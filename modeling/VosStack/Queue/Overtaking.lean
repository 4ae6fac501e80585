import Mathlib.Data.List.Nodup
import Mathlib.Data.List.Sublists

/-!
# Queues without overtaking

Entries enter a queue at its tail. Workers take the entry at the head, hold it for a while,
and may *serve* it; afterwards it may enter again. Entries may also be withdrawn from any
place. For each entry we keep the list `since` of what was served since it last entered.

`Fair q held since` says that nothing is served twice while an entry waits: the lists of the
waiting entries have no repetition, and whatever is in the list of `e` is neither held by a
worker nor ahead of `e`, so that it cannot be served before `e` is. That `j` is ahead of `e`
in `q` is written `[j, e].Sublist q`.

There is one lemma per operation: `Fair.push`, `Fair.take`, `Fair.serve`, `Fair.withdraw`.
-/

namespace VosStack.Queue

variable {ε : Type*}

/-- No entry is served twice while another one waits. -/
structure Fair (q : List ε) (held : ε → Prop) (since : ε → List ε) : Prop where
  nodup : q.Nodup
  once : ∀ e ∈ q, (since e).Nodup
  behind : ∀ e ∈ q, ∀ j ∈ since e, ¬ [j, e].Sublist q
  free : ∀ e ∈ q, ∀ j ∈ since e, ¬ held j

namespace Fair

variable {q q' : List ε} {held held' : ε → Prop} {since : ε → List ε} {e j : ε}

theorem nil (held : ε → Prop) (since : ε → List ε) : Fair [] held since where
  nodup := List.nodup_nil
  once := by simp
  behind := by simp
  free := by simp

/-- Withdrawing entries, or no longer holding some, is fair. -/
theorem withdraw (h : Fair q held since) (hq : q'.Sublist q)
    (hheld : ∀ e, held' e → held e) : Fair q' held' since where
  nodup := h.nodup.sublist hq
  once := fun e he => h.once e (hq.mem he)
  behind := fun e he j hj hs => h.behind e (hq.mem he) j hj (hs.trans hq)
  free := fun e he j hj hh => h.free e (hq.mem he) j hj (hheld j hh)

/-- An entry that enters is the last one. -/
theorem sublist_of_sublist_snoc {x : ε} (hx : x ≠ e) (h : [j, x].Sublist (q ++ [e])) :
    [j, x].Sublist q := by
  obtain ⟨l₁, l₂, hl, h₁, h₂⟩ := List.sublist_append_iff.mp h
  rcases List.sublist_singleton.mp h₂ with rfl | rfl
  · rw [List.append_nil] at hl
    exact hl ▸ h₁
  · have hlast : x = e := by
      have := congrArg List.getLast? hl
      simpa using this
    exact absurd hlast hx

/-- An entry that enters has seen nothing served. -/
theorem push [DecidableEq ε] (h : Fair q held since) (he : e ∉ q) :
    Fair (q ++ [e]) held (Function.update since e []) where
  nodup := by
    rw [List.nodup_append]
    refine ⟨h.nodup, List.nodup_singleton e, fun x hx y hy => ?_⟩
    rintro rfl
    exact he (List.mem_singleton.mp hy ▸ hx)
  once := fun x hx => by
    by_cases hxe : x = e
    · simp [hxe]
    · rw [Function.update_of_ne hxe]
      exact h.once x (by simpa [hxe] using hx)
  behind := fun x hx j hj hs => by
    by_cases hxe : x = e
    · simp [hxe] at hj
    · rw [Function.update_of_ne hxe] at hj
      exact h.behind x (by simpa [hxe] using hx) j hj (sublist_of_sublist_snoc hxe hs)
  free := fun x hx j hj => by
    by_cases hxe : x = e
    · simp [hxe] at hj
    · rw [Function.update_of_ne hxe] at hj
      exact h.free x (by simpa [hxe] using hx) j hj

/-- What is taken from the head has not been served since any waiting entry entered. -/
theorem take (h : Fair (j :: q) held since) : Fair q (fun e => e = j ∨ held e) since where
  nodup := h.nodup.of_cons
  once := fun e he => h.once e (List.mem_cons_of_mem j he)
  behind := fun e he i hi hs =>
    h.behind e (List.mem_cons_of_mem j he) i hi (hs.trans (List.sublist_cons_self j q))
  free := fun e he i hi hheld => by
    rcases hheld with rfl | hheld
    · refine h.behind e (List.mem_cons_of_mem i he) i hi ?_
      exact (List.singleton_sublist.mpr he).cons_cons i
    · exact h.free e (List.mem_cons_of_mem j he) i hi hheld

/-- A worker serves the entry that it holds, and lets it go. -/
theorem serve (h : Fair q held since) (hj : held j) (hjq : j ∉ q)
    (hheld : ∀ e, held' e → held e ∧ e ≠ j) : Fair q held' (fun e => since e ++ [j]) where
  nodup := h.nodup
  once := fun e he => by
    rw [List.nodup_append]
    refine ⟨h.once e he, List.nodup_singleton j, fun x hx y hy => ?_⟩
    rintro rfl
    exact h.free e he x hx (List.mem_singleton.mp hy ▸ hj)
  behind := fun e he i hi hs => by
    rcases List.mem_append.mp hi with hi | hi
    · exact h.behind e he i hi hs
    · obtain rfl := List.mem_singleton.mp hi
      exact hjq (hs.mem (by simp))
  free := fun e he i hi hh => by
    rcases List.mem_append.mp hi with hi | hi
    · exact h.free e he i hi (hheld i hh).1
    · exact (hheld i hh).2 (List.mem_singleton.mp hi)

end Fair

end VosStack.Queue
