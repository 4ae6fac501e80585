import Mathlib.Data.List.Nodup

/-!
# A cursor in a linked list

A loop walks along a linked list by a pointer to the element that comes next. Meanwhile
elements are put at the head of the list and taken out anywhere. `rest l cur` is what the loop
has still to visit when its pointer is `cur`; `none` is the end of the list. The lemmas say
what becomes of it when the pointer moves (`rest_next`), when it is at the head (`rest_cons_self`)
and when an element is unlinked (`rest_erase`): a pointer to the unlinked element has to move on,
any other one stays.
-/

namespace VosStack.Queue

variable {α : Type*} [DecidableEq α]

/-- The part of `l` that starts with `x`. -/
def startingAt (x : α) : List α → List α
  | [] => []
  | y :: l => if y = x then y :: l else startingAt x l

/-- The element after `x` in `l`. -/
def next (l : List α) (x : α) : Option α := (startingAt x l).tail.head?

/-- What a loop with the pointer `cur` has still to visit. -/
def rest (l : List α) : Option α → List α
  | none => []
  | some x => startingAt x l

variable {l : List α} {x y : α} {cur : Option α}

theorem startingAt_suffix (x : α) (l : List α) : startingAt x l <:+ l := by
  induction l with
  | nil => exact List.suffix_refl []
  | cons y l ih =>
    rw [startingAt]
    split
    · exact List.suffix_refl _
    · exact ih.trans (List.suffix_cons y l)

theorem startingAt_cons_self (x : α) (l : List α) : startingAt x (x :: l) = x :: l :=
  if_pos rfl

theorem startingAt_cons_of_ne (h : y ≠ x) : startingAt x (y :: l) = startingAt x l :=
  if_neg h

/-- What starts at an element of the list has that element at its head. -/
theorem startingAt_eq_cons (h : x ∈ l) : startingAt x l = x :: (startingAt x l).tail := by
  induction l with
  | nil => exact absurd h List.not_mem_nil
  | cons y l ih =>
    by_cases hy : y = x
    · rw [hy, startingAt_cons_self, List.tail_cons]
    · rw [startingAt_cons_of_ne hy]
      exact ih ((List.mem_cons.mp h).resolve_left (Ne.symm hy))

/-- In a list without repetition a suffix starts at its own head. -/
theorem startingAt_of_suffix {m : List α} (hl : l.Nodup) (h : y :: m <:+ l) :
    startingAt y l = y :: m := by
  induction l with
  | nil => exact absurd (List.suffix_nil.mp h) (List.cons_ne_nil y m)
  | cons z l ih =>
    rcases List.suffix_cons_iff.mp h with heq | hsuf
    · rw [← heq, startingAt_cons_self]
    · have hy : y ∈ l := hsuf.mem List.mem_cons_self
      have hz : z ≠ y := fun heq => (List.nodup_cons.mp hl).1 (heq ▸ hy)
      rw [startingAt_cons_of_ne hz]
      exact ih (List.nodup_cons.mp hl).2 hsuf

theorem rest_suffix (l : List α) (cur : Option α) : rest l cur <:+ l := by
  cases cur with
  | none => exact List.nil_suffix
  | some x => exact startingAt_suffix x l

/-- The pointer to the first element has everything ahead. -/
theorem rest_head? (l : List α) : rest l l.head? = l := by
  cases l with
  | nil => rfl
  | cons x l => exact startingAt_cons_self x l

theorem mem_of_next (h : next l x = some y) : y ∈ l := by
  have hy : y ∈ (startingAt x l).tail := List.mem_of_head? h
  exact (startingAt_suffix x l).mem (List.mem_of_mem_tail hy)

/-- Moving on leaves one element behind. -/
theorem rest_next (hl : l.Nodup) (x : α) : rest l (next l x) = (startingAt x l).tail := by
  rcases htail : (startingAt x l).tail with _ | ⟨y, m⟩
  · simp only [next, htail, List.head?_nil, rest]
  · have hsuf : y :: m <:+ l := by
      rw [← htail]
      exact (List.tail_suffix _).trans (startingAt_suffix x l)
    simp only [next, htail, List.head?_cons, rest]
    exact startingAt_of_suffix hl hsuf

/-- What comes after an element is another one. -/
theorem not_mem_tail_startingAt (hl : l.Nodup) (hx : x ∈ l) : x ∉ (startingAt x l).tail := by
  have hnd : (x :: (startingAt x l).tail).Nodup := by
    rw [← startingAt_eq_cons hx]
    exact hl.sublist (startingAt_suffix x l).sublist
  exact (List.nodup_cons.mp hnd).1

theorem ne_of_next (hl : l.Nodup) (hx : x ∈ l) (h : next l x = some y) : y ≠ x := by
  have hy : y ∈ (startingAt x l).tail := List.mem_of_head? h
  exact fun heq => not_mem_tail_startingAt hl hx (heq ▸ hy)

theorem mem_rest_next (hl : l.Nodup) (hx : x ∈ l) (h : y ∈ rest l (some x)) (hne : y ≠ x) :
    y ∈ rest l (next l x) := by
  have hcons : y ∈ x :: (startingAt x l).tail := startingAt_eq_cons hx ▸ h
  rw [rest_next hl]
  exact (List.mem_cons.mp hcons).resolve_left hne

theorem rest_cons_self (x : α) (l : List α) : rest (x :: l) (some x) = x :: l :=
  startingAt_cons_self x l

theorem startingAt_erase (hl : l.Nodup) (h : y ≠ x) :
    startingAt y (l.erase x) = (startingAt y l).erase x := by
  induction l with
  | nil => rfl
  | cons z l ih =>
    obtain ⟨hz, hl⟩ := List.nodup_cons.mp hl
    by_cases hzx : z = x
    · have hx : x ∉ startingAt y l := fun hmem => hz (hzx ▸ (startingAt_suffix y l).mem hmem)
      rw [hzx, List.erase_cons_head, startingAt_cons_of_ne (Ne.symm h), List.erase_of_not_mem hx]
    · rw [List.erase_cons_tail (by simpa using hzx)]
      by_cases hzy : z = y
      · rw [hzy, startingAt_cons_self, startingAt_cons_self,
          List.erase_cons_tail (by simpa using h)]
      · rw [startingAt_cons_of_ne hzy, startingAt_cons_of_ne hzy, ih hl]

/-- Where the pointer `cur` has to be once `x` is unlinked from `l`. -/
def unlink (l : List α) (x : α) (cur : Option α) : Option α :=
  if cur = some x then next l x else cur

theorem unlink_self (l : List α) (x : α) : unlink l x (some x) = next l x := if_pos rfl

/-- **Unlinking.** The loop visits what it would have visited, less the unlinked element. -/
theorem rest_erase (hl : l.Nodup) (hx : x ∈ l) (cur : Option α) :
    rest (l.erase x) (unlink l x cur) = (rest l cur).erase x := by
  cases cur with
  | none => rfl
  | some y =>
    by_cases hy : y = x
    · have htail : (startingAt x l).erase x = (startingAt x l).tail := by
        rw [startingAt_eq_cons hx, List.erase_cons_head, List.tail_cons]
      rw [hy, unlink_self, rest, htail, ← rest_next hl]
      rcases hnext : next l x with _ | z
      · rfl
      · have hzx : z ≠ x := ne_of_next hl hx hnext
        have hxz : x ∉ startingAt z l := by
          have hrest := rest_next hl x
          rw [hnext, rest] at hrest
          rw [hrest]
          exact not_mem_tail_startingAt hl hx
        rw [rest, rest, startingAt_erase hl hzx, List.erase_of_not_mem hxz]
    · rw [unlink, if_neg fun h => hy (Option.some.inj h)]
      exact startingAt_erase hl hy

theorem mem_rest_erase (hl : l.Nodup) (hx : x ∈ l) (h : y ∈ rest l cur) (hne : y ≠ x) :
    y ∈ rest (l.erase x) (unlink l x cur) := by
  rw [rest_erase hl hx]
  exact (List.mem_erase_of_ne hne).mpr h

/-- A pointer into the list still points into it. -/
theorem unlink_mem (hl : l.Nodup) (hx : x ∈ l) (hcur : ∀ z, cur = some z → z ∈ l)
    (h : unlink l x cur = some y) : y ∈ l.erase x := by
  by_cases hc : cur = some x
  · rw [unlink, if_pos hc] at h
    exact (List.mem_erase_of_ne (ne_of_next hl hx h)).mpr (mem_of_next h)
  · rw [unlink, if_neg hc] at h
    have hyx : y ≠ x := fun heq => hc (heq ▸ h)
    exact (List.mem_erase_of_ne hyx).mpr (hcur y h)

end VosStack.Queue
