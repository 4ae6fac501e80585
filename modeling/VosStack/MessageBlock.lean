import Mathlib.Data.List.Infix

/-!
# Chains of message blocks

The data that is sent and received is in chains of `CAWMessageBlock`s. The class belongs to the base
library and is not part of the repository, so its operations are **parameters** here, each with the
assumption that is made of it: `MessageBlock C α` has the operations on chains `C` of elements `α`,
and everything about a chain is said through `data`, its readable elements.

* `GetChainedLength` is their number, and `AdvanceChainedReadPtr` drops elements from the front, as
  many as there are.
* `Append` puts a chain behind another, and `ReclaimGarbage` frees the blocks that are read to
  their end and returns `NULL` when none is left.
* `FillIov` makes a vector of a front of the chain. How much it takes is not assumed.

`blocks` is the chain as a list of blocks, on which concrete runs are evaluated; it also shows that
the assumptions can be met together.
-/

namespace VosStack

/-- The operations of `CAWMessageBlock` on chains, and what is assumed of them. -/
structure MessageBlock (C α : Type*) where
  /-- the readable elements of a chain -/
  data : C → List α
  getChainedLength : C → ℕ
  advanceChainedReadPtr : ℕ → C → C
  append : C → C → C
  reclaimGarbage : C → Option C
  /-- the vector that is made, of at most the given number of entries -/
  fillIov : C → ℕ → List (List α)
  getChainedLength_eq : ∀ c, getChainedLength c = (data c).length
  data_advanceChainedReadPtr : ∀ n c, data (advanceChainedReadPtr n c) = (data c).drop n
  data_append : ∀ c d, data (append c d) = data c ++ data d
  data_reclaimGarbage : ∀ c d, reclaimGarbage c = some d → data d = data c
  reclaimGarbage_eq_none_iff : ∀ c, reclaimGarbage c = none ↔ data c = []
  flatten_fillIov_front : ∀ c max, (fillIov c max).flatten <+: data c

namespace MessageBlock

variable {C α : Type*}

/-! ### Behind a pointer -/

section pointer

variable (B : MessageBlock C α)

/-- The readable elements behind a pointer to a chain. -/
def unread (p : Option C) : List α := p.elim [] B.data

theorem unread_reclaimGarbage (c : C) : B.unread (B.reclaimGarbage c) = B.data c := by
  cases hd : B.reclaimGarbage c with
  | none => exact ((B.reclaimGarbage_eq_none_iff c).mp hd).symm
  | some d => exact B.data_reclaimGarbage c d hd

end pointer

/-! ### Lists of blocks -/

/-- Advancing over a list of blocks. -/
def advance : ℕ → List (List α) → List (List α)
  | _, [] => []
  | n, b :: c => b.drop n :: advance (n - b.length) c

theorem flatten_advance (n : ℕ) (c : List (List α)) :
    (advance n c).flatten = c.flatten.drop n := by
  induction c generalizing n with
  | nil => exact List.drop_nil.symm
  | cons b c ih => rw [advance, List.flatten_cons, List.flatten_cons, ih, List.drop_append]

/-- The blocks with readable elements. -/
def readable (c : List (List α)) : List (List α) := c.filter fun b => !b.isEmpty

theorem flatten_readable (c : List (List α)) : (readable c).flatten = c.flatten :=
  List.flatten_filter_not_isEmpty

theorem readable_eq_nil_iff {c : List (List α)} : readable c = [] ↔ c.flatten = [] := by
  rw [readable, List.filter_eq_nil_iff, List.flatten_eq_nil_iff]
  simp only [Bool.not_eq_true', Bool.not_eq_false, List.isEmpty_iff]

/-- A chain as the list of the readable elements of its blocks. A vector has an entry for each
block that has any, as long as there is room. -/
def blocks : MessageBlock (List (List α)) α where
  data := List.flatten
  getChainedLength c := c.flatten.length
  advanceChainedReadPtr := advance
  append c d := c ++ d
  reclaimGarbage c := if (readable c).isEmpty then none else some (readable c)
  fillIov c max := (readable c).take max
  getChainedLength_eq _ := rfl
  data_advanceChainedReadPtr := flatten_advance
  data_append _ _ := List.flatten_append
  data_reclaimGarbage c d hd := by
    obtain ⟨-, hd⟩ := Option.ite_none_left_eq_some.mp hd
    rw [← Option.some.inj hd, flatten_readable]
  reclaimGarbage_eq_none_iff c := by
    rw [← readable_eq_nil_iff, ← List.isEmpty_iff]
    split_ifs with h
    · exact iff_of_true rfl h
    · exact iff_of_false nofun h
  flatten_fillIov_front c max := by
    rw [← flatten_readable c]
    refine ⟨((readable c).drop max).flatten, ?_⟩
    rw [← List.flatten_append, List.take_append_drop]

end MessageBlock

end VosStack
