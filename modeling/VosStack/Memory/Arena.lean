import Mathlib.Data.Nat.Notation
import Mathlib.Logic.Function.Basic
import Mathlib.Tactic.SplitIfs

/-!
# Blocks that come and go

The memory of a program as its allocator sees it: which addresses have a block, and with what bytes.
A block that is **released** is recorded with what was in it at that moment, since that is what the
memory still holds; the release of an address without a block is recorded as well.

An address that was released may be given out again.
-/

namespace VosStack.Memory

/-- The bytes of a block. -/
abbrev Block := List (BitVec 8)

/-- The blocks at the addresses `ι`. -/
structure Arena (ι : Type*) where
  block : ι → Option Block
  /-- what was in the blocks that were released, in order -/
  released : List Block
  /-- what was released without being allocated -/
  twice : List ι

namespace Arena

variable {ι : Type*}

/-- No block was ever allocated. -/
def empty : Arena ι := ⟨fun _ => none, [], []⟩

variable [DecidableEq ι] (h : Arena ι)

/-- A block gets the address `a`. -/
def alloc (a : ι) (b : Block) : Arena ι := { h with block := Function.update h.block a (some b) }

/-- The bytes at the address `a` are written. -/
def modify (a : ι) (f : Block → Block) : Arena ι :=
  { h with block := Function.update h.block a ((h.block a).map f) }

/-- The block at the address `a` is released. -/
def release (a : ι) : Arena ι :=
  match h.block a with
  | some b => { h with block := Function.update h.block a none, released := h.released ++ [b] }
  | none => { h with twice := h.twice ++ [a] }

variable {h} {a a' : ι} {b : Block} {f : Block → Block}

theorem block_alloc_self : (h.alloc a b).block a = some b := Function.update_self a _ h.block

theorem block_modify_self : (h.modify a f).block a = (h.block a).map f :=
  Function.update_self a _ h.block

theorem isSome_block_alloc :
    ((h.alloc a b).block a').isSome = if a' = a then true else (h.block a').isSome := by
  split_ifs with ha
  · rw [ha, block_alloc_self]
    rfl
  · exact congrArg Option.isSome (Function.update_of_ne ha _ h.block)

theorem isSome_block_modify : ((h.modify a f).block a').isSome = (h.block a').isSome := by
  by_cases ha : a' = a
  · rw [ha, block_modify_self, Option.isSome_map]
  · exact congrArg Option.isSome (Function.update_of_ne ha _ h.block)

theorem release_of_some (hb : h.block a = some b) :
    h.release a =
      { h with block := Function.update h.block a none, released := h.released ++ [b] } := by
  rw [release, hb]

theorem release_of_none (hb : h.block a = none) :
    h.release a = { h with twice := h.twice ++ [a] } := by
  rw [release, hb]

theorem block_release_self : (h.release a).block a = none := by
  cases hb : h.block a with
  | none =>
    rw [release_of_none hb]
    exact hb
  | some b =>
    rw [release_of_some hb]
    exact Function.update_self a _ h.block

theorem isSome_block_release :
    ((h.release a).block a').isSome = if a' = a then false else (h.block a').isSome := by
  split_ifs with ha
  · rw [ha, block_release_self]
    rfl
  · cases hb : h.block a with
    | none => rw [release_of_none hb]
    | some b =>
      rw [release_of_some hb]
      exact congrArg Option.isSome (Function.update_of_ne ha _ h.block)

end Arena

end VosStack.Memory
