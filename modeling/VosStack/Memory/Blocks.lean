import Mathlib.Data.List.Basic

/-!
# Blocks of bytes

The memory of a C program as separate **blocks**: the objects of the program, each with a size and
with bytes that may be indeterminate. Two blocks never overlap; two pointers into one block are the
same memory.

An access that C leaves undefined is noted as a **fault** and the program goes on: a byte written
beyond the end of a block is lost, a byte read there or read before it was written has no value.
A run without faults is one that C defines.

* `use`, `store`, `fill` and `copy` read a value, write one, set and move a range of bytes;
* `clean_use_iff`, `clean_store_iff`, `clean_copy_iff` say when they go without a fault;
* `cell_store`, `cell_fill`, `cell_copy` say what they leave.
-/

namespace VosStack.Memory

/-- A byte, or `none` while it is indeterminate. -/
abbrev Cell := Option (BitVec 8)

/-- An access that C leaves undefined. -/
inductive Fault (ι : Type*)
  /-- beyond the end of the block -/
  | outside (b : ι)
  /-- the value of an indeterminate byte of the block -/
  | indeterminate (b : ι)
  /-- through a null pointer -/
  | null
  deriving DecidableEq, Repr

/-- The blocks of a program, and the faults so far. -/
structure Heap (ι : Type*) where
  size : ι → ℕ
  cell : ι → ℕ → Cell
  faults : List (Fault ι)

namespace Heap

variable {ι : Type*} (h : Heap ι)

/-- No fault so far. -/
def Clean : Prop := h.faults = []

instance [DecidableEq ι] : Decidable h.Clean := inferInstanceAs (Decidable (_ = _))

/-- Note faults. -/
def note (fs : List (Fault ι)) : Heap ι := { h with faults := h.faults ++ fs }

/-- The faults of an access to `n` bytes. -/
def bounds (b : ι) (off n : ℕ) : List (Fault ι) :=
  if 0 < n ∧ h.size b < off + n then [.outside b] else []

/-- The value of a byte. -/
def byte (b : ι) (off : ℕ) : BitVec 8 := (h.cell b off).getD 0

/-- Use the value of a byte. -/
def use (b : ι) (off : ℕ) : Heap ι :=
  (h.note (h.bounds b off 1)).note (if h.cell b off = none then [.indeterminate b] else [])

variable [DecidableEq ι]

/-- Write a byte. -/
def store (b : ι) (off : ℕ) (v : BitVec 8) : Heap ι :=
  { h.note (h.bounds b off 1) with
    cell := fun b' i => if b' = b ∧ i = off then some v else h.cell b' i }

/-- Set the first `n` bytes of a block. -/
def fill (b : ι) (n : ℕ) (v : BitVec 8) : Heap ι :=
  { h.note (h.bounds b 0 n) with
    cell := fun b' i => if b' = b ∧ i < n then some v else h.cell b' i }

/-- Move `n` bytes. The two ranges may overlap, and bytes without a value are moved like others. -/
def copy (dst : ι) (doff : ℕ) (src : ι) (soff n : ℕ) : Heap ι :=
  { (h.note (h.bounds src soff n)).note (h.bounds dst doff n) with
    cell := fun b i =>
      if b = dst ∧ doff ≤ i ∧ i < doff + n then h.cell src (soff + (i - doff)) else h.cell b i }

variable {h} {b b' src dst : ι} {off soff doff n i : ℕ} {v : BitVec 8}

/-! ### Faults -/

omit [DecidableEq ι] in
theorem clean_note_iff {fs : List (Fault ι)} : (h.note fs).Clean ↔ h.Clean ∧ fs = [] :=
  List.append_eq_nil_iff

omit [DecidableEq ι] in
theorem bounds_eq_nil_iff : h.bounds b off n = [] ↔ (0 < n → off + n ≤ h.size b) := by
  rw [bounds]
  split_ifs with hlt
  · exact iff_of_false nofun fun hle => absurd (hle hlt.1) (Nat.not_le_of_lt hlt.2)
  · exact iff_of_true rfl fun hpos => Nat.le_of_not_lt fun hout => hlt ⟨hpos, hout⟩

omit [DecidableEq ι] in
theorem clean_use_iff :
    (h.use b off).Clean ↔ h.Clean ∧ off < h.size b ∧ h.cell b off ≠ none := by
  rw [use, clean_note_iff, clean_note_iff, bounds_eq_nil_iff, and_assoc]
  refine and_congr_right fun _ => and_congr ⟨fun hle => hle Nat.one_pos, fun hlt _ => hlt⟩ ?_
  split_ifs with hnone <;> simp [hnone]

theorem clean_store_iff : (h.store b off v).Clean ↔ h.Clean ∧ off < h.size b := by
  refine clean_note_iff.trans (and_congr_right fun _ => ?_)
  rw [bounds_eq_nil_iff]
  exact ⟨fun hle => hle Nat.one_pos, fun hlt _ => hlt⟩

theorem clean_fill_iff : (h.fill b n v).Clean ↔ h.Clean ∧ n ≤ h.size b := by
  refine clean_note_iff.trans (and_congr_right fun _ => ?_)
  rw [bounds_eq_nil_iff]
  omega

theorem clean_copy_iff : (h.copy dst doff src soff n).Clean ↔
    h.Clean ∧ (0 < n → soff + n ≤ h.size src) ∧ (0 < n → doff + n ≤ h.size dst) := by
  refine clean_note_iff.trans ?_
  rw [clean_note_iff, and_assoc]
  exact and_congr_right fun _ => and_congr bounds_eq_nil_iff bounds_eq_nil_iff

/-- A copy of no bytes needs no room. -/
theorem clean_copy_zero_iff : (h.copy dst doff src soff 0).Clean ↔ h.Clean := by
  have hroom : ∀ p : Prop, 0 < 0 → p := fun _ h0 => absurd h0 (Nat.lt_irrefl 0)
  rw [clean_copy_iff]
  exact and_iff_left ⟨hroom _, hroom _⟩

/-! ### Sizes and bytes -/

omit [DecidableEq ι] in
@[simp] theorem size_use : (h.use b off).size = h.size := rfl

@[simp] theorem size_store : (h.store b off v).size = h.size := rfl

omit [DecidableEq ι] in
@[simp] theorem cell_use : (h.use b off).cell = h.cell := rfl

theorem cell_store :
    (h.store b off v).cell b' i = if b' = b ∧ i = off then some v else h.cell b' i := rfl

theorem cell_copy : (h.copy dst doff src soff n).cell b i =
    if b = dst ∧ doff ≤ i ∧ i < doff + n then h.cell src (soff + (i - doff)) else h.cell b i := rfl

/-- A copy of the first bytes of a block to the front of a block. -/
theorem cell_copy_front : (h.copy dst 0 src 0 n).cell dst i =
    if i < n then h.cell src i else h.cell dst i := by
  rw [cell_copy, Nat.zero_add, Nat.sub_zero, Nat.zero_add]
  exact if_congr (by simp) rfl rfl

/-- A copy leaves the other blocks alone. -/
theorem cell_copy_of_ne (hne : b ≠ dst) : (h.copy dst doff src soff n).cell b i = h.cell b i :=
  if_neg fun hb => hne hb.1

omit [DecidableEq ι] in
theorem byte_of_cell (hv : h.cell b off = some v) : h.byte b off = v := by
  rw [byte, hv]
  rfl

end Heap

end VosStack.Memory
