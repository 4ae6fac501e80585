import VosStack.Kern.Descriptors
import Mathlib.Data.Nat.Find

/-!
# The lowest free descriptor

`fd_first_free` looks at the rest of the word of `low`, and then at whole words. What it finds is
the lowest free descriptor from `low` on, because the bitmap has no bits behind the table
(`Sound.used_lt`), and because no descriptor below `fd_freefile` is free (`Sound.below`) it is also
the lowest one from `minfd` on. All calls keep these two facts, and the bound on the size of the
table, as long as the limits are bounded.

On a host whose `unsigned long` has 32 bits the search goes wrong once two words of the bitmap are
full: `givenTwice` is a run in which a descriptor that is in use is given out again.
-/

namespace VosStack.Descrip

open Transition Table

/-! ### The lowest bit -/

theorem and_one_eq_zero_iff (x : BitVec 64) : x &&& 1#64 = 0#64 ↔ x.getLsbD 0 = false := by
  have h := and_one_shiftLeft_ne_zero_iff (x := x) (i := 0) (by decide)
  rw [BitVec.shiftLeft_zero] at h
  rw [← not_iff_not, ← ne_eq, h, Bool.not_eq_false]

/-- Before the turn `k` the loop has found no bit. -/
theorem ffsllLoop_spec {mask : BitVec 64} {i : ℕ} (hi : mask.getLsbD i = true)
    (hlow : ∀ j, j < i → mask.getLsbD j = false) {fuel k : ℕ} (hk : k ≤ i) (hfuel : i < k + fuel) :
    ffsllLoop fuel (mask >>> k) (k + 1) = i + 1 := by
  induction fuel generalizing k with
  | zero => omega
  | succ fuel ih =>
    have hbit : (mask >>> k).getLsbD 0 = mask.getLsbD k := by
      rw [BitVec.getLsbD_ushiftRight, Nat.add_zero]
    rw [ffsllLoop]
    by_cases heq : k = i
    · rw [if_neg, heq]
      rw [and_one_eq_zero_iff, hbit, heq, hi]
      exact Bool.false_ne_true.symm
    · rw [if_pos, ← BitVec.shiftRight_add]
      · exact ih (by omega) (by omega)
      · rw [and_one_eq_zero_iff, hbit]
        exact hlow k (by omega)

/-- `ffsll` finds the lowest bit. -/
theorem ffsll_spec {mask : BitVec 64} (h : mask ≠ 0#64) :
    ∃ i, i < 64 ∧ ffsll mask = i + 1 ∧ mask.getLsbD i = true ∧
      ∀ j, j < i → mask.getLsbD j = false := by
  have hex : ∃ i, mask.getLsbD i = true := by
    by_contra hnone
    refine h (BitVec.eq_of_getLsbD_eq fun j _ => ?_)
    rw [BitVec.getLsbD_zero]
    exact Bool.eq_false_iff.mpr fun hj => hnone ⟨j, hj⟩
  have hlow : ∀ j, j < Nat.find hex → mask.getLsbD j = false := fun j hj =>
    Bool.eq_false_iff.mpr (Nat.find_min hex hj)
  have hi : Nat.find hex < 64 := BitVec.lt_of_getLsbD (Nat.find_spec hex)
  refine ⟨Nat.find hex, hi, ?_, Nat.find_spec hex, hlow⟩
  rw [ffsll, if_neg h]
  have hloop := ffsllLoop_spec (Nat.find_spec hex) hlow (Nat.zero_le _)
    (by omega : Nat.find hex < 0 + 64)
  rwa [BitVec.ushiftRight_zero] at hloop

/-! ### The descriptors in use -/

theorem fdisused_eq (fdp : Filedesc) (fd : ℕ) : fdisused fdp fd = bit fdp.fdMap fd := by
  rw [fdisused, Bool.eq_iff_iff, decide_eq_true_eq]
  exact and_one_shiftLeft_ne_zero_iff (Nat.mod_lt fd (by decide))

/-- What holds of the table between two calls. -/
structure Sound (fdp : Filedesc) : Prop where
  length_eq : fdp.fdMap.length = ndslots fdp.fdNfiles
  used_lt : ∀ fd, fdisused fdp fd = true → fd < fdp.fdNfiles
  below : ∀ fd, fd < fdp.fdFreefile → fdisused fdp fd = true
  nfiles_pos : 0 < fdp.fdNfiles
  nfiles_le : fdp.fdNfiles ≤ 2 * maxLimit

theorem sound_fdinit : Sound fdinit where
  length_eq := by decide
  used_lt := by
    intro fd h
    have hnil : bit ([] : List (BitVec 64)) fd = false := bit_of_le (by decide) (by simp)
    have hmap : fdinit.fdMap = [] ++ List.replicate 1 0 := rfl
    rw [fdisused_eq, hmap, bit_append_zeros, hnil] at h
    exact absurd h Bool.false_ne_true
  below := fun fd h => absurd h (Nat.not_lt_zero fd)
  nfiles_pos := by decide
  nfiles_le := by decide

section

variable {fdp : Filedesc}

theorem Sound.slot_lt (h : Sound fdp) {fd : ℕ} (hfd : fd < fdp.fdNfiles) :
    fd / 64 < fdp.fdMap.length := by
  rw [h.length_eq, ndslots, ndentries]
  omega

theorem Sound.fdisused_fdused (h : Sound fdp) {fd : ℕ} (hfd : fd < fdp.fdNfiles) (n : ℕ) :
    fdisused (fdused fdp fd) n = (fdisused fdp n || decide (n = fd)) := by
  rw [fdisused_eq, fdisused_eq]
  exact bit_set (by decide) (h.slot_lt hfd)

theorem Sound.fdisused_fdunused (h : Sound fdp) {fd : ℕ} (hfd : fd < fdp.fdNfiles) (n : ℕ) :
    fdisused (fdunused fdp fd) n = (fdisused fdp n && !decide (n = fd)) := by
  rw [fdisused_eq, fdisused_eq]
  exact bit_clear (by decide) (h.slot_lt hfd)

theorem Sound.fdused (h : Sound fdp) {fd : ℕ} (hfd : fd < fdp.fdNfiles) :
    Sound (fdused fdp fd) where
  length_eq := (List.length_modify _ _ _).trans h.length_eq
  used_lt := by
    intro n hn
    rw [h.fdisused_fdused hfd, Bool.or_eq_true, decide_eq_true_eq] at hn
    rcases hn with hn | rfl
    · exact h.used_lt n hn
    · exact hfd
  below := by
    intro n hn
    rw [h.fdisused_fdused hfd, Bool.or_eq_true, decide_eq_true_eq]
    have hn : n < if fd = fdp.fdFreefile then fdp.fdFreefile + 1 else fdp.fdFreefile := hn
    by_cases heq : n = fd
    · exact .inr heq
    · refine .inl (h.below n ?_)
      split_ifs at hn <;> omega
  nfiles_pos := h.nfiles_pos
  nfiles_le := h.nfiles_le

theorem Sound.fdunused (h : Sound fdp) {fd : ℕ} (hfd : fd < fdp.fdNfiles) :
    Sound (fdunused fdp fd) where
  length_eq := (List.length_modify _ _ _).trans h.length_eq
  used_lt := by
    intro n hn
    rw [h.fdisused_fdunused hfd, Bool.and_eq_true] at hn
    exact h.used_lt n hn.1
  below := by
    intro n hn
    have hn : n < if fd < fdp.fdFreefile then fd else fdp.fdFreefile := hn
    have hlt : n < fdp.fdFreefile ∧ n ≠ fd := by
      split_ifs at hn <;> omega
    rw [h.fdisused_fdunused hfd, h.below n hlt.1, decide_eq_false hlt.2]
    rfl
  nfiles_pos := h.nfiles_pos
  nfiles_le := h.nfiles_le

/-- The table grows: no descriptor is taken or given back. -/
theorem Sound.fdisused_fdgrowtable (h : Sound fdp) (nfd n : ℕ) :
    fdisused (fdgrowtable fdp nfd) n = fdisused fdp n := by
  rw [fdisused_eq, fdisused_eq, Descrip.fdgrowtable]
  split_ifs
  · rfl
  · rw [List.take_of_length_le (Nat.le_of_eq h.length_eq)]
    exact bit_append_zeros
  · rfl

theorem fdNfiles_fdgrowtable (fdp : Filedesc) (nfd : ℕ) :
    fdp.fdNfiles ≤ (fdgrowtable fdp nfd).fdNfiles ∧ nfd ≤ (fdgrowtable fdp nfd).fdNfiles := by
  have hround : nfd ≤ ndslots nfd * ndentries := by
    rw [ndslots, ndentries]
    omega
  rw [fdgrowtable]
  split_ifs with hle hslots
  · exact ⟨Nat.le_refl _, Nat.le_trans hround hle⟩
  · exact ⟨Nat.le_of_lt (Nat.not_le.mp hle), hround⟩
  · exact ⟨Nat.le_of_lt (Nat.not_le.mp hle), hround⟩

/-- The size is rounded up to whole words, and stays below the bound. -/
theorem fdNfiles_fdgrowtable_le {nfd : ℕ} (h : fdp.fdNfiles ≤ 2 * maxLimit)
    (hnfd : nfd ≤ 2 * maxLimit) : (fdgrowtable fdp nfd).fdNfiles ≤ 2 * maxLimit := by
  have hround : ndslots nfd * ndentries ≤ 2 * maxLimit := by
    rw [maxLimit] at hnfd ⊢
    rw [ndslots, ndentries]
    omega
  rw [fdgrowtable]
  split_ifs
  · exact h
  · exact hround
  · exact hround

theorem fdFreefile_fdgrowtable (fdp : Filedesc) (nfd : ℕ) :
    (fdgrowtable fdp nfd).fdFreefile = fdp.fdFreefile := by
  rw [fdgrowtable]
  split_ifs <;> rfl

theorem Sound.length_fdgrowtable (h : Sound fdp) (nfd : ℕ) :
    (fdgrowtable fdp nfd).fdMap.length = ndslots (fdgrowtable fdp nfd).fdNfiles := by
  have hlen := h.length_eq
  rw [Descrip.fdgrowtable]
  split_ifs with hle hslots
  · exact hlen
  · rw [List.length_append, List.length_take, List.length_replicate]
    change _ = ndslots (ndslots nfd * ndentries)
    omega
  · change _ = ndslots (ndslots nfd * ndentries)
    have hmono : ndslots fdp.fdNfiles ≤ ndslots (ndslots nfd * ndentries) :=
      Nat.div_le_div_right (by omega)
    exact hlen.trans (by omega)

theorem Sound.fdgrowtable (h : Sound fdp) {nfd : ℕ} (hnfd : nfd ≤ 2 * maxLimit) :
    Sound (fdgrowtable fdp nfd) := by
  have hsize := (fdNfiles_fdgrowtable fdp nfd).1
  refine ⟨h.length_fdgrowtable nfd, fun n hn => ?_, fun n hn => ?_, ?_,
    fdNfiles_fdgrowtable_le h.nfiles_le hnfd⟩
  · rw [h.fdisused_fdgrowtable] at hn
    exact Nat.lt_of_lt_of_le (h.used_lt n hn) hsize
  · rw [fdFreefile_fdgrowtable] at hn
    rw [h.fdisused_fdgrowtable]
    exact h.below n hn
  · exact Nat.lt_of_lt_of_le h.nfiles_pos hsize

/-- The table has room for the descriptor. -/
theorem le_fdgrowtableExp (fdp : Filedesc) (nfd : ℕ) :
    nfd ≤ (fdgrowtableExp fdp nfd).fdNfiles := by
  rw [fdgrowtableExp]
  split_ifs with hlt
  · exact (fdNfiles_fdgrowtable fdp nfd).2
  · exact Nat.le_trans (Nat.not_lt.mp hlt) (fdNfiles_fdgrowtable fdp _).2

end

/-! ### The search -/

/-- All descriptors from `a` up to `b` are in use. -/
def Full (fdp : Filedesc) (a b : ℕ) : Prop := ∀ n, a ≤ n → n < b → fdisused fdp n = true

section

variable {fdp : Filedesc} {a b c off : ℕ}

theorem Full.trans (h : Full fdp a b) (h' : Full fdp b c) : Full fdp a c := fun n hn hc =>
  if hb : n < b then h n hn hb else h' n (Nat.not_lt.mp hb) hc

/-- A free descriptor is not among those that are in use. -/
theorem Full.le {n : ℕ} (h : Full fdp a b) (hn : a ≤ n) (hfree : fdisused fdp n = false) :
    b ≤ n := by
  by_contra hlt
  have hused := h n hn (Nat.not_le.mp hlt)
  rw [hfree] at hused
  exact Bool.false_ne_true hused

/-- What was searched before is full. -/
theorem Full.isLeast (h : Full fdp a b) (hle : a ≤ b)
    (hleast : IsLeast {n | b ≤ n ∧ fdisused fdp n = false} c) :
    IsLeast {n | a ≤ n ∧ fdisused fdp n = false} c :=
  ⟨⟨Nat.le_trans hle hleast.1.1, hleast.1.2⟩, fun _ hn => hleast.2 ⟨h.le hn.1 hn.2, hn.2⟩⟩

/-- The search is over at a free descriptor. -/
theorem isLeast_of_full (hle : a ≤ b) (hfull : Full fdp a b) (hfree : fdisused fdp b = false) :
    IsLeast {n | a ≤ n ∧ fdisused fdp n = false} b :=
  hfull.isLeast hle ⟨⟨Nat.le_refl b, hfree⟩, fun _ hn => hn.1⟩

theorem fdisused_slot {i : ℕ} (hi : i < 64) :
    fdisused fdp (off * 64 + i) = (fdp.fdMap.getD off 0#64).getLsbD i := by
  rw [fdisused_eq]
  exact bit_mul_add hi

/-- A look at the bits of a word that `mask` selects: the lowest of them that is free. -/
theorem found_in_slot {mask : BitVec 64} (hmask : mask ≠ 0#64) {k : ℕ}
    (hbits : ∀ i, i < 64 →
      mask.getLsbD i = (decide (k ≤ i) && !(fdp.fdMap.getD off 0#64).getLsbD i)) :
    IsLeast {n | off * 64 + k ≤ n ∧ fdisused fdp n = false} (off * 64 + ffsll mask - 1) := by
  obtain ⟨i, hi, hffs, hbit, hlow⟩ := ffsll_spec hmask
  have hend : off * 64 + ffsll mask - 1 = off * 64 + i := by omega
  rw [hbits i hi, Bool.and_eq_true, decide_eq_true_eq, Bool.not_eq_true'] at hbit
  rw [hend]
  refine isLeast_of_full (by omega) (fun n hn hlt => ?_) ((fdisused_slot hi).trans hbit.2)
  obtain ⟨j, rfl⟩ : ∃ j, n = off * 64 + j := ⟨n - off * 64, by omega⟩
  have hj := hlow j (by omega)
  rw [hbits j (by omega), decide_eq_true (by omega : k ≤ j), Bool.true_and,
    Bool.not_eq_false'] at hj
  rw [fdisused_slot (by omega), hj]

/-- No bit that the mask selects is free. -/
theorem full_of_mask_eq_zero {mask : BitVec 64} (hmask : mask = 0#64) {k : ℕ}
    (hbits : ∀ i, i < 64 →
      mask.getLsbD i = (decide (k ≤ i) && !(fdp.fdMap.getD off 0#64).getLsbD i)) :
    Full fdp (off * 64 + k) ((off + 1) * 64) := by
  intro n hn hlt
  obtain ⟨j, rfl⟩ : ∃ j, n = off * 64 + j := ⟨n - off * 64, by omega⟩
  have hj := hbits j (by omega)
  rw [hmask, BitVec.getLsbD_zero, decide_eq_true (by omega : k ≤ j), Bool.true_and] at hj
  rw [fdisused_slot (by omega)]
  simpa using hj

theorem getLsbD_not_slot (slot : BitVec 64) (i : ℕ) (hi : i < 64) :
    (~~~slot).getLsbD i = (decide (0 ≤ i) && !slot.getLsbD i) := by
  rw [BitVec.getLsbD_not, decide_eq_true hi, decide_eq_true (Nat.zero_le i)]

/-- The loop over whole words, with all descriptors before them in use. -/
theorem slotLoop_isLeast (h : Sound fdp) (ha : a < fdp.fdNfiles) (hoff : a ≤ off * 64)
    (hfull : Full fdp a (off * 64)) :
    IsLeast {n | a ≤ n ∧ fdisused fdp n = false}
      (slotLoop .lp64 fdp.fdNfiles off (fdp.fdMap.drop off)) := by
  have hlen : fdp.fdNfiles ≤ fdp.fdMap.length * 64 := by
    rw [h.length_eq, ndslots, ndentries]
    omega
  induction hn : fdp.fdMap.length - off generalizing off with
  | zero =>
    -- the last descriptor of the table is in use, and none is behind it
    have hlast := h.used_lt (off * 64 - 1) (hfull _ (by omega) (by omega))
    have hend : off * 64 = fdp.fdNfiles := by omega
    rw [List.drop_eq_nil_of_le (by omega), slotLoop, ← hend]
    refine isLeast_of_full hoff hfull (Bool.eq_false_iff.mpr fun hused => ?_)
    have := h.used_lt _ hused
    omega
  | succ k ih =>
    have hlt : off < fdp.fdMap.length := by omega
    have hslot : fdp.fdMap.getD off 0#64 = fdp.fdMap[off] := by simp [List.getD, hlt]
    rw [List.drop_eq_getElem_cons hlt, slotLoop, ndentries, ← hslot]
    have hbits := getLsbD_not_slot (fdp.fdMap.getD off 0#64)
    have hzeros : 0#64 = ~~~Host.lp64.notZeroUL := by decide
    split_ifs with hones
    · have hmask : ~~~(fdp.fdMap.getD off 0#64) ≠ 0#64 := fun hzero =>
        hones (BitVec.not_inj.mp (hzero.trans hzeros))
      have hfound := found_in_slot (k := 0) hmask hbits
      rw [Nat.add_zero] at hfound
      exact hfull.isLeast hoff hfound
    · have hmask : ~~~(fdp.fdMap.getD off 0#64) = 0#64 := by
        rw [not_not.mp hones, hzeros]
      have hslotFull := full_of_mask_eq_zero (k := 0) hmask hbits
      rw [Nat.add_zero] at hslotFull
      exact ih (by omega) (hfull.trans hslotFull) (by omega)

theorem getLsbD_mask {r i : ℕ} (hr : r < 64) (hi : i < 64) :
    (~~~(~~~(0#64) >>> (64 - r))).getLsbD i = decide (r ≤ i) := by
  rw [BitVec.getLsbD_not, BitVec.getLsbD_ushiftRight, BitVec.getLsbD_not, BitVec.getLsbD_zero,
    decide_eq_true hi, Bool.true_and, Bool.not_false, Bool.and_true, ← decide_not]
  exact decide_eq_decide.mpr (by omega)

/-- **`fd_first_free` finds the lowest free descriptor.** -/
theorem fdFirstFree_isLeast (h : Sound fdp) (low : ℕ) :
    IsLeast {n | low ≤ n ∧ fdisused fdp n = false}
      (fdFirstFree .lp64 fdp low fdp.fdNfiles) := by
  have hall : fdp.fdMap.take (ndslots fdp.fdNfiles) = fdp.fdMap :=
    List.take_of_length_le (Nat.le_of_eq h.length_eq)
  have hlow : low / 64 * 64 + low % 64 = low := Nat.div_add_mod' low 64
  have hbits : ∀ i, i < 64 →
      (~~~(~~~(0#64) >>> (64 - low % 64)) &&& ~~~(fdp.fdMap.getD (low / 64) 0#64)).getLsbD i =
        (decide (low % 64 ≤ i) && !(fdp.fdMap.getD (low / 64) 0#64).getLsbD i) := by
    intro i hi
    rw [BitVec.getLsbD_and, getLsbD_mask (Nat.mod_lt low (by decide)) hi, BitVec.getLsbD_not,
      decide_eq_true hi, Bool.true_and]
  simp only [fdFirstFree, hall, ndslot, ndentries]
  split_ifs with hle hmod hmask
  · refine isLeast_of_full (Nat.le_refl low) (fun n hn hlt => absurd hlt (by omega)) ?_
    refine Bool.eq_false_iff.mpr fun hused => ?_
    have := h.used_lt low hused
    omega
  · have hfound := found_in_slot hmask hbits
    rwa [hlow] at hfound
  · have hslotFull := full_of_mask_eq_zero (not_not.mp hmask) hbits
    rw [hlow] at hslotFull
    exact slotLoop_isLeast h (by omega) (by omega) hslotFull
  · have heq : low / 64 * 64 = low := by omega
    refine slotLoop_isLeast h (by omega) (Nat.le_of_eq heq.symm) ?_
    rw [heq]
    exact fun n hn hlt => absurd hlt (by omega)

end

/-! ### The calls -/

section

variable {fdp fdp' : Filedesc} {maxfd minfd fd nfd : ℕ}

/-- A table with room for the descriptor, as `fdalloc` and `kern_dup` make it. It is doubled only
while it is below the limit. -/
theorem Sound.room (h : Sound fdp) (hfd : fdp.fdNfiles ≤ fd → fd < nfd) (hnfd : nfd ≤ maxLimit)
    {fdp' : Filedesc}
    (hfdp' : fdp' = if fdp.fdNfiles ≤ fd then fdgrowtableExp fdp nfd else fdp) :
    Sound fdp' ∧ fd < fdp'.fdNfiles ∧ ∀ n, fdisused fdp' n = fdisused fdp n := by
  split_ifs at hfdp' with hfull
  · have hfd := hfd hfull
    have hsize : (if fdp.fdNfiles * 2 < nfd then nfd else fdp.fdNfiles * 2) ≤ 2 * maxLimit := by
      split_ifs <;> omega
    rw [hfdp']
    exact ⟨h.fdgrowtable hsize, Nat.lt_of_lt_of_le hfd (le_fdgrowtableExp fdp nfd),
      h.fdisused_fdgrowtable _⟩
  · rw [hfdp']
    exact ⟨h, Nat.not_le.mp hfull, fun _ => rfl⟩

/-- The search from `fd_freefile` on finds what a search from `minfd` on would. -/
theorem Sound.isLeast (h : Sound fdp) (minfd : ℕ) :
    IsLeast {n | minfd ≤ n ∧ fdisused fdp n = false}
      (fdFirstFree .lp64 fdp (if minfd < fdp.fdFreefile then fdp.fdFreefile else minfd)
        fdp.fdNfiles) := by
  split_ifs with hlt
  · have hfull : Full fdp minfd fdp.fdFreefile := fun n _ hn => h.below n hn
    exact hfull.isLeast (Nat.le_of_lt hlt) (fdFirstFree_isLeast h _)
  · exact fdFirstFree_isLeast h minfd

/-- What `fdalloc` does. -/
theorem Sound.fdalloc (h : Sound fdp) (hlimit : maxfd ≤ maxLimit)
    (ha : fdalloc .lp64 fdp maxfd minfd = some (fd, fdp')) :
    IsLeast {n | minfd ≤ n ∧ fdisused fdp n = false} fd ∧ fd < maxfd ∧ fd < fdp'.fdNfiles ∧
      Sound fdp' ∧ ∀ n, fdisused fdp' n = (fdisused fdp n || decide (n = fd)) := by
  have hleast := h.isLeast minfd
  simp only [Descrip.fdalloc] at ha
  generalize fdFirstFree .lp64 fdp _ fdp.fdNfiles = found at ha hleast
  by_cases hmax : maxfd ≤ found
  · rw [if_pos hmax] at ha
    exact absurd ha (Option.some_ne_none _).symm
  · rw [if_neg hmax] at ha
    obtain ⟨rfl, rfl⟩ := Prod.mk.inj (Option.some.inj ha)
    have hnfd : fdp.fdNfiles ≤ found → found < min (found * 2) maxfd := by
      have hpos := h.nfiles_pos
      omega
    obtain ⟨hsound, hlt, hused⟩ := h.room hnfd (by omega) rfl
    refine ⟨hleast, Nat.not_le.mp hmax, hlt, hsound.fdused hlt, fun n => ?_⟩
    rw [hsound.fdisused_fdused hlt, hused]

theorem Sound.fdalloc_eq_none_iff (h : Sound fdp) :
    Descrip.fdalloc .lp64 fdp maxfd minfd = none ↔
      ∀ n, minfd ≤ n → n < maxfd → fdisused fdp n = true := by
  have hleast := h.isLeast minfd
  simp only [Descrip.fdalloc]
  generalize fdFirstFree .lp64 fdp _ fdp.fdNfiles = found at hleast ⊢
  by_cases hmax : maxfd ≤ found
  · rw [if_pos hmax]
    refine iff_of_true rfl fun n hn hlt => ?_
    by_contra hfree
    have hle := hleast.2 ⟨hn, Bool.eq_false_iff.mpr hfree⟩
    omega
  · rw [if_neg hmax]
    refine iff_of_false (Option.some_ne_none _) fun hall => ?_
    exact hmax (Full.le hall hleast.1.1 hleast.1.2)

theorem Sound.dupFixed (h : Sound fdp) (hlimit : maxfd ≤ maxLimit)
    (hd : dupFixed fdp maxfd fd = some fdp') : Sound fdp' := by
  simp only [Descrip.dupFixed] at hd
  by_cases hmax : maxfd ≤ fd
  · rw [if_pos hmax] at hd
    exact absurd hd (Option.some_ne_none _).symm
  · obtain ⟨grown, hgrown⟩ :
        ∃ grown, grown = if fdp.fdNfiles ≤ fd then fdgrowtableExp fdp (fd + 1) else fdp := ⟨_, rfl⟩
    obtain ⟨hsound, hlt, -⟩ := h.room (fun _ => Nat.lt_succ_self fd) (by omega) hgrown
    rw [if_neg hmax, ← hgrown] at hd
    rw [← Option.some.inj hd]
    split_ifs
    · exact hsound
    · exact hsound.fdused hlt

theorem Sound.step {a : Action} (h : Sound fdp) (hlimit : Limited fdp a)
    (hs : step .lp64 fdp a = some fdp') : Sound fdp' := by
  cases a with
  | alloc maxfd minfd =>
    obtain ⟨⟨fd, fdp₁⟩, ha, rfl⟩ := Option.map_eq_some_iff.mp hs
    exact (h.fdalloc hlimit ha).2.2.2.1
  | dup maxfd new => exact h.dupFixed hlimit hs
  | close fd =>
    rw [Descrip.step] at hs
    split_ifs at hs with hopen
    rw [← Option.some.inj hs]
    exact h.fdunused hopen.1

/-- Between two calls the table is sound. -/
theorem sound_of_reach (h : Reach (step .lp64) Limited fdinit fdp) : Sound fdp :=
  Reach.induct h sound_fdinit fun _ _ _ hsound hlimit hs => hsound.step hlimit hs

theorem Sound.allocOk (h : Sound fdp) : AllocOk .lp64 fdp where
  lowest := fun _ _ _ _ hlimit ha =>
    ⟨(h.fdalloc hlimit ha).1, (h.fdalloc hlimit ha).2.1, (h.fdalloc hlimit ha).2.2.1⟩
  taken := fun _ _ _ _ hlimit ha => (h.fdalloc hlimit ha).2.2.2.2
  refused := fun _ _ _ => h.fdalloc_eq_none_iff

end

/-! ### Several descriptors at once -/

section

variable {fdp fdp' : Filedesc} {maxfd : ℕ} {fds : List ℕ}

/-- The descriptors were free and have been taken, in ascending order. -/
structure Took (fdp fdp' : Filedesc) (maxfd : ℕ) (fds : List ℕ) : Prop where
  sound : Sound fdp'
  used : ∀ n, fdisused fdp' n = (fdisused fdp n || decide (n ∈ fds))
  free : ∀ fd ∈ fds, fdisused fdp fd = false ∧ fd < maxfd
  ascending : fds.Pairwise (· < ·)

theorem took_nil (h : Sound fdp) : Took fdp fdp maxfd [] :=
  ⟨h, fun n => by simp, fun fd hfd => absurd hfd List.not_mem_nil, List.Pairwise.nil⟩

theorem Took.cons {fdp₁ : Filedesc} {fd : ℕ} (h : Sound fdp) (hlimit : maxfd ≤ maxLimit)
    (ha : fdalloc .lp64 fdp maxfd 0 = some (fd, fdp₁)) (ht : Took fdp₁ fdp' maxfd fds) :
    Took fdp fdp' maxfd (fd :: fds) := by
  obtain ⟨hleast, hmax, -, -, hused⟩ := h.fdalloc hlimit ha
  have hfree : ∀ n ∈ fds, fdisused fdp n = false ∧ n ≠ fd := by
    intro n hn
    have hn := (ht.free n hn).1
    rw [hused, Bool.or_eq_false_iff, decide_eq_false_iff_not] at hn
    exact hn
  refine ⟨ht.sound, fun n => ?_, fun n hn => ?_,
    List.pairwise_cons.mpr ⟨fun n hn => ?_, ht.ascending⟩⟩
  · rw [ht.used, hused, Bool.or_assoc, ← Bool.decide_or]
    simp only [List.mem_cons]
  · rcases List.mem_cons.mp hn with rfl | hn
    · exact ⟨hleast.1.2, hmax⟩
    · exact ⟨(hfree n hn).1, (ht.free n hn).2⟩
  · obtain ⟨hnfree, hne⟩ := hfree n hn
    have hle := hleast.2 ⟨Nat.zero_le n, hnfree⟩
    omega

/-- What the loop has taken when it ends. -/
theorem took_fdallocnLoop (hlimit : maxfd ≤ maxLimit) (n : ℕ) (h : Sound fdp) :
    Took fdp (fdallocnLoop .lp64 maxfd n fdp).1 maxfd (fdallocnLoop .lp64 maxfd n fdp).2 := by
  induction n generalizing fdp with
  | zero => exact took_nil h
  | succ n ih =>
    rw [fdallocnLoop]
    cases ha : fdalloc .lp64 fdp maxfd 0 with
    | none => exact took_nil h
    | some got => exact Took.cons h hlimit ha (ih (h.fdalloc hlimit ha).2.2.2.1)

theorem length_fdallocnLoop_le (host : Host) (fdp : Filedesc) (maxfd n : ℕ) :
    (fdallocnLoop host maxfd n fdp).2.length ≤ n := by
  induction n generalizing fdp with
  | zero => exact Nat.le_refl 0
  | succ n ih =>
    rw [fdallocnLoop]
    cases fdalloc host fdp maxfd 0 with
    | none => exact Nat.zero_le _
    | some got => exact Nat.succ_le_succ (ih got.2)

/-- Giving descriptors back. -/
theorem Sound.fdisused_foldl (h : Sound fdp) (hfds : ∀ fd ∈ fds, fd < fdp.fdNfiles) (n : ℕ) :
    fdisused (fds.foldl Descrip.fdunused fdp) n = (fdisused fdp n && !decide (n ∈ fds)) := by
  induction fds generalizing fdp with
  | nil => simp
  | cons fd fds ih =>
    have hfd := hfds fd List.mem_cons_self
    rw [List.foldl_cons, ih (h.fdunused hfd) fun n hn => hfds n (List.mem_cons_of_mem _ hn),
      h.fdisused_fdunused hfd]
    simp [Bool.and_assoc]

end

/-- **`fdallocn` takes all or nothing.** If it succeeds, it has taken `n` free descriptors in
ascending order and no others; if it fails, the same descriptors are in use as before. -/
theorem fdallocn_all_or_nothing {fdp : Filedesc} (h : Reach (step .lp64) Limited fdinit fdp)
    {maxfd : ℕ} (hlimit : maxfd ≤ maxLimit) (n : ℕ) :
    (∀ fdp' fds, fdallocn .lp64 fdp maxfd n = (fdp', some fds) →
      fds.length = n ∧ fds.Pairwise (· < ·) ∧
        (∀ fd ∈ fds, fdisused fdp fd = false ∧ fd < maxfd) ∧
        ∀ m, fdisused fdp' m = (fdisused fdp m || decide (m ∈ fds))) ∧
    (∀ fdp', fdallocn .lp64 fdp maxfd n = (fdp', none) →
      ∀ m, fdisused fdp' m = fdisused fdp m) := by
  have hsound := sound_of_reach h
  have htook := took_fdallocnLoop hlimit n hsound
  have hlen := length_fdallocnLoop_le .lp64 fdp maxfd n
  simp only [fdallocn]
  generalize fdallocnLoop .lp64 maxfd n fdp = got at htook hlen ⊢
  split_ifs with hfew
  · refine ⟨fun fdp' fds heq => absurd (Prod.mk.inj heq).2.symm (Option.some_ne_none fds), ?_⟩
    intro fdp' heq m
    -- what was taken is below the end of the table, so that it can be given back
    have hlt : ∀ fd ∈ got.2.reverse, fd < got.1.fdNfiles := by
      intro fd hfd
      refine htook.sound.used_lt fd ?_
      rw [htook.used, decide_eq_true (List.mem_reverse.mp hfd), Bool.or_true]
    rw [← (Prod.mk.inj heq).1, htook.sound.fdisused_foldl hlt, htook.used]
    by_cases hm : m ∈ got.2
    · simp [hm, (htook.free m hm).1]
    · simp [hm]
  · refine ⟨fun fdp' fds heq => ?_, fun fdp' heq => ?_⟩
    · obtain ⟨rfl, hfds⟩ := Prod.mk.inj heq
      obtain rfl := Option.some.inj hfds
      exact ⟨by omega, htook.ascending, htook.free, htook.used⟩
    · exact absurd (Prod.mk.inj heq).2 (Option.some_ne_none _)

/-- Three descriptors of a new table with a limit of 2: nothing is taken. -/
theorem fdallocn_all_or_nothing_fdinit :
    Reach (step .lp64) Limited fdinit fdinit ∧ 2 ≤ maxLimit ∧
      (fdallocn .lp64 fdinit 2 3).2 = none ∧
      ∀ fdp', fdallocn .lp64 fdinit 2 3 = (fdp', none) →
        ∀ m, fdisused fdp' m = fdisused fdinit m :=
  ⟨.refl, by decide, by decide, (fdallocn_all_or_nothing .refl (by decide) 3).2⟩

/-! ### On Windows -/

/-- Two words are filled; then a descriptor of the first one is closed and given out again. -/
def refilled : List Action :=
  List.replicate 128 (.alloc 1024 0) ++ [.close 3, .alloc 1024 0]

/-- The next call gives out the descriptor 63, which is in use. -/
theorem givenTwice :
    ((exec (step .llp64) fdinit refilled).map fun fdp =>
      (fdisused fdp 63, (fdalloc .llp64 fdp 1024 0).map Prod.fst)) = some (true, some 63) := by
  decide +kernel

theorem limited_refilled (fdp : Filedesc) : ∀ a ∈ refilled, Limited fdp a := by
  intro a ha
  rcases List.mem_append.mp ha with ha | ha
  · rw [List.eq_of_mem_replicate ha]
    exact (by decide : 1024 ≤ maxLimit)
  · simp only [List.mem_cons, List.not_mem_nil, or_false] at ha
    rcases ha with rfl | rfl
    · exact trivial
    · exact (by decide : 1024 ≤ maxLimit)

/-- **Descriptors are given out as promised exactly on hosts where `unsigned long` has 64 bits**,
as long as the limits are bounded. -/
theorem allocOk_iff (host : Host) :
    (∀ fdp, Reach (step host) Limited fdinit fdp → AllocOk host fdp) ↔ host = .lp64 := by
  constructor
  · intro hall
    cases host with
    | lp64 => rfl
    | llp64 =>
      obtain ⟨fdp, hexec, hfdp⟩ := Option.map_eq_some_iff.mp givenTwice
      obtain ⟨hused, hfst⟩ := Prod.mk.inj hfdp
      obtain ⟨⟨fd, fdp'⟩, halloc, rfl⟩ := Option.map_eq_some_iff.mp hfst
      have hreach := reach_of_exec refilled (admitted_of_forall limited_refilled _) hexec
      have hleast := ((hall fdp hreach).lowest 1024 0 _ _ (by decide) halloc).1
      exact absurd (hleast.1.2.symm.trans hused) Bool.false_ne_true
  · rintro rfl fdp hreach
    exact (sound_of_reach hreach).allocOk

end VosStack.Descrip
