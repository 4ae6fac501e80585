import VosStack.Memory.Blocks

/-!
# Socket addresses of Linux and of FreeBSD

The two layouts share their size and their data, which starts at byte 2; Linux has a 16-bit family
in the first two bytes, FreeBSD a length and an 8-bit family:

| byte    | 0         | 1           | 2 …       |
|---------|-----------|-------------|-----------|
| Linux   | `sa_family` (low, high) | | `sa_data` |
| FreeBSD | `sa_len`  | `sa_family` | `sa_data` |

`linux2freebsd_sockaddr` and `freebsd2linux_sockaddr` are translated write by write. The forward
conversion reads the family before its first write, so what it leaves (`cell_linux2freebsd`) is the
same whether or not source and destination are one block.

The number of data bytes is a difference of unsigned numbers and wraps around below 2.
-/

namespace VosStack.Syscall

open Memory

variable {ι : Type*} [DecidableEq ι]

/-- `LINUX_AF_INET6`. -/
def LINUX_AF_INET6 : BitVec 16 := 10

/-- `AF_INET6` of FreeBSD. -/
def AF_INET6 : BitVec 8 := 28

/-- The FreeBSD family of a Linux family: other families keep their low byte. -/
def freebsdFamily (family : BitVec 16) : BitVec 8 :=
  if family = LINUX_AF_INET6 then AF_INET6 else family.setWidth 8

/-- The Linux family of a FreeBSD family. -/
def linuxFamily (family : BitVec 8) : BitVec 16 :=
  if family = AF_INET6 then LINUX_AF_INET6 else family.setWidth 16

/-- `n - sizeof(linux->sa_family)` in `size_t`, with `w` bits in `n`. -/
def dataLen {w : ℕ} (n : BitVec w) : ℕ := (n.setWidth 64 - 2).toNat

/-- `linux2freebsd_sockaddr`. -/
def linux2freebsdSockaddr (h : Heap ι) (linux : Option ι) (addrlen : BitVec 32) (freebsd : ι) :
    Heap ι :=
  match linux with
  | none => h
  | some l =>
      let family : BitVec 16 := h.byte l 1 ++ h.byte l 0
      let h := (h.use l 0).use l 1
      let h := h.store freebsd 1 (freebsdFamily family)
      let h := h.store freebsd 0 (addrlen.setWidth 8)
      h.copy freebsd 2 l 2 (dataLen addrlen)

/-- `freebsd2linux_sockaddr`. -/
def freebsd2linuxSockaddr (h : Heap ι) (linux : Option ι) (freebsd : ι) : Heap ι :=
  match linux with
  | none => h
  | some l =>
      let family := linuxFamily (h.byte freebsd 1)
      let h := h.use freebsd 1
      let h := (h.store l 0 (family.setWidth 8)).store l 1 (family.extractLsb' 8 8)
      let n := dataLen (h.byte freebsd 0)
      let h := h.use freebsd 0
      h.copy l 2 freebsd 2 n

variable {h : Heap ι} {l f b : ι} {len : BitVec 32} {i : ℕ}

/-! ### What the conversions leave -/

theorem cell_linux2freebsd : (linux2freebsdSockaddr h (some l) len f).cell b i =
    if b = f ∧ i < 2 + dataLen len then
      if i = 0 then some (len.setWidth 8)
      else if i = 1 then some (freebsdFamily (h.byte l 1 ++ h.byte l 0))
      else h.cell l i
    else h.cell b i := by
  simp only [linux2freebsdSockaddr, Heap.cell_copy, Heap.cell_store, Heap.cell_use]
  by_cases hb : b = f
  · subst hb
    rcases i with _ | _ | i
    · simp
    · simp only [true_and]
      rw [if_pos (by omega : 0 + 1 < 2 + dataLen len)]
      simp
    · simp [Nat.add_comm 2]
  · simp [hb]

theorem cell_freebsd2linux (hne : l ≠ f) : (freebsd2linuxSockaddr h (some l) f).cell b i =
    if b = l ∧ i < 2 + dataLen (h.byte f 0) then
      if i = 0 then some ((linuxFamily (h.byte f 1)).setWidth 8)
      else if i = 1 then some ((linuxFamily (h.byte f 1)).extractLsb' 8 8)
      else h.cell f i
    else h.cell b i := by
  simp only [freebsd2linuxSockaddr, Heap.cell_copy, Heap.cell_store, Heap.cell_use, Heap.byte]
  by_cases hb : b = l
  · subst hb
    rcases i with _ | _ | i
    · simp [hne.symm]
    · simp only [true_and]
      rw [if_pos (by omega : 0 + 1 < 2 + _)]
      simp [hne.symm]
    · simp [Nat.add_comm 2, hne.symm]
  · simp [hb]

/-- The forward conversion needs the family and room for the length. -/
theorem clean_linux2freebsd_iff : (linux2freebsdSockaddr h (some l) len f).Clean ↔
    h.Clean ∧ (h.cell l 0 ≠ none ∧ h.cell l 1 ≠ none) ∧
      (2 ≤ h.size l ∧ (0 < dataLen len → 2 + dataLen len ≤ h.size l)) ∧
      (2 ≤ h.size f ∧ (0 < dataLen len → 2 + dataLen len ≤ h.size f)) := by
  simp only [linux2freebsdSockaddr, Heap.clean_copy_iff, Heap.clean_store_iff, Heap.clean_use_iff,
    Heap.size_store, Heap.size_use, Heap.cell_use]
  constructor
  · rintro ⟨⟨⟨⟨⟨hclean, hl0, h0⟩, hl1, h1⟩, hf1⟩, hf0⟩, hl, hf⟩
    exact ⟨hclean, ⟨h0, h1⟩, ⟨hl1, hl⟩, hf1, hf⟩
  · rintro ⟨hclean, ⟨h0, h1⟩, ⟨hl1, hl⟩, hf1, hf⟩
    exact ⟨⟨⟨⟨⟨hclean, by omega, h0⟩, hl1, h1⟩, hf1⟩, by omega⟩, hl, hf⟩

/-- The backward conversion needs length and family, and as many bytes as the length says. -/
theorem clean_freebsd2linux_iff (hne : l ≠ f) : (freebsd2linuxSockaddr h (some l) f).Clean ↔
    h.Clean ∧ (h.cell f 0 ≠ none ∧ h.cell f 1 ≠ none) ∧
      (2 ≤ h.size f ∧ (0 < dataLen (h.byte f 0) → 2 + dataLen (h.byte f 0) ≤ h.size f)) ∧
      (2 ≤ h.size l ∧ (0 < dataLen (h.byte f 0) → 2 + dataLen (h.byte f 0) ≤ h.size l)) := by
  have hkeep : ∀ v w, ((h.use f 1).store l 0 v |>.store l 1 w).cell f 0 = h.cell f 0 := by
    intro v w
    simp [Heap.cell_store, hne.symm]
  simp only [freebsd2linuxSockaddr, Heap.clean_copy_iff, Heap.clean_store_iff, Heap.clean_use_iff,
    Heap.size_store, Heap.size_use, Heap.byte, hkeep]
  constructor
  · rintro ⟨⟨⟨⟨⟨hclean, hf1, h1⟩, hl0⟩, hl1⟩, hf0, h0⟩, hf, hl⟩
    exact ⟨hclean, ⟨h0, h1⟩, ⟨hf1, hf⟩, hl1, hl⟩
  · rintro ⟨hclean, ⟨h0, h1⟩, ⟨hf1, hf⟩, hl1, hl⟩
    exact ⟨⟨⟨⟨⟨hclean, hf1, h1⟩, by omega⟩, hl1⟩, by omega, h0⟩, hf, hl⟩

/-! ### The round trip -/

theorem dataLen_add_two {w : ℕ} {n : BitVec w} (hw : w ≤ 64) (h2 : 2 ≤ n.toNat) :
    2 + dataLen n = n.toNat := by
  have hn : (n.setWidth 64).toNat = n.toNat := BitVec.toNat_setWidth_of_le hw
  rw [dataLen, BitVec.toNat_sub_of_le, hn]
  · exact Nat.add_sub_cancel' h2
  · rw [BitVec.le_def, hn]
    exact h2

/-- A family below 256 is kept by the round trip, unless FreeBSD uses its number for IPv6. -/
theorem linuxFamily_freebsdFamily {family : BitVec 16} (h256 : family.toNat < 256)
    (h28 : family ≠ 28) : linuxFamily (freebsdFamily family) = family := by
  have hsmall : (family.setWidth 8).setWidth 16 = family := by
    apply BitVec.eq_of_toNat_eq
    rw [BitVec.toNat_setWidth, BitVec.toNat_setWidth]
    omega
  rw [freebsdFamily]
  split_ifs with h10
  · rw [h10]
    rfl
  · rw [linuxFamily, hsmall, if_neg]
    intro heq
    exact h28 (hsmall.symm.trans (congrArg (BitVec.setWidth 16) heq))

/-- The family becomes `AF_INET6` for the Linux IPv6 family only. -/
theorem freebsdFamily_eq_iff {family : BitVec 16} (h256 : family.toNat < 256)
    (h28 : family ≠ 28) : freebsdFamily family = AF_INET6 ↔ family = LINUX_AF_INET6 := by
  constructor
  · intro heq
    rw [← linuxFamily_freebsdFamily h256 h28, heq]
    rfl
  · rintro rfl
    rfl

theorem high_append_low (family : BitVec 16) :
    family.extractLsb' 8 8 ++ family.setWidth 8 = family := by
  apply BitVec.eq_of_getLsbD_eq
  intro i hi
  rw [BitVec.getLsbD_append]
  split_ifs with hlt
  · rw [BitVec.getLsbD_setWidth, decide_eq_true hlt, Bool.true_and]
  · rw [BitVec.getLsbD_extractLsb', decide_eq_true (by omega), Bool.true_and,
      Nat.add_sub_cancel' (by omega)]

/-- The block `l` holds a Linux address of the family and the length. -/
structure HoldsLinux (h : Heap ι) (l : ι) (family : BitVec 16) (len : ℕ) : Prop where
  size : len ≤ h.size l
  low : h.cell l 0 = some (family.setWidth 8)
  high : h.cell l 1 = some (family.extractLsb' 8 8)

omit [DecidableEq ι] in
theorem HoldsLinux.family {family : BitVec 16} {n : ℕ} (hl : HoldsLinux h l family n) :
    h.byte l 1 ++ h.byte l 0 = family := by
  rw [Heap.byte_of_cell hl.low, Heap.byte_of_cell hl.high, high_append_low]

section roundTrip

variable {l' : ι} {family : BitVec 16}

/-- What the round trip needs: an address, room for it in two other places, and a family that both
systems can name. -/
structure Convertible (h : Heap ι) (l f l' : ι) (family : BitVec 16) (len : BitVec 32) : Prop where
  clean : h.Clean
  holds : HoldsLinux h l family len.toNat
  roomThere : len.toNat ≤ h.size f
  roomBack : len.toNat ≤ h.size l'
  apart : l' ≠ f
  two_le : 2 ≤ len.toNat
  le_128 : len.toNat ≤ 128
  lt_256 : family.toNat < 256
  ne_28 : family ≠ 28

namespace Convertible

variable (hc : Convertible h l f l' family len)

include hc

omit [DecidableEq ι] in
theorem length : 2 + dataLen len = len.toNat := dataLen_add_two (by decide) hc.two_le

omit [DecidableEq ι] in
theorem toNat_sa_len : (len.setWidth 8).toNat = len.toNat := by
  have hle := hc.le_128
  rw [BitVec.toNat_setWidth]
  omega

/-- The forward conversion, wherever there is room for its result. -/
theorem clean_there {g : ι} (hg : len.toNat ≤ h.size g) :
    (linux2freebsdSockaddr h (some l) len g).Clean := by
  have hlen := hc.length
  have hl := hc.holds.size
  refine clean_linux2freebsd_iff.mpr ⟨hc.clean, ⟨?_, ?_⟩, ⟨by omega, fun _ => by omega⟩,
    by omega, fun _ => by omega⟩
  · rw [hc.holds.low]
    exact Option.some_ne_none _
  · rw [hc.holds.high]
    exact Option.some_ne_none _

/-- The bytes it leaves. -/
theorem cell_there {g : ι} {i : ℕ} (hi : i < len.toNat) :
    (linux2freebsdSockaddr h (some l) len g).cell g i =
      if i = 0 then some (len.setWidth 8) else if i = 1 then some (freebsdFamily family)
      else h.cell l i := by
  rw [cell_linux2freebsd, hc.length, if_pos ⟨rfl, hi⟩, hc.holds.family]

theorem cell_there_zero {g : ι} :
    (linux2freebsdSockaddr h (some l) len g).cell g 0 = some (len.setWidth 8) :=
  hc.cell_there (Nat.lt_of_lt_of_le Nat.two_pos hc.two_le)

theorem cell_there_one {g : ι} :
    (linux2freebsdSockaddr h (some l) len g).cell g 1 = some (freebsdFamily family) :=
  hc.cell_there (Nat.lt_of_lt_of_le Nat.one_lt_two hc.two_le)

/-- `sa_len` tells the way back how much to copy. -/
theorem length_back :
    2 + dataLen ((linux2freebsdSockaddr h (some l) len f).byte f 0) = len.toNat := by
  have hlen := hc.toNat_sa_len
  rw [Heap.byte_of_cell hc.cell_there_zero, dataLen_add_two (by decide) (hlen ▸ hc.two_le), hlen]

theorem clean_back :
    (freebsd2linuxSockaddr (linux2freebsdSockaddr h (some l) len f) (some l') f).Clean := by
  have hlen := hc.length_back
  have hf := hc.roomThere
  have hl' := hc.roomBack
  refine (clean_freebsd2linux_iff hc.apart).mpr ⟨hc.clean_there hf, ⟨?_, ?_⟩, ?_, ?_⟩
  · rw [hc.cell_there_zero]
    exact Option.some_ne_none _
  · rw [hc.cell_there_one]
    exact Option.some_ne_none _
  · exact ⟨Nat.le_trans hc.two_le hf, fun _ => Nat.le_trans (Nat.le_of_eq hlen) hf⟩
  · exact ⟨Nat.le_trans hc.two_le hl', fun _ => Nat.le_trans (Nat.le_of_eq hlen) hl'⟩

/-- The bytes that come back. -/
theorem cell_back {i : ℕ} (hi : i < len.toNat) :
    (freebsd2linuxSockaddr (linux2freebsdSockaddr h (some l) len f) (some l') f).cell l' i =
      if i = 0 then some (family.setWidth 8) else if i = 1 then some (family.extractLsb' 8 8)
      else h.cell l i := by
  rw [cell_freebsd2linux hc.apart, hc.length_back, if_pos ⟨rfl, hi⟩,
    Heap.byte_of_cell hc.cell_there_one, linuxFamily_freebsdFamily hc.lt_256 hc.ne_28]
  split_ifs with h0 h1
  · rfl
  · rfl
  · rw [hc.cell_there hi, if_neg h0, if_neg h1]

end Convertible

/-- **Round trip.** An address of any length from 2 to 128 whose family both systems can name comes
back as it was; in between `sa_len` holds its length, and the family is `AF_INET6` exactly for the
Linux IPv6 family. Converted in place it has the same bytes. -/
theorem sockaddr_roundTrip (hc : Convertible h l f l' family len) :
    let there := linux2freebsdSockaddr h (some l) len f
    let back := freebsd2linuxSockaddr there (some l') f
    let inPlace := linux2freebsdSockaddr h (some l) len l
    (there.Clean ∧ back.Clean ∧ inPlace.Clean) ∧
      HoldsLinux back l' family len.toNat ∧
      (∀ i, 2 ≤ i → i < len.toNat → back.cell l' i = h.cell l i) ∧
      (∃ v, there.cell f 0 = some v ∧ v.toNat = len.toNat) ∧
      (there.cell f 1 = some AF_INET6 ↔ family = LINUX_AF_INET6) ∧
      ∀ i < len.toNat, inPlace.cell l i = there.cell f i := by
  refine ⟨⟨hc.clean_there hc.roomThere, hc.clean_back, hc.clean_there hc.holds.size⟩,
    ⟨hc.roomBack, ?_, ?_⟩, ?_, ⟨_, hc.cell_there_zero, hc.toNat_sa_len⟩, ?_, ?_⟩
  · exact hc.cell_back (Nat.lt_of_lt_of_le Nat.two_pos hc.two_le)
  · exact hc.cell_back (Nat.lt_of_lt_of_le Nat.one_lt_two hc.two_le)
  · intro i h2 hi
    rw [hc.cell_back hi, if_neg (by omega), if_neg (by omega)]
  · rw [hc.cell_there_one, Option.some_inj, freebsdFamily_eq_iff hc.lt_256 hc.ne_28]
  · intro i hi
    rw [hc.cell_there hi, hc.cell_there hi]

/-- An IPv6 address of 28 bytes in block 0, converted to block 1 and back to block 2. -/
theorem sockaddr_roundTrip_inet6 :
    let h : Heap (Fin 3) := ⟨fun _ => 28, fun b i => if b = 0 then some (if i = 0 then 10 else 0)
      else none, []⟩
    let there := linux2freebsdSockaddr h (some 0) 28 1
    HoldsLinux (freebsd2linuxSockaddr there (some 2) 1) 2 10 28 ∧ there.cell 1 1 = some 28 :=
  have hc : Convertible (⟨fun _ => 28, fun b i => if b = 0 then some (if i = 0 then 10 else 0)
      else none, []⟩ : Heap (Fin 3)) 0 1 2 10 28 :=
    ⟨rfl, ⟨by decide, rfl, rfl⟩, by decide, by decide, by decide, by decide, by decide, by decide,
      by decide⟩
  have hround := sockaddr_roundTrip hc
  ⟨hround.2.1, hround.2.2.2.2.1.mpr rfl⟩

end roundTrip

end VosStack.Syscall
