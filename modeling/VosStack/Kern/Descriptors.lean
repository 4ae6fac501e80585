import VosStack.Table.Bitmap
import VosStack.Transition.Run
import Mathlib.Order.Bounds.Basic

/-!
# The allocation of descriptors

The table of open descriptors of `kern_descrip.c`: `fdalloc` gives out the lowest free descriptor
that is not below `minfd`. The descriptors in use are kept in a bitmap, `fd_freefile` is a bound
below which none is free, and the table grows when it is full.

A word of the bitmap is a `u_long`, which `sys/types.h` makes an `unsigned long long`. The search
compares it with `~0UL`, an `unsigned long`, which has 32 bits on Windows. There a full word is not
taken for a full one, and the search ends at the descriptor before it, which is in use.

The numbers are `int`s in the source and natural numbers here. The table may grow to twice the limit
of the process, and with a limit above `2 ^ 30` the computed size overflows; so the runs are those
in which the limit is at most `maxLimit`, and `Sound.nfiles_le` says that no size gets above
`2 ^ 30` then.
-/

namespace VosStack.Descrip

open Transition Table

/-- The data models of the hosts. -/
inductive Host
  | lp64
  | llp64
  deriving DecidableEq, Repr

/-- `~0UL`, converted to a `u_long`. -/
def Host.notZeroUL : Host → BitVec 64
  | .lp64 => 0xffffffffffffffff#64
  | .llp64 => 0xffffffff#64

/-- `NDENTRIES`. -/
def ndentries : ℕ := 64

/-- `NDFILE`. -/
def ndfile : ℕ := 20

/-- `NDSLOT`. -/
def ndslot (x : ℕ) : ℕ := x / ndentries

/-- `NDBIT`. -/
def ndbit (x : ℕ) : BitVec 64 := 1#64 <<< (x % ndentries)

/-- `NDSLOTS`. -/
def ndslots (x : ℕ) : ℕ := (x + ndentries - 1) / ndentries

/-- The loop of `ffsll`, which ends within 64 turns. -/
def ffsllLoop : ℕ → BitVec 64 → ℕ → ℕ
  | 0, _, bit => bit
  | fuel + 1, mask, bit =>
    if mask &&& 1#64 = 0#64 then ffsllLoop fuel (mask >>> 1) (bit + 1) else bit

/-- `ffsll`. -/
def ffsll (mask : BitVec 64) : ℕ := if mask = 0#64 then 0 else ffsllLoop 64 mask 1

/-- `struct filedesc`. -/
structure Filedesc where
  fdMap : List (BitVec 64)
  fdNfiles : ℕ
  fdFreefile : ℕ
  deriving DecidableEq, Repr

/-- The table that `fdinit` makes. -/
def fdinit : Filedesc := ⟨List.replicate (ndslots ndfile) 0#64, ndfile, 0⟩

/-- The loop of `fd_first_free`. For a full word `ffsll` is 0, and the result is the descriptor
before that word; a search that starts at the first word finds it not full. -/
def slotLoop (host : Host) (size : ℕ) : ℕ → List (BitVec 64) → ℕ
  | _, [] => size
  | off, slot :: slots =>
    if slot ≠ host.notZeroUL then off * ndentries + ffsll (~~~slot) - 1
    else slotLoop host size (off + 1) slots

/-- `fd_first_free`. -/
def fdFirstFree (host : Host) (fdp : Filedesc) (low size : ℕ) : ℕ :=
  if size ≤ low then low
  else
    let off := ndslot low
    let slots := fdp.fdMap.take (ndslots size)
    if low % ndentries ≠ 0 then
      let mask := ~~~(~~~(0#64) >>> (ndentries - low % ndentries)) &&& ~~~(fdp.fdMap.getD off 0#64)
      if mask ≠ 0#64 then off * ndentries + ffsll mask - 1
      else slotLoop host size (off + 1) (slots.drop (off + 1))
    else slotLoop host size off (slots.drop off)

/-- `fdisused`. -/
def fdisused (fdp : Filedesc) (fd : ℕ) : Bool :=
  decide (fdp.fdMap.getD (ndslot fd) 0#64 &&& ndbit fd ≠ 0#64)

/-- `fdused`. -/
def fdused (fdp : Filedesc) (fd : ℕ) : Filedesc :=
  { fdp with
    fdMap := fdp.fdMap.modify (ndslot fd) (· ||| ndbit fd)
    fdFreefile := if fd = fdp.fdFreefile then fdp.fdFreefile + 1 else fdp.fdFreefile }

/-- `fdunused`. -/
def fdunused (fdp : Filedesc) (fd : ℕ) : Filedesc :=
  { fdp with
    fdMap := fdp.fdMap.modify (ndslot fd) (· &&& ~~~ndbit fd)
    fdFreefile := if fd < fdp.fdFreefile then fd else fdp.fdFreefile }

/-- `fdgrowtable`: the new map is cleared, and begins with the old one. -/
def fdgrowtable (fdp : Filedesc) (nfd : ℕ) : Filedesc :=
  let onfiles := fdp.fdNfiles
  let nnfiles := ndslots nfd * ndentries
  if nnfiles ≤ onfiles then fdp
  else
    { fdp with
      fdMap :=
        if ndslots onfiles < ndslots nnfiles then
          fdp.fdMap.take (ndslots onfiles) ++
            List.replicate (ndslots nnfiles - ndslots onfiles) 0#64
        else fdp.fdMap
      fdNfiles := nnfiles }

/-- `fdgrowtable_exp`. -/
def fdgrowtableExp (fdp : Filedesc) (nfd : ℕ) : Filedesc :=
  let nfd1 := fdp.fdNfiles * 2
  fdgrowtable fdp (if nfd1 < nfd then nfd else nfd1)

/-- `fdalloc`: the descriptor and the table, or `none` for `EMFILE`. -/
def fdalloc (host : Host) (fdp : Filedesc) (maxfd minfd : ℕ) : Option (ℕ × Filedesc) :=
  let minfd := if minfd < fdp.fdFreefile then fdp.fdFreefile else minfd
  let fd := fdFirstFree host fdp minfd fdp.fdNfiles
  if maxfd ≤ fd then none
  else
    let fdp := if fdp.fdNfiles ≤ fd then fdgrowtableExp fdp (min (fd * 2) maxfd) else fdp
    some (fd, fdused fdp fd)

/-- The loop of `fdallocn`, up to its end or to the first `EMFILE`: the descriptors it got. -/
def fdallocnLoop (host : Host) (maxfd : ℕ) : ℕ → Filedesc → Filedesc × List ℕ
  | 0, fdp => (fdp, [])
  | n + 1, fdp =>
    match fdalloc host fdp maxfd 0 with
    | none => (fdp, [])
    | some (fd, fdp) =>
      let rest := fdallocnLoop host maxfd n fdp
      (rest.1, fd :: rest.2)

/-- `fdallocn`, which does not use its argument `minfd`: the table, and the descriptors or `none`
for `EMFILE`. The descriptors that it got are given back from the last one on. -/
def fdallocn (host : Host) (fdp : Filedesc) (maxfd n : ℕ) : Filedesc × Option (List ℕ) :=
  let got := fdallocnLoop host maxfd n fdp
  if got.2.length < n then (got.2.reverse.foldl fdunused got.1, none) else (got.1, some got.2)

/-- `kern_dup` in the mode `FDDUP_FIXED`, as far as it takes the descriptor `new`. -/
def dupFixed (fdp : Filedesc) (maxfd new : ℕ) : Option Filedesc :=
  if maxfd ≤ new then none
  else
    let fdp := if fdp.fdNfiles ≤ new then fdgrowtableExp fdp (new + 1) else fdp
    some (if fdisused fdp new then fdp else fdused fdp new)

/-- A bound on `getmaxfd`, up to which no `int` of these functions overflows. -/
def maxLimit : ℕ := 536870912

/-- The calls that take and give back descriptors. The limit may be another one at each. -/
inductive Action
  | alloc (maxfd minfd : ℕ)
  | dup (maxfd new : ℕ)
  | close (fd : ℕ)
  deriving DecidableEq, Repr

/-- One call. Only open descriptors are closed. -/
def step (host : Host) (fdp : Filedesc) : Action → Option Filedesc
  | .alloc maxfd minfd => (fdalloc host fdp maxfd minfd).map Prod.snd
  | .dup maxfd new => dupFixed fdp maxfd new
  | .close fd => if fd < fdp.fdNfiles ∧ fdisused fdp fd then some (fdunused fdp fd) else none

/-- The limit of a call is at most `maxLimit`. -/
def Limited (_ : Filedesc) : Action → Prop
  | .alloc maxfd _ | .dup maxfd _ => maxfd ≤ maxLimit
  | .close _ => True

instance (fdp : Filedesc) : ∀ a, Decidable (Limited fdp a)
  | .alloc maxfd _ | .dup maxfd _ => inferInstanceAs (Decidable (maxfd ≤ maxLimit))
  | .close _ => .isTrue trivial

/-- **The contract of `fdalloc`.** It gives out the lowest free descriptor that is not below
`minfd`, takes it and no other, and fails only if all descriptors up to the limit are in use. -/
structure AllocOk (host : Host) (fdp : Filedesc) : Prop where
  lowest : ∀ maxfd minfd fd fdp', maxfd ≤ maxLimit →
    fdalloc host fdp maxfd minfd = some (fd, fdp') →
    IsLeast {n | minfd ≤ n ∧ fdisused fdp n = false} fd ∧ fd < maxfd ∧ fd < fdp'.fdNfiles
  taken : ∀ maxfd minfd fd fdp', maxfd ≤ maxLimit →
    fdalloc host fdp maxfd minfd = some (fd, fdp') →
    ∀ n, fdisused fdp' n = (fdisused fdp n || decide (n = fd))
  refused : ∀ maxfd minfd, maxfd ≤ maxLimit → (fdalloc host fdp maxfd minfd = none ↔
    ∀ n, minfd ≤ n → n < maxfd → fdisused fdp n = true)

end VosStack.Descrip
