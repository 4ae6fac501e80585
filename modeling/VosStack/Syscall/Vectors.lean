import Mathlib.Data.Int.Notation
import VosStack.Syscall.Messages

/-!
# Reading and writing vectors

`ff_read` and `ff_write` refuse a size above `INT_MAX` with `EINVAL`. `ff_readv` and `ff_writev` add
the sizes of a vector up in an `int`, without a check: the sum wraps around, and what the kernel
gets as `uio_resid` is **the sum modulo 2³², as a signed number** (`toNat_sumLen`). That is the sum
itself exactly when the sum is at most `INT_MAX` (`toInt_sumLen_iff`).

The kernel is a function of the call it gets. What a wrapper does is the list of its kernel calls,
its result, and the error number it hands to `ff_os_errno`.
-/

namespace VosStack.Syscall

/-- `INT_MAX`. -/
def INT_MAX : ℕ := 2147483647

/-- `struct iovec`. -/
structure Iovec where
  base : BitVec 64
  len : BitVec 64
  deriving DecidableEq, Repr

/-- `struct uio`; `uio_segflg` is `UIO_SYSSPACE`. -/
structure Uio where
  iov : List Iovec
  iovcnt : ℕ
  resid : ℤ
  deriving DecidableEq, Repr

/-- `kern_readv` or `kern_writev`. -/
inductive Direction
  | readv
  | writev
  deriving DecidableEq, Repr

/-- A call of the kernel. -/
structure KernelCall where
  direction : Direction
  fd : ℤ
  uio : Uio
  deriving DecidableEq, Repr

/-- The kernel: an error, or `td_retval[0]`. -/
abbrev Kernel := KernelCall → Answer (BitVec 64)

/-- What a wrapper does. -/
structure Outcome where
  calls : List KernelCall
  rc : ℤ
  errno : Option ℕ
  deriving DecidableEq, Repr

/-- The kernel call and what is made of its result. -/
def callKernel (kern : Kernel) (c : KernelCall) : Outcome :=
  match kern c with
  | .error e => ⟨[c], -1, some e⟩
  | .ok retval => ⟨[c], rcOf retval, none⟩

/-- The common body of `ff_read` and `ff_write`. -/
def scalar (direction : Direction) (kern : Kernel) (fd : ℤ) (buf nbytes : BitVec 64) : Outcome :=
  if nbytes.toNat > INT_MAX then ⟨[], -1, some EINVAL⟩
  else callKernel kern ⟨direction, fd, ⟨[⟨buf, nbytes⟩], 1, nbytes.toNat⟩⟩

/-- The loop `len += iov[i].iov_len`: the sum is made in `size_t` and stored in the `int`. -/
def sumLen : BitVec 32 → List Iovec → BitVec 32
  | len, [] => len
  | len, v :: iov => sumLen ((len.signExtend 64 + v.len).setWidth 32) iov

/-- The kernel call of `ff_readv` and `ff_writev`. -/
def vectorCall (direction : Direction) (fd : ℤ) (iov : List Iovec) : KernelCall :=
  ⟨direction, fd, ⟨iov, iov.length, (sumLen 0 iov).toInt⟩⟩

/-- The common body of `ff_readv` and `ff_writev`. -/
def vector (direction : Direction) (kern : Kernel) (fd : ℤ) (iov : List Iovec) : Outcome :=
  callKernel kern (vectorCall direction fd iov)

/-- `ff_read`. -/
def ffRead := scalar .readv

/-- `ff_write`. -/
def ffWrite := scalar .writev

/-- `ff_readv`. -/
def ffReadv := vector .readv

/-- `ff_writev`. -/
def ffWritev := vector .writev

/-- The mathematical sum of the sizes. -/
def totalLen : List Iovec → ℕ
  | [] => 0
  | v :: iov => v.len.toNat + totalLen iov

/-- The wrapper fails with `EINVAL`, or calls the kernel with the exact sum. -/
def Outcome.Exact (o : Outcome) (iov : List Iovec) : Prop :=
  o.errno = some EINVAL ∨ ∃ c ∈ o.calls, c.uio.resid = totalLen iov

instance (o : Outcome) (iov : List Iovec) : Decidable (o.Exact iov) :=
  inferInstanceAs (Decidable (_ ∨ ∃ c ∈ o.calls, _))

/-! ### The sum -/

theorem setWidth_signExtend (len : BitVec 32) : (len.signExtend 64).setWidth 32 = len := by
  apply BitVec.eq_of_getLsbD_eq
  intro i hi
  rw [BitVec.getLsbD_setWidth, BitVec.getLsbD_signExtend, decide_eq_true hi,
    decide_eq_true (by omega : i < 64), if_pos hi, Bool.true_and, Bool.true_and]

/-- One round of the loop. -/
theorem toNat_round (len : BitVec 32) (n : BitVec 64) :
    ((len.signExtend 64 + n).setWidth 32).toNat = (len.toNat + n.toNat) % 4294967296 := by
  rw [BitVec.setWidth_add _ _ (by decide), setWidth_signExtend, BitVec.toNat_add,
    BitVec.toNat_setWidth]
  omega

/-- The loop adds up modulo 2³². -/
theorem toNat_sumLen (len : BitVec 32) (iov : List Iovec) :
    (sumLen len iov).toNat = (len.toNat + totalLen iov) % 4294967296 := by
  induction iov generalizing len with
  | nil =>
    have := len.isLt
    rw [sumLen, totalLen]
    omega
  | cons v iov ih =>
    rw [sumLen, ih, toNat_round, totalLen]
    omega

/-- As a signed number the result is the sum exactly when the sum is one. -/
theorem toInt_sumLen_iff (iov : List Iovec) :
    (sumLen 0 iov).toInt = totalLen iov ↔ totalLen iov ≤ INT_MAX := by
  have hnat : (sumLen 0 iov).toNat = totalLen iov % 4294967296 := by
    rw [toNat_sumLen]
    exact congrArg (· % 4294967296) (Nat.zero_add _)
  rw [BitVec.toInt_eq_toNat_cond, hnat, INT_MAX]
  split_ifs <;> omega

/-! ### The wrappers -/

theorem calls_callKernel (kern : Kernel) (c : KernelCall) : (callKernel kern c).calls = [c] := by
  rw [callKernel]
  split <;> rfl

theorem errno_callKernel_eq_iff (kern : Kernel) (c : KernelCall) (e : ℕ) :
    (callKernel kern c).errno = some e ↔ kern c = .error e := by
  rw [callKernel]
  split
  · next e' hk => rw [hk, Option.some_inj, Except.error.injEq]
  · next retval hk =>
    rw [hk]
    exact iff_of_false nofun nofun

variable (direction : Direction) (kern : Kernel) (fd : ℤ) (iov : List Iovec)
  (buf nbytes : BitVec 64)

theorem vector_exact_iff : (vector direction kern fd iov).Exact iov ↔
    totalLen iov ≤ INT_MAX ∨ kern (vectorCall direction fd iov) = .error EINVAL := by
  rw [Outcome.Exact, vector, calls_callKernel, errno_callKernel_eq_iff, or_comm]
  refine or_congr_left ?_
  rw [← toInt_sumLen_iff]
  constructor
  · rintro ⟨c, hc, hresid⟩
    rw [List.mem_singleton.mp hc] at hresid
    exact hresid
  · exact fun hresid => ⟨_, List.mem_singleton_self _, hresid⟩

/-- A vector of one element is read or written like its buffer exactly when the wrapper for a buffer
does not refuse it. -/
theorem vector_singleton_iff : vector direction kern fd [⟨buf, nbytes⟩] =
    scalar direction kern fd buf nbytes ↔ nbytes.toNat ≤ INT_MAX := by
  rw [scalar]
  split_ifs with hbig
  · refine iff_of_false (fun heq => ?_) (Nat.not_le.mpr hbig)
    have hcalls := congrArg Outcome.calls heq
    rw [vector, calls_callKernel] at hcalls
    exact absurd hcalls nofun
  · have hle : nbytes.toNat ≤ INT_MAX := Nat.not_lt.mp hbig
    have hresid : (sumLen 0 [⟨buf, nbytes⟩]).toInt = nbytes.toNat :=
      (toInt_sumLen_iff [⟨buf, nbytes⟩]).mpr hle
    refine iff_of_true ?_ hle
    rw [vector, vectorCall, hresid]
    rfl

/-- **Vectors.** `ff_readv` and `ff_writev` refuse a vector or give the kernel the exact sum of its
sizes exactly when the sum is at most `INT_MAX` or the kernel itself refuses the sum it is given; on
a vector of one element they do what `ff_read` and `ff_write` do exactly when its size is at most
`INT_MAX`. -/
theorem vectors_exact_iff :
    ((ffReadv kern fd iov).Exact iov ↔
      totalLen iov ≤ INT_MAX ∨ kern (vectorCall .readv fd iov) = .error EINVAL) ∧
    ((ffWritev kern fd iov).Exact iov ↔
      totalLen iov ≤ INT_MAX ∨ kern (vectorCall .writev fd iov) = .error EINVAL) ∧
    (ffReadv kern fd [⟨buf, nbytes⟩] = ffRead kern fd buf nbytes ↔ nbytes.toNat ≤ INT_MAX) ∧
    (ffWritev kern fd [⟨buf, nbytes⟩] = ffWrite kern fd buf nbytes ↔ nbytes.toNat ≤ INT_MAX) :=
  ⟨vector_exact_iff _ kern fd iov, vector_exact_iff _ kern fd iov,
    vector_singleton_iff _ kern fd buf nbytes, vector_singleton_iff _ kern fd buf nbytes⟩

/-- A write of 4 GiB and 5 bytes is refused as a buffer; as a vector it becomes a write of 5 bytes,
if the kernel takes what it is given. -/
theorem writev_wraps :
    let kern : Kernel := fun c => .ok (BitVec.ofInt 64 c.uio.resid)
    ffWritev kern 3 [⟨0, 4294967301⟩] =
        ⟨[⟨.writev, 3, ⟨[⟨0, 4294967301⟩], 1, 5⟩⟩], 5, none⟩ ∧
      ffWrite kern 3 0 4294967301 = ⟨[], -1, some EINVAL⟩ ∧
      ¬ (ffWritev kern 3 [⟨0, 4294967301⟩]).Exact [⟨0, 4294967301⟩] := by
  decide

end VosStack.Syscall
