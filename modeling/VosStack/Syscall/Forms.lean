import VosStack.Syscall.Messages

/-!
# The plain and the message form of a call

`ff_sendto` converts as many bytes of the destination as the caller says; `ff_sendmsg` always
converts `sizeof(struct linux_sockaddr)` bytes, and so does `ff_sctp_sendmsg`, which calls it.
`ff_recvfrom` converts the source address into the caller's buffer; `ff_recvmsg` converts it into a
`struct linux_sockaddr` of its own and copies that. The structure has 16 bytes: an IPv4 address
fits, an IPv6 address has 28.

So the forms **agree on IPv4 and on nothing longer**: the kernel is given 12 bytes of an IPv6
destination that nobody wrote, and the last 12 bytes of an IPv6 source do not reach the caller.
-/

namespace VosStack.Syscall

open Memory

/-- An IPv4 or IPv6 address, without its family. -/
structure Inet where
  v6 : Bool
  data : List (BitVec 8)
  length_data : data.length = if v6 then 26 else 14
  deriving DecidableEq, Repr

namespace Inet

/-- `sizeof(struct sockaddr_in)` or `sizeof(struct sockaddr_in6)`. -/
def len (a : Inet) : ℕ := if a.v6 then 28 else 16

/-- The address in the Linux layout. -/
def linuxBytes (a : Inet) : List (BitVec 8) := (if a.v6 then 10 else 2) :: 0 :: a.data

/-- The address in the FreeBSD layout. -/
def sockAddr (a : Inet) : SockAddr where
  saLen := if a.v6 then 28 else 16
  rest := (if a.v6 then 28 else 2) :: a.data
  length_rest := by
    rw [List.length_cons, a.length_data]
    split_ifs <;> rfl

/-- The blocks when `a` is the destination. -/
def destination (a : Inet) : Heap Var := frame a.len (fun i => a.linuxBytes[i]?) none

/-- The message forms give the kernel the same address as the plain form. -/
def SendsAlike (a : Inet) (flags : BitVec 32) (answer : Answer (BitVec 64)) : Prop :=
  let plain := (ffSendto a.destination (some .caller) (BitVec.ofNat 32 a.len) answer).1
  (ffSendmsg a.destination ⟨some .caller, a.len, flags⟩ answer).1 = plain ∧
    (ffSctpSendmsg a.destination (some .caller) (BitVec.ofNat 32 a.len) answer).1 = plain

instance (a : Inet) (flags : BitVec 32) (answer : Answer (BitVec 64)) :
    Decidable (a.SendsAlike flags answer) :=
  inferInstanceAs (Decidable (_ ∧ _))

/-- The message form gives the caller the same bytes of the source address as the plain form, in a
buffer that is large enough, by `spare` bytes, and was not written to. -/
def ReceivesAlike (a : Inet) (spare : ℕ) (flags : BitVec 32) (retval : BitVec 64)
    (reported : BitVec 32) : Prop :=
  let cap := a.len + spare
  let h := frame cap (fun _ => none) (some a.sockAddr)
  let answer : Answer Received := .ok ⟨some a.sockAddr, retval, reported⟩
  ∀ i < a.len,
    (ffRecvmsg h ⟨some .caller, cap, 0⟩ flags answer).2.2.cell .caller i =
      (ffRecvfrom h flags (some .caller) (some cap) answer).heap.cell .caller i

variable {a : Inet}

theorem length_sockAddr : a.sockAddr.length = a.len := by
  rw [SockAddr.length, sockAddr, len]
  split_ifs <;> rfl

end Inet

/-! ### Receiving -/

section receiving

variable {a : SockAddr} {cap i : ℕ} {retval : BitVec 64} {old : ℕ → Cell}
  {flags reported : BitVec 32}

/-- The plain form delivers the whole address. -/
theorem cell_ffRecvfrom (h2 : 2 ≤ a.length) (hcap : a.length ≤ cap) :
    (ffRecvfrom (frame cap old (some a)) flags (some .caller) (some cap)
      (.ok ⟨some a, retval, reported⟩)).heap.cell .caller i =
      if i < a.length then a.linuxCell i else old i := by
  have hne : Var.caller ≠ .bsdaddr := nofun
  have hin := (a.in_frame cap old).copy (Nat.le_of_eq (copied_of_le hcap).symm)
  refine (hin.cell hne h2 .caller i).trans ?_
  rw [Heap.cell_copy_of_ne hne]
  exact if_congr (and_iff_right rfl) rfl rfl

/-- The message form delivers the first 16 bytes of it. -/
theorem cell_ffRecvmsg (h2 : 2 ≤ a.length) (hcap : a.length ≤ cap) :
    (ffRecvmsg (frame cap old (some a)) ⟨some .caller, cap, 0⟩ flags
      (.ok ⟨some a, retval, reported⟩)).2.2.cell .caller i =
      if i < 16 then if i < a.length then a.linuxCell i else none else old i := by
  have hne : Var.linuxaddr ≠ .bsdaddr := nofun
  have hin := SockAddr.in_arrived (a.in_frame cap old) hcap
  change ((toLinuxaddr (arrived _ cap _)).copy .caller 0 .linuxaddr 0 16).cell .caller i = _
  rw [hin.toLinuxaddr (by omega), Heap.cell_copy_front, hin.use.cell hne h2, hin.use.cell hne h2]
  refine if_congr Iff.rfl ?_ (if_neg fun hb => absurd hb.1 nofun)
  exact if_congr (and_iff_right rfl) rfl rfl

end receiving

namespace Inet

variable {a : Inet}

theorem receivesAlike_iff (spare : ℕ) (flags : BitVec 32) (retval : BitVec 64)
    (reported : BitVec 32) : a.ReceivesAlike spare flags retval reported ↔ a.v6 = false := by
  have hlen := a.length_sockAddr
  have h2 : 2 ≤ a.sockAddr.length := by
    rw [hlen, len]
    split_ifs <;> decide
  have hroom : a.sockAddr.length ≤ a.len + spare := hlen ▸ Nat.le_add_right _ _
  simp only [ReceivesAlike, cell_ffRecvmsg h2 hroom, cell_ffRecvfrom h2 hroom, hlen]
  cases hv : a.v6 with
  | false =>
    have h16 : a.len = 16 := by rw [len, hv]; rfl
    refine iff_of_true (fun i hi => ?_) rfl
    rw [if_pos (by omega)]
  | true =>
    -- the byte 16 of the source does not reach the caller
    have h28 : a.len = 28 := by rw [len, hv]; rfl
    refine iff_of_false (fun hall => ?_) nofun
    have h16 := hall 16 (by omega)
    rw [if_neg (by decide), if_pos (by omega)] at h16
    exact SockAddr.linuxCell_ne_none (by omega) h16.symm

/-! ### Sending -/

/-- The kernel is given what `getsockaddr` copies. -/
theorem presented_sendit (h : Heap Var) (v : Var) (n : ℕ) (flags : BitVec 32)
    (answer : Answer (BitVec 64)) :
    (sendit h ⟨some v, n, flags⟩ answer).1 = some (getsockaddr h v n) := by
  rw [sendit]
  cases hsa : getsockaddr h v n <;> simp only [hsa]

/-- The byte `i` of what the kernel is given. -/
theorem cell_of_getsockaddr_eq {h h' : Heap Var} {v : Var} {n i : ℕ} (h255 : n ≤ 255)
    (hi : 1 ≤ i) (hin : i < n) (heq : getsockaddr h v n = getsockaddr h' v n) :
    h.cell v i = h'.cell v i := by
  have hlong : ¬ n > 255 := by omega
  have hshort : ¬ n < 2 := by omega
  rw [getsockaddr, getsockaddr, if_neg hlong, if_neg hshort, if_neg hlong, if_neg hshort] at heq
  have hmap := (List.cons.inj (Except.ok.inj heq)).2
  have hget := congrArg (fun l => l[i - 1]?) hmap
  simp only [List.getElem?_map, List.getElem?_range (by omega : i - 1 < n - 1), Option.map_some,
    Nat.sub_add_cancel hi, Option.some_inj] at hget
  exact hget

/-- The blocks after the conversion of the first `n` bytes of the destination. -/
def converted (a : Inet) (n : BitVec 32) : Heap Var :=
  linux2freebsdSockaddr a.destination (some .caller) n .bsdaddr

theorem sendsAlike_iff_getsockaddr (flags : BitVec 32) (answer : Answer (BitVec 64)) :
    a.SendsAlike flags answer ↔ getsockaddr (a.converted 16) .bsdaddr a.len =
      getsockaddr (a.converted (BitVec.ofNat 32 a.len)) .bsdaddr a.len := by
  have hlen : (BitVec.ofNat 32 a.len).toNat = a.len := by
    rw [len]
    split_ifs <;> rfl
  have hplain : (ffSendto a.destination (some .caller) (BitVec.ofNat 32 a.len) answer).1 =
      some (getsockaddr (a.converted (BitVec.ofNat 32 a.len)) .bsdaddr a.len) := by
    refine (presented_sendit _ _ _ _ _).trans ?_
    rw [hlen]
    rfl
  have hmsg : ∀ fl, (ffSendmsg a.destination ⟨some .caller, a.len, fl⟩ answer).1 =
      some (getsockaddr (a.converted 16) .bsdaddr a.len) :=
    fun fl => presented_sendit _ _ _ _ _
  have hsctp : (ffSctpSendmsg a.destination (some .caller) (BitVec.ofNat 32 a.len) answer).1 =
      some (getsockaddr (a.converted 16) .bsdaddr a.len) := by
    refine (presented_sendit _ _ _ _ _).trans ?_
    rw [hlen]
    rfl
  rw [SendsAlike, hplain, hmsg, hsctp, and_self_iff, Option.some_inj]

theorem sendsAlike_iff (flags : BitVec 32) (answer : Answer (BitVec 64)) :
    a.SendsAlike flags answer ↔ a.v6 = false := by
  rw [sendsAlike_iff_getsockaddr]
  cases hv : a.v6 with
  | false =>
    have h16 : a.len = 16 := by rw [len, hv]; rfl
    refine iff_of_true ?_ rfl
    rw [h16]
    rfl
  | true =>
    -- the byte 16 of the destination was never converted
    have h28 : a.len = 28 := by rw [len, hv]; rfl
    have hdata : a.data.length = 26 := by rw [a.length_data, hv]; rfl
    refine iff_of_false (fun heq => ?_) nofun
    have hcell := cell_of_getsockaddr_eq (i := 16) (by omega) (by decide) (by omega) heq
    rw [converted, converted, h28, cell_linux2freebsd, cell_linux2freebsd, if_neg (by decide),
      if_pos (by decide), if_neg (by decide), if_neg (by decide)] at hcell
    have hlast : a.linuxBytes[16]? = none := hcell.symm
    rw [List.getElem?_eq_none_iff, linuxBytes, List.length_cons, List.length_cons, hdata] at hlast
    omega

/-- **The forms agree on IPv4 only**: on every destination given to the kernel, and on every source
given to a caller whose buffer has room for it. -/
theorem forms_agree_iff (a : Inet) :
    (∀ flags answer, a.SendsAlike flags answer ↔ a.v6 = false) ∧
      ∀ spare flags retval reported,
        a.ReceivesAlike spare flags retval reported ↔ a.v6 = false :=
  ⟨sendsAlike_iff, receivesAlike_iff⟩

/-- The destination `::1`. -/
def loopback6 : Inet := ⟨true, List.replicate 21 0 ++ [1, 0, 0, 0, 0], rfl⟩

/-- Of the destination `::1` the message form gives the kernel the first 16 bytes only. -/
theorem sendmsg_loopback6 :
    ¬ loopback6.SendsAlike 0 (.ok 0) ∧
    (ffSendmsg loopback6.destination ⟨some .caller, 28, 0⟩ (.ok 0)).1 =
      some (.ok (some 28 :: some 28 :: List.replicate 14 (some 0) ++ List.replicate 12 none)) ∧
    (ffSendto loopback6.destination (some .caller) 28 (.ok 0)).1 =
      some (.ok (some 28 :: some 28 :: List.replicate 21 (some 0) ++ some 1 ::
        List.replicate 4 (some 0))) := by
  decide

end Inet

end VosStack.Syscall
