import Mathlib.Data.Int.Notation
import VosStack.Syscall.Sockaddr

/-!
# The socket calls with an address

The wrappers of `syscall_wrapper.c` take and give addresses in the Linux layout and call the kernel
with the FreeBSD one. Here each wrapper is translated as far as the **address** goes: the blocks it
passes to the kernel and copies back, the lengths, and the name pointer and the flags of the
message. The data and the control messages are left out.

The kernel's part is an input: the error, or the address it supplies (`fromsa`, none if there is
none), the number of bytes and the flags. Of `kern_recvit` the address part is translated: it copies
`MIN(msg_namelen, sa_len)` bytes of the address to `msg_name`. Of `sendit` it is `getsockaddr`,
which copies `msg_namelen` bytes of the name.

Lengths of type `socklen_t` are natural numbers where they are only compared and copied. The
result `td_retval[0]` has 64 bits and every wrapper stores it in an `int` (`rcOf`): a call that
moved `2 ^ 31` bytes returns a negative number.
-/

namespace VosStack.Syscall

open Memory

/-- The blocks that hold addresses. -/
inductive Var
  /-- the buffer of the caller -/
  | caller
  /-- `struct sockaddr_storage`, a local of the wrapper (`freebsd_sa` in `ff_sendmsg`) -/
  | bsdaddr
  /-- `struct linux_sockaddr`, a local of `ff_recvmsg` -/
  | linuxaddr
  /-- `struct linux_sockaddr`, a local of `vos_sock_sctp_recvmsg` -/
  | fromaddr
  /-- the address of the kernel -/
  | kernel
  deriving DecidableEq, Repr

/-- An address of the kernel: `sa_len`, and the bytes up to this length. -/
structure SockAddr where
  saLen : BitVec 8
  rest : List (BitVec 8)
  length_rest : rest.length = saLen.toNat - 1
  deriving DecidableEq, Repr

namespace SockAddr

/-- All its bytes. There is a byte for `sa_len` even if it is 0. -/
def bytes (a : SockAddr) : List (BitVec 8) := a.saLen :: a.rest

/-- Its length. -/
def length (a : SockAddr) : ℕ := a.saLen.toNat

end SockAddr

/-- The length of what the kernel supplies. -/
def addrLength (fromsa : Option SockAddr) : ℕ := fromsa.elim 0 SockAddr.length

/-- `int rc = curthread->td_retval[0]`. -/
def rcOf (retval : BitVec 64) : ℤ := (retval.setWidth 32).toInt

/-- What `kern_recvit` receives. -/
structure Received where
  fromsa : Option SockAddr
  /-- `td_retval[0]` -/
  retval : BitVec 64
  /-- the flags of the message -/
  flags : BitVec 32
  deriving DecidableEq, Repr

/-- The outcome of a kernel call: an error number, or a result. -/
abbrev Answer (α : Type*) := Except ℕ α

/-- The fields of `struct msghdr` that matter for the address. -/
structure Msghdr where
  msgName : Option Var
  msgNamelen : ℕ
  msgFlags : BitVec 32
  deriving DecidableEq, Repr

/-- The blocks at a call: the caller's with `cap` bytes, locals nobody wrote to, and the address
that the kernel will supply. -/
def frame (cap : ℕ) (old : ℕ → Cell) (fromsa : Option SockAddr) : Heap Var where
  size
    | .caller => cap
    | .bsdaddr => 128
    | .linuxaddr => 16
    | .fromaddr => 16
    | .kernel => fromsa.elim 0 fun a => a.bytes.length
  cell
    | .caller, i => old i
    | .kernel, i => fromsa.bind fun a => a.bytes[i]?
    | .bsdaddr, _ | .linuxaddr, _ | .fromaddr, _ => none
  faults := []

/-! ### Receiving -/

/-- What `kern_recvit` copies of an address, at most `msg_namelen` bytes. -/
def copied (namelen : ℕ) (fromsa : Option SockAddr) : ℕ :=
  fromsa.elim 0 fun a => min namelen a.length

theorem copied_of_le {namelen : ℕ} {a : SockAddr} (h : a.length ≤ namelen) :
    copied namelen (some a) = a.length := Nat.min_eq_right h

/-- The address part of a successful `kern_recvit`. -/
def kernRecvit (h : Heap Var) (msg : Msghdr) (r : Received) : Heap Var × Msghdr :=
  match msg.msgName with
  | none => (h, { msg with msgFlags := r.flags })
  | some name =>
      let len := copied msg.msgNamelen r.fromsa
      (h.copy name 0 .kernel 0 len, { msg with msgNamelen := len, msgFlags := r.flags })

/-- What a receiving call returns: its result, `*len` and `*msg_flags` if there are such variables,
and the blocks. -/
structure Returned where
  rc : ℤ
  len : Option ℕ
  flags : Option (BitVec 32)
  heap : Heap Var

/-- `ff_recvfrom`. -/
def ffRecvfrom (h : Heap Var) (flags : BitVec 32) (from' : Option Var) (fromlen : Option ℕ)
    (answer : Answer Received) : Returned :=
  let msg : Msghdr := ⟨some .bsdaddr, fromlen.getD 0, flags⟩
  match answer with
  | .error _ => ⟨-1, fromlen, none, h⟩
  | .ok r =>
      let (h, msg) := kernRecvit h msg r
      let fromlen := fromlen.map fun _ => msg.msgNamelen
      ⟨rcOf r.retval, fromlen, none, freebsd2linuxSockaddr h from' .bsdaddr⟩

/-- What `ff_recvmsg` does with the address in `bsdaddr`: it is converted if its length is positive,
`if (bsdaddr.ss_len>0)`. -/
def toLinuxaddr (h : Heap Var) : Heap Var :=
  let ss_len := h.byte .bsdaddr 0
  let h := h.use .bsdaddr 0
  if ss_len ≠ 0 then freebsd2linuxSockaddr h (some .linuxaddr) .bsdaddr else h

/-- The header with which `ff_recvmsg` calls `kern_recvit`; its flags are the request. -/
def recvmsgHeader (msg : Msghdr) (flags : BitVec 32) : Msghdr :=
  { msg with msgFlags := flags, msgName := some .bsdaddr }

/-- `ff_recvmsg`: the result, the message header and the blocks. -/
def ffRecvmsg (h : Heap Var) (msg : Msghdr) (flags : BitVec 32) (answer : Answer Received) :
    ℤ × Msghdr × Heap Var :=
  let ptem := msg.msgName
  let h := h.fill .bsdaddr 128 0
  let msg := recvmsgHeader msg flags
  match answer with
  | .error _ => (-1, { msg with msgFlags := 0 }, h)
  | .ok r =>
      let (h, msg) := kernRecvit h msg r
      let h := toLinuxaddr h
      match ptem with
      | some p => (rcOf r.retval, { msg with msgName := some p }, h.copy p 0 .linuxaddr 0 16)
      | none => (rcOf r.retval, msg, h)

/-- `ff_accept`. The address that `kern_accept` allocates is `pf`. -/
def ffAccept (h : Heap Var) (addr : Option Var) (addrlen : Option ℕ)
    (answer : Answer Received) : Returned :=
  match answer with
  | .error _ => ⟨-1, addrlen, none, h⟩
  | .ok r =>
      match r.fromsa, addrlen with
      | some _, some _ =>
          let h := freebsd2linuxSockaddr h addr .kernel
          ⟨rcOf r.retval, some (h.byte .kernel 0).toNat, none, h.use .kernel 0⟩
      | some _, none => ⟨rcOf r.retval, none, none, freebsd2linuxSockaddr h addr .kernel⟩
      -- `pf->sa_len` with a null `pf`
      | none, some len => ⟨rcOf r.retval, some len, none, h.note [.null]⟩
      | none, none => ⟨rcOf r.retval, none, none, h⟩

/-- `inmsg` of `ff_sctp_recvmsg`. -/
def sctpHeader (from' : Option Var) (fromlen : Option ℕ) : Msghdr := ⟨from', fromlen.getD 0, 0⟩

/-- `ff_sctp_recvmsg`. -/
def ffSctpRecvmsg (h : Heap Var) (from' : Option Var) (fromlen : Option ℕ)
    (msgFlags : Option (BitVec 32)) (answer : Answer Received) : Returned :=
  let (error, inmsg, h) := ffRecvmsg h (sctpHeader from' fromlen) (msgFlags.getD 0) answer
  if error < 0 then ⟨error, fromlen, msgFlags, h⟩
  else ⟨error, fromlen.map fun _ => inmsg.msgNamelen, msgFlags.map fun _ => inmsg.msgFlags, h⟩

/-- `LINUX_MSG_NOTIFICATION`. -/
def LINUX_MSG_NOTIFICATION : BitVec 32 := 0x8000

/-- `FREEBSD_MSG_NOTIFICATION`. -/
def FREEBSD_MSG_NOTIFICATION : BitVec 32 := 0x2000

/-- `LINUX_MSG_EOR`. -/
def LINUX_MSG_EOR : BitVec 32 := 0x80

/-- `FREEBSD_MSG_EOR`. -/
def FREEBSD_MSG_EOR : BitVec 32 := 0x8

/-- The flags of the caller after a message with the flags `flags`. -/
def linuxFlags (flags msgFlags : BitVec 32) : BitVec 32 :=
  let msgFlags := if flags &&& FREEBSD_MSG_NOTIFICATION ≠ 0 then msgFlags ||| LINUX_MSG_NOTIFICATION
    else msgFlags
  if flags &&& FREEBSD_MSG_EOR ≠ 0 then msgFlags ||| LINUX_MSG_EOR else msgFlags

/-- `vos_sock_sctp_recvmsg`. The address is copied to the caller also after an error. -/
def vosSockSctpRecvmsg (h : Heap Var) (from' : Option Var) (fromlen : Option ℕ)
    (msgFlags : Option (BitVec 32)) (answer : Answer Received) : Returned :=
  let r := ffSctpRecvmsg h (some .fromaddr) fromlen (some (msgFlags.getD 0)) answer
  let h := match from', r.len with
    | some p, some len => r.heap.copy p 0 .fromaddr 0 len
    | some _, none => r.heap.note [.null]
    | none, _ => r.heap
  let msgFlags := if r.rc > 0 then msgFlags.map (linuxFlags (r.flags.getD 0)) else msgFlags
  ⟨r.rc, r.len, msgFlags, h⟩

/-- The blocks when the kernel has copied the address for `ff_recvmsg`. -/
def arrived (h : Heap Var) (namelen : ℕ) (fromsa : Option SockAddr) : Heap Var :=
  (h.fill .bsdaddr 128 0).copy .bsdaddr 0 .kernel 0 (copied namelen fromsa)

section sctp

variable (h : Heap Var) (q : Var) (cap : ℕ) (flags : BitVec 32) (r : Received) (e : ℕ)

/-- The inner call, when it succeeds in the kernel. -/
theorem ffSctpRecvmsg_ok (fromlen : Option ℕ) (msgFlags : Option (BitVec 32)) :
    ffSctpRecvmsg h (some q) fromlen msgFlags (.ok r) =
      let heap := (toLinuxaddr (arrived h (fromlen.getD 0) r.fromsa)).copy q 0 .linuxaddr 0 16
      if rcOf r.retval < 0 then ⟨rcOf r.retval, fromlen, msgFlags, heap⟩
      else ⟨rcOf r.retval, fromlen.map fun _ => copied (fromlen.getD 0) r.fromsa,
        msgFlags.map fun _ => r.flags, heap⟩ := rfl

/-- A call that succeeds in the kernel. If the `int` is negative, `*fromlen` is not set; the flags
are translated if it is positive. -/
theorem vosSockSctpRecvmsg_ok :
    vosSockSctpRecvmsg h (some q) (some cap) (some flags) (.ok r) =
      let len := if rcOf r.retval < 0 then cap else copied cap r.fromsa
      ⟨rcOf r.retval, some len,
        some (if rcOf r.retval > 0 then linuxFlags r.flags flags else flags),
        ((toLinuxaddr (arrived h cap r.fromsa)).copy .fromaddr 0 .linuxaddr 0 16).copy
          q 0 .fromaddr 0 len⟩ := by
  simp only [vosSockSctpRecvmsg, Option.getD_some, ffSctpRecvmsg_ok]
  by_cases hneg : rcOf r.retval < 0
  · have hpos : ¬rcOf r.retval > 0 := by omega
    simp only [if_pos hneg, if_neg hpos]
  · simp only [if_neg hneg, Option.map_some, Option.getD_some, apply_ite some]

/-- A failed call. -/
theorem vosSockSctpRecvmsg_error :
    vosSockSctpRecvmsg h (some q) (some cap) (some flags) (.error e) =
      ⟨-1, some cap, some flags, (h.fill .bsdaddr 128 0).copy q 0 .fromaddr 0 cap⟩ := rfl

end sctp

/-! ### Sending -/

/-- `EINVAL`. -/
def EINVAL : ℕ := 22

/-- `ENAMETOOLONG`. -/
def ENAMETOOLONG : ℕ := 63

/-- `getsockaddr`: the kernel's copy of `len` bytes of an address. It sets `sa_len` itself. -/
def getsockaddr (h : Heap Var) (uaddr : Var) (len : ℕ) : Answer (List Cell) :=
  if len > 255 then .error ENAMETOOLONG
  else if len < 2 then .error EINVAL
  else .ok (some (BitVec.ofNat 8 len) :: (List.range (len - 1)).map fun i => h.cell uaddr (i + 1))

/-- The address part of `sendit`: what the kernel is given as the address, if there is a name, the
result, and the message header, in which the name is the kernel's copy then. -/
def sendit (h : Heap Var) (msg : Msghdr) (answer : Answer (BitVec 64)) :
    Option (Answer (List Cell)) × Answer (BitVec 64) × Msghdr :=
  match msg.msgName with
  | none => (none, answer, msg)
  | some name =>
      match getsockaddr h name msg.msgNamelen with
      | .error e => (some (.error e), .error e, msg)
      | .ok sa => (some (.ok sa), answer, { msg with msgName := some .kernel })

/-- The result of a sending call. -/
def sendResult : Answer (BitVec 64) → ℤ
  | .error _ => -1
  | .ok retval => rcOf retval

/-- `ff_sendto`: the address as the kernel sees it, and the result. -/
def ffSendto (h : Heap Var) (to' : Option Var) (tolen : BitVec 32) (answer : Answer (BitVec 64)) :
    Option (Answer (List Cell)) × ℤ :=
  let h := linux2freebsdSockaddr h to' tolen .bsdaddr
  let pf := to'.map fun _ => Var.bsdaddr
  let (presented, rc, _) := sendit h ⟨pf, tolen.toNat, 0⟩ answer
  (presented, sendResult rc)

/-- `ff_sendmsg`: the address as the kernel sees it, the result, and the message header. The length
given to the conversion is `sizeof(struct linux_sockaddr)`. -/
def ffSendmsg (h : Heap Var) (msg : Msghdr) (answer : Answer (BitVec 64)) :
    Option (Answer (List Cell)) × ℤ × Msghdr :=
  let linux_sa := msg.msgName
  let h := linux2freebsdSockaddr h linux_sa 16 .bsdaddr
  let msg := { msg with msgName := linux_sa.map fun _ => .bsdaddr }
  let (presented, rc, msg) := sendit h msg answer
  (presented, sendResult rc, { msg with msgName := linux_sa })

/-- `ff_sctp_sendmsg`. -/
def ffSctpSendmsg (h : Heap Var) (to' : Option Var) (tolen : BitVec 32)
    (answer : Answer (BitVec 64)) : Option (Answer (List Cell)) × ℤ :=
  let (presented, rc, _) := ffSendmsg h ⟨to', tolen.toNat, 0⟩ answer
  (presented, rc)

/-! ### The name pointer

A message header may be used again after a call, so the caller's pointer has to be in it. -/

/-- **The name pointer after a call.** `ff_sendmsg` always puts the caller's pointer back.
`ff_recvmsg` does after a successful call with a name; otherwise it leaves the address of its local,
which is the caller's pointer only if an earlier call left it there. -/
theorem msgName_restored_iff (h : Heap Var) (msg : Msghdr) (flags : BitVec 32)
    (answer : Answer Received) (answer' : Answer (BitVec 64)) :
    ((ffRecvmsg h msg flags answer).2.1.msgName = msg.msgName ↔
      (∃ r, answer = .ok r) ∧ msg.msgName ≠ none ∨ msg.msgName = some .bsdaddr) ∧
    (ffSendmsg h msg answer').2.2.msgName = msg.msgName := by
  refine ⟨?_, rfl⟩
  cases answer with
  | error e =>
    change some Var.bsdaddr = msg.msgName ↔ _
    rw [eq_comm]
    exact (or_iff_right fun hok => absurd hok.1.choose_spec nofun).symm
  | ok r =>
    obtain ⟨name, namelen, msgFlags⟩ := msg
    cases name with
    | none => exact iff_of_false nofun fun hor => hor.elim (fun hne => hne.2 rfl) nofun
    | some p => exact iff_of_true rfl (.inl ⟨⟨r, rfl⟩, nofun⟩)

/-- A receive that fails with `EWOULDBLOCK` leaves the address of a local in the header. -/
theorem recvmsg_error_leaves_local :
    (ffRecvmsg (frame 16 (fun _ => none) none) ⟨some .caller, 16, 0⟩ 0 (.error 35)).2.1.msgName
      = some .bsdaddr := rfl

/-! ### Converting an address of the kernel -/

namespace SockAddr

variable {a : SockAddr}

theorem length_bytes (h1 : 1 ≤ a.length) : a.bytes.length = a.length := by
  rw [bytes, List.length_cons, a.length_rest]
  exact Nat.sub_add_cancel h1

theorem getElem?_bytes_ne_none {i : ℕ} (hi : i < a.length) : a.bytes[i]? ≠ none := by
  rw [Ne, List.getElem?_eq_none_iff, length_bytes (by omega)]
  omega

/-- The family of an address that has one. -/
def family (a : SockAddr) : BitVec 8 := a.bytes[1]?.getD 0

/-- The byte `i` of the address in the Linux layout. -/
def linuxCell (a : SockAddr) (i : ℕ) : Cell :=
  if i = 0 then some ((linuxFamily a.family).setWidth 8)
  else if i = 1 then some ((linuxFamily a.family).extractLsb' 8 8)
  else a.bytes[i]?

theorem linuxCell_ne_none {i : ℕ} (hi : i < a.length) : a.linuxCell i ≠ none := by
  rw [linuxCell]
  split_ifs
  · exact Option.some_ne_none _
  · exact Option.some_ne_none _
  · exact getElem?_bytes_ne_none hi

/-- The block `f` holds the address. -/
def In (a : SockAddr) (h : Heap Var) (f : Var) : Prop := ∀ i < a.length, h.cell f i = a.bytes[i]?

variable {h : Heap Var} {l f : Var}

theorem In.saLen (ha : a.In h f) (h1 : 1 ≤ a.length) : h.cell f 0 = some a.saLen :=
  ha 0 h1

theorem In.two_add_dataLen (ha : a.In h f) (h2 : 2 ≤ a.length) :
    2 + dataLen (h.byte f 0) = a.length := by
  rw [Heap.byte_of_cell (ha.saLen (by omega))]
  exact dataLen_add_two (by decide) h2

/-- The conversion of a whole address has to have room. -/
theorem In.clean_iff (ha : a.In h f) (hne : l ≠ f) (h2 : 2 ≤ a.length) :
    (freebsd2linuxSockaddr h (some l) f).Clean ↔
      h.Clean ∧ a.length ≤ h.size f ∧ a.length ≤ h.size l := by
  have hlen := ha.two_add_dataLen h2
  have h0 : h.cell f 0 ≠ none := ha 0 (by omega) ▸ getElem?_bytes_ne_none (by omega)
  have h1 : h.cell f 1 ≠ none := ha 1 (by omega) ▸ getElem?_bytes_ne_none (by omega)
  rw [clean_freebsd2linux_iff hne, hlen]
  constructor
  · rintro ⟨hclean, -, ⟨hf2, hf⟩, hl2, hl⟩
    exact ⟨hclean, by omega, by omega⟩
  · rintro ⟨hclean, hf, hl⟩
    exact ⟨hclean, ⟨h0, h1⟩, ⟨by omega, fun _ => hf⟩, by omega, fun _ => hl⟩

/-- The converted address is the address in the Linux layout, and nothing more is written. -/
theorem In.cell (ha : a.In h f) (hne : l ≠ f) (h2 : 2 ≤ a.length) (b : Var) (i : ℕ) :
    (freebsd2linuxSockaddr h (some l) f).cell b i =
      if b = l ∧ i < a.length then a.linuxCell i else h.cell b i := by
  have hfam : h.byte f 1 = a.family := by rw [Heap.byte, ha 1 (by omega), family]
  rw [cell_freebsd2linux hne, ha.two_add_dataLen h2, hfam, linuxCell]
  split_ifs with hi
  · rfl
  · rfl
  · exact ha i hi.2
  · rfl

/-- After the conversion every byte has a value that had one before. -/
theorem In.cell_ne_none {b : Var} {i : ℕ} (ha : a.In h f) (hne : l ≠ f) (h2 : 2 ≤ a.length)
    (hold : h.cell b i ≠ none) : (freebsd2linuxSockaddr h (some l) f).cell b i ≠ none := by
  rw [ha.cell hne h2]
  split_ifs with hi
  · exact linuxCell_ne_none hi.2
  · exact hold

/-- The kernel's own copy. -/
theorem in_frame (cap : ℕ) (old : ℕ → Cell) : a.In (frame cap old (some a)) .kernel :=
  fun _ _ => rfl

/-- `kern_recvit` copies the whole address if there is room. -/
theorem In.copy {m : ℕ} (ha : a.In h .kernel) (hm : a.length ≤ m) :
    a.In (h.copy .bsdaddr 0 .kernel 0 m) .bsdaddr := by
  intro i hi
  rw [Heap.cell_copy_front, if_pos (by omega)]
  exact ha i hi

theorem In.use {b : Var} {off : ℕ} (ha : a.In h f) : a.In (h.use b off) f := ha

theorem saLen_ne_zero (h1 : 1 ≤ a.length) : a.saLen ≠ 0 := by
  intro h0
  have : a.length = 0 := congrArg BitVec.toNat h0
  omega

/-- For `ff_recvmsg` it is copied into a block of zeros. -/
theorem in_arrived {cap : ℕ} (ha : a.In h .kernel) (hcap : a.length ≤ cap) :
    a.In (arrived h cap (some a)) .bsdaddr :=
  In.copy (h := h.fill .bsdaddr 128 0) ha (Nat.le_of_eq (copied_of_le hcap).symm)

/-- An address in `bsdaddr` is converted. -/
theorem In.toLinuxaddr (ha : a.In h .bsdaddr) (h1 : 1 ≤ a.length) :
    toLinuxaddr h = freebsd2linuxSockaddr (h.use .bsdaddr 0) (some .linuxaddr) .bsdaddr := by
  rw [Syscall.toLinuxaddr, Heap.byte_of_cell (ha.saLen h1)]
  exact if_pos (saLen_ne_zero h1)

end SockAddr

end VosStack.Syscall
