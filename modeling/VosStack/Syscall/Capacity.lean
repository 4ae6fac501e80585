import VosStack.Syscall.Messages

/-!
# Addresses and the capacity of the caller's buffer

A call that returns an address is given a buffer and its capacity in `*len`. It has to write no more
than the capacity, to read no more than the kernel's address, and to set `*len` to the length of the
address. `Respects` says this of a run of the call on blocks of the right sizes: no **fault**, no
byte without a value in the caller's buffer, and the length.

None of the three wrappers looks at the capacity when it copies. `freebsd2linux_sockaddr` copies as
many bytes as the address itself says, and

* `ff_recvfrom` runs it on a local that the kernel may not have written at all,
* `ff_accept` reads the length through a null pointer if there is no address,
* `vos_sock_sctp_recvmsg` has the address converted into a local of 16 bytes, and copies that local
  to the caller also after an error. It takes a call that received from `2 ^ 31` bytes on for one,
  since the number of bytes is an `int` then, and does not set `*len`.

`Fits` is what the address and the capacity have to be for each of them to be right.
-/

namespace VosStack.Syscall

open Memory

/-- The calls that return an address. -/
inductive AddrCall
  | recvfrom
  | accept
  | sctpRecvmsg
  deriving DecidableEq, Repr

namespace AddrCall

/-- What the kernel supplies. -/
def supplied : Answer Received → Option SockAddr
  | .error _ => none
  | .ok r => r.fromsa

/-- The call, with a buffer of `cap` bytes that hold `old` and `cap` in `*len`. -/
def run (c : AddrCall) (cap : ℕ) (old : ℕ → BitVec 8) (flags : BitVec 32)
    (answer : Answer Received) : Returned :=
  let h := frame cap (fun i => some (old i)) (supplied answer)
  match c with
  | .recvfrom => ffRecvfrom h flags (some .caller) (some cap) answer
  | .accept => ffAccept h (some .caller) (some cap) answer
  | .sctpRecvmsg => vosSockSctpRecvmsg h (some .caller) (some cap) (some flags) answer

/-- The call keeps to the buffer and to the address, and a successful one sets `*len` to the length
of the address. -/
structure Respects (c : AddrCall) (cap : ℕ) (old : ℕ → BitVec 8) (flags : BitVec 32)
    (answer : Answer Received) : Prop where
  clean : (c.run cap old flags answer).heap.Clean
  cell : ∀ i < cap, (c.run cap old flags answer).heap.cell .caller i ≠ none
  len : ∀ r, answer = .ok r → (c.run cap old flags answer).len = some (addrLength r.fromsa)

/-- The condition on the capacity and on what the kernel supplies. -/
def Fits (c : AddrCall) (cap : ℕ) (answer : Answer Received) : Prop :=
  match c, answer with
  | .recvfrom, .error _ | .accept, .error _ => True
  | .recvfrom, .ok r => 2 ≤ addrLength r.fromsa ∧ addrLength r.fromsa ≤ min cap 128
  | .accept, .ok r => 2 ≤ addrLength r.fromsa ∧ addrLength r.fromsa ≤ cap
  | .sctpRecvmsg, .error _ => cap = 0
  | .sctpRecvmsg, .ok r =>
      (rcOf r.retval < 0 → addrLength r.fromsa = cap) ∧
        (addrLength r.fromsa = 0 ∨ 2 ≤ addrLength r.fromsa ∧ addrLength r.fromsa ≤ min cap 16)

variable {cap : ℕ} {old : ℕ → BitVec 8} {flags : BitVec 32} {a : SockAddr} {r : Received}

/-- A conversion without a fault has found at least a length and a family, and room for the whole
address at both ends, also if only `m` bytes of it are there. -/
theorem le_of_clean {h : Heap Var} {l f : Var} {m : ℕ} (hne : l ≠ f) (hm : m ≤ a.length)
    (hcell : ∀ i, h.cell f i = if i < m then a.bytes[i]? else none)
    (hclean : (freebsd2linuxSockaddr h (some l) f).Clean) :
    2 ≤ a.length ∧ a.length ≤ h.size f ∧ a.length ≤ h.size l := by
  obtain ⟨-, ⟨-, h1⟩, ⟨hf2, hf⟩, hl2, hl⟩ := (clean_freebsd2linux_iff hne).mp hclean
  have h1m : 1 < m := by
    by_contra hlt
    exact h1 ((hcell 1).trans (if_neg hlt))
  have h2 : 2 ≤ a.length := by omega
  have hlen : 2 + dataLen (h.byte f 0) = a.length := by
    rw [Heap.byte_of_cell ((hcell 0).trans (if_pos (by omega)))]
    exact dataLen_add_two (by decide) h2
  exact ⟨h2, by omega, by omega⟩

/-- A capacity that is large enough lets the kernel copy all it supplies. -/
theorem copied_of_addrLength_le {fromsa : Option SockAddr} (h : addrLength fromsa ≤ cap) :
    copied cap fromsa = addrLength fromsa := by
  cases fromsa with
  | none => rfl
  | some a => exact copied_of_le h

/-! ### `ff_recvfrom` -/

/-- What the kernel leaves in `bsdaddr`. -/
theorem cell_bsdaddr (cap' m i : ℕ) (old' : ℕ → Cell) :
    ((frame cap' old' (some a)).copy .bsdaddr 0 .kernel 0 m).cell .bsdaddr i =
      if i < m then a.bytes[i]? else none :=
  Heap.cell_copy_front

/-- The kernel's copy goes without a fault as long as `bsdaddr` has room. -/
theorem clean_kernel_copy {h : Heap Var} {m : ℕ} (hclean : h.Clean) (hm : m ≤ a.length)
    (hkernel : h.size .kernel = a.bytes.length) (h128 : m ≤ h.size .bsdaddr) :
    (h.copy .bsdaddr 0 .kernel 0 m).Clean := by
  refine Heap.clean_copy_iff.mpr ⟨hclean, fun hpos => ?_, fun _ => by omega⟩
  rw [hkernel, SockAddr.length_bytes (by omega)]
  omega

theorem respects_recvfrom_iff :
    Respects .recvfrom cap old flags (.ok r) ↔ Fits .recvfrom cap (.ok r) := by
  obtain ⟨fromsa, retval, reported⟩ := r
  have hne : Var.caller ≠ .bsdaddr := nofun
  cases fromsa with
  | none =>
    refine iff_of_false (fun h => ?_) fun h => Nat.not_succ_le_zero 1 h.1
    have h0 := ((clean_freebsd2linux_iff hne).mp h.clean).2.1.1
    exact h0 rfl
  | some a =>
    constructor
    · intro h
      obtain ⟨h2, h128, hcap⟩ := le_of_clean hne (Nat.min_le_right cap a.length)
        (fun i => cell_bsdaddr cap _ i _) h.clean
      exact ⟨h2, Nat.le_min.mpr ⟨hcap, h128⟩⟩
    · rintro ⟨h2, hle⟩
      obtain ⟨hcap, h128⟩ := Nat.le_min.mp hle
      have hlen := copied_of_le hcap
      have hin := (a.in_frame cap fun i => some (old i)).copy (Nat.le_of_eq hlen.symm)
      refine ⟨(hin.clean_iff hne h2).mpr ⟨?_, h128, hcap⟩, fun i hi => ?_, ?_⟩
      · exact clean_kernel_copy rfl (Nat.min_le_right _ _) rfl
          (Nat.le_trans (Nat.le_of_eq hlen) h128)
      · refine hin.cell_ne_none hne h2 ?_
        rw [Heap.cell_copy_of_ne hne]
        exact Option.some_ne_none _
      · rintro _ ⟨⟩
        exact congrArg some hlen

/-! ### `ff_accept` -/

theorem respects_accept_iff :
    Respects .accept cap old flags (.ok r) ↔ Fits .accept cap (.ok r) := by
  obtain ⟨fromsa, retval, reported⟩ := r
  have hne : Var.caller ≠ .kernel := nofun
  cases fromsa with
  | none => exact iff_of_false (fun h => absurd h.clean nofun) fun h => Nat.not_succ_le_zero 1 h.1
  | some a =>
    constructor
    · intro h
      have hclean := (Heap.clean_use_iff.mp h.clean).1
      have h1 := ((clean_freebsd2linux_iff hne).mp hclean).2.1.2
      have h2 : 2 ≤ a.length := by
        by_contra hlt
        refine h1 (List.getElem?_eq_none_iff.mpr ?_)
        rw [SockAddr.bytes, List.length_cons, a.length_rest]
        have : a.saLen.toNat < 2 := Nat.not_le.mp hlt
        omega
      exact ⟨h2, (((a.in_frame cap _).clean_iff hne h2).mp hclean).2.2⟩
    · rintro ⟨(h2 : 2 ≤ a.length), (hcap : a.length ≤ cap)⟩
      have hin := a.in_frame cap fun i => some (old i)
      have hkernel : (freebsd2linuxSockaddr (frame cap (fun i => some (old i)) (some a))
          (some .caller) .kernel).cell .kernel 0 = some a.saLen := by
        rw [hin.cell hne h2, if_neg fun hb => hne hb.1.symm]
        rfl
      have hbytes : a.bytes.length = a.length := SockAddr.length_bytes (Nat.le_of_succ_le h2)
      refine ⟨Heap.clean_use_iff.mpr ⟨(hin.clean_iff hne h2).mpr ⟨rfl, ?_, hcap⟩, ?_, ?_⟩,
        fun i hi => ?_, ?_⟩
      · exact Nat.le_of_eq hbytes.symm
      · exact Nat.lt_of_lt_of_eq (by omega : 0 < a.length) hbytes.symm
      · exact ne_of_eq_of_ne hkernel (Option.some_ne_none _)
      · have hcell := hin.cell_ne_none (b := .caller) (i := i) hne h2 (Option.some_ne_none _)
        exact hcell
      · rintro _ ⟨⟩
        exact congrArg (fun v => some (BitVec.toNat v)) (Heap.byte_of_cell hkernel)

/-! ### `vos_sock_sctp_recvmsg` -/

/-- After a failed call as many bytes without a value are copied as the caller has room for. -/
theorem respects_sctpRecvmsg_error_iff {e : ℕ} :
    Respects .sctpRecvmsg cap old flags (.error e) ↔ cap = 0 := by
  constructor
  · intro h
    by_contra hpos
    have hpos := Nat.pos_of_ne_zero hpos
    have hrun : run .sctpRecvmsg cap old flags (.error e) = _ := vosSockSctpRecvmsg_error _ _ _ _ _
    refine h.cell 0 hpos ?_
    rw [hrun, Heap.cell_copy_front, if_pos hpos]
    rfl
  · rintro rfl
    exact ⟨rfl, fun i hi => absurd hi (Nat.not_lt_zero i), fun _ => nofun⟩

variable {fromsa : Option SockAddr} {h : Heap Var}

/-- Without an address, or with an empty one, `bsdaddr` keeps its zeros and nothing is converted. -/
theorem toLinuxaddr_arrived_of_zero (hzero : copied cap fromsa = 0) :
    toLinuxaddr (arrived h cap fromsa) = (arrived h cap fromsa).use .bsdaddr 0 := by
  have h0 : (arrived h cap fromsa).byte .bsdaddr 0 = 0 := by
    rw [arrived, hzero]
    rfl
  rw [toLinuxaddr, h0]
  exact if_neg fun hne => hne rfl

/-- The blocks after the whole call. -/
def delivered (cap : ℕ) (old : ℕ → BitVec 8) (fromsa : Option SockAddr) : Heap Var :=
  ((toLinuxaddr (arrived (frame cap (fun i => some (old i)) fromsa) cap fromsa)).copy
    .fromaddr 0 .linuxaddr 0 16).copy .caller 0 .fromaddr 0 (copied cap fromsa)

theorem respects_sctpRecvmsg_ok_iff : Respects .sctpRecvmsg cap old flags (.ok r) ↔
    (rcOf r.retval < 0 → addrLength r.fromsa = cap) ∧
      (delivered cap old r.fromsa).Clean ∧
      (∀ i < cap, (delivered cap old r.fromsa).cell .caller i ≠ none) ∧
      copied cap r.fromsa = addrLength r.fromsa := by
  have hrun : run .sctpRecvmsg cap old flags (.ok r) = _ := vosSockSctpRecvmsg_ok _ _ _ _ _
  -- a negative result leaves the capacity as the length: it has to be that of the address
  have hlen_iff : (if rcOf r.retval < 0 then cap else copied cap r.fromsa) = addrLength r.fromsa ↔
      (rcOf r.retval < 0 → addrLength r.fromsa = cap) ∧
        copied cap r.fromsa = addrLength r.fromsa := by
    split_ifs with hneg
    · refine ⟨fun h => ⟨fun _ => h.symm, ?_⟩, fun h => (h.1 hneg).symm⟩
      rw [copied_of_addrLength_le (Nat.le_of_eq h.symm)]
    · exact (and_iff_right fun h => absurd h hneg).symm
  have hheap (hlen : (if rcOf r.retval < 0 then cap else copied cap r.fromsa) =
      addrLength r.fromsa) : (run .sctpRecvmsg cap old flags (.ok r)).heap =
        delivered cap old r.fromsa := by
    have hsame : (if rcOf r.retval < 0 then cap else copied cap r.fromsa) = copied cap r.fromsa :=
      hlen.trans (hlen_iff.mp hlen).2.symm
    rw [hrun, hsame]
    rfl
  constructor
  · rintro ⟨hclean, hcell, hlen⟩
    have hlen := hlen r rfl
    rw [hrun] at hlen
    have hlen := Option.some_inj.mp hlen
    rw [hheap hlen] at hclean hcell
    exact ⟨(hlen_iff.mp hlen).1, hclean, hcell, (hlen_iff.mp hlen).2⟩
  · rintro ⟨hneg, hclean, hcell, hcopied⟩
    have hlen := hlen_iff.mpr ⟨hneg, hcopied⟩
    refine ⟨?_, ?_, ?_⟩
    · rw [hheap hlen]
      exact hclean
    · rw [hheap hlen]
      exact hcell
    · rintro _ ⟨⟩
      rw [hrun]
      exact congrArg some hlen

/-- The blocks when the kernel's copy has been used, if `bsdaddr` has room for it. -/
theorem clean_arrived (old : ℕ → BitVec 8) (hm : copied cap fromsa ≤ 128) :
    ((arrived (frame cap (fun i => some (old i)) fromsa) cap fromsa).use .bsdaddr 0).Clean := by
  have hzeros : ((frame cap (fun i => some (old i)) fromsa).fill .bsdaddr 128 0).Clean :=
    Heap.clean_fill_iff.mpr ⟨rfl, Nat.le_refl 128⟩
  refine Heap.clean_use_iff.mpr ⟨?_, Nat.zero_lt_succ 127, ?_⟩
  · cases fromsa with
    | none => exact Heap.clean_copy_zero_iff.mpr hzeros
    | some a => exact clean_kernel_copy hzeros (Nat.min_le_right _ _) rfl hm
  · rw [arrived, Heap.cell_copy]
    split_ifs with hpos
    · cases fromsa with
      | none => exact absurd hpos.2.2 (Nat.lt_irrefl 0)
      | some a =>
        have hlt : 0 < copied cap (some a) := by omega
        exact SockAddr.getElem?_bytes_ne_none (Nat.lt_of_lt_of_le hlt (Nat.min_le_right _ _))
    · exact Option.some_ne_none _

/-- Nothing to deliver. -/
theorem delivered_of_zero (old : ℕ → BitVec 8) (hzero : copied cap fromsa = 0) :
    (delivered cap old fromsa).Clean ∧ ∀ i, (delivered cap old fromsa).cell .caller i ≠ none := by
  rw [delivered, toLinuxaddr_arrived_of_zero hzero, hzero]
  constructor
  · have harr := clean_arrived old (Nat.le_trans (Nat.le_of_eq hzero) (by decide))
    rw [Heap.clean_copy_zero_iff]
    exact Heap.clean_copy_iff.mpr ⟨harr, fun _ => Nat.le_refl 16, fun _ => Nat.le_refl 16⟩
  · intro i
    rw [Heap.cell_copy_front, if_neg (Nat.not_lt_zero i)]
    exact Option.some_ne_none (old i)

/-- An address is delivered as a whole if it has room everywhere. -/
theorem delivered_of_addr (old : ℕ → BitVec 8) (h2 : 2 ≤ a.length) (hcap : a.length ≤ cap) :
    ((delivered cap old (some a)).Clean ↔ a.length ≤ 16) ∧
      ∀ i, (delivered cap old (some a)).cell .caller i =
        if i < a.length then if i < 16 then a.linuxCell i else none else some (old i) := by
  have hne : Var.linuxaddr ≠ .bsdaddr := nofun
  have hin := SockAddr.in_arrived (a.in_frame cap fun i => some (old i)) hcap
  have hm := copied_of_le hcap
  rw [delivered, hin.toLinuxaddr (by omega), hm]
  constructor
  · rw [Heap.clean_copy_iff, Heap.clean_copy_iff, hin.use.clean_iff hne h2]
    constructor
    · rintro ⟨⟨⟨-, -, h16⟩, -⟩, -⟩
      exact h16
    · intro h16
      refine ⟨⟨⟨clean_arrived old (by omega), ?_, h16⟩, fun _ => Nat.le_refl 16,
        fun _ => Nat.le_refl 16⟩, fun _ => ?_, fun _ => ?_⟩
      · exact Nat.le_trans h16 (by decide : 16 ≤ 128)
      · exact Nat.le_trans (Nat.le_of_eq (Nat.zero_add _)) h16
      · exact Nat.le_trans (Nat.le_of_eq (Nat.zero_add _)) hcap
  · intro i
    rw [Heap.cell_copy_front, Heap.cell_copy_front, hin.use.cell hne h2]
    refine ite_congr rfl (fun hi => ite_congr rfl (fun _ => if_pos ⟨rfl, hi⟩) fun _ => ?_)
      fun _ => ?_
    · rw [hin.use.cell hne h2]
      rfl
    · have hcaller : Var.caller ≠ .fromaddr := nofun
      rw [Heap.cell_copy_of_ne hcaller, hin.use.cell hne h2]
      rfl

/-- An address of a single byte has a negative number of data bytes, which is a very large one. -/
theorem not_clean_delivered_of_one (h1 : a.length = 1) (hcap : a.length ≤ cap) :
    ¬ (delivered cap old (some a)).Clean := by
  intro hclean
  have hin := SockAddr.in_arrived (a.in_frame cap fun i => some (old i)) hcap
  have hsa : a.saLen = 1 := BitVec.eq_of_toNat_eq h1
  rw [delivered, hin.toLinuxaddr (by omega)] at hclean
  have hne : Var.linuxaddr ≠ .bsdaddr := nofun
  have hconv := (Heap.clean_copy_iff.mp (Heap.clean_copy_iff.mp hclean).1).1
  have hroom := ((clean_freebsd2linux_iff hne).mp hconv).2.2.2.2
  rw [Heap.byte_of_cell (hin.use.saLen (Nat.le_of_eq h1.symm)), hsa] at hroom
  have hbig : ¬ 2 + dataLen (1 : BitVec 8) ≤ 16 := by decide
  exact hbig (hroom (by decide))

theorem respects_sctpRecvmsg_iff :
    Respects .sctpRecvmsg cap old flags (.ok r) ↔ Fits .sctpRecvmsg cap (.ok r) := by
  rw [respects_sctpRecvmsg_ok_iff]
  refine and_congr_right fun _ => ?_
  obtain ⟨fromsa, retval, reported⟩ := r
  cases fromsa with
  | none =>
    have hzero : copied cap none = 0 := rfl
    obtain ⟨hclean, hcell⟩ := delivered_of_zero old hzero
    exact iff_of_true ⟨hclean, fun i _ => hcell i, rfl⟩ (.inl rfl)
  | some a =>
    constructor
    · rintro ⟨hclean, -, (hlen : min cap a.length = a.length)⟩
      have hcap : a.length ≤ cap := by omega
      rcases Nat.lt_trichotomy a.length 1 with h0 | h1 | h2
      · exact .inl (by change a.length = 0; omega)
      · exact absurd hclean (not_clean_delivered_of_one h1 hcap)
      · exact .inr ⟨h2, Nat.le_min.mpr ⟨hcap, (delivered_of_addr old h2 hcap).1.mp hclean⟩⟩
    · rintro ((h0 : a.length = 0) | ⟨(h2 : 2 ≤ a.length), hle⟩)
      · have hzero : copied cap (some a) = 0 := by
          change min cap a.length = 0
          omega
        obtain ⟨hclean, hcell⟩ := delivered_of_zero old hzero
        exact ⟨hclean, fun i _ => hcell i, hzero.trans h0.symm⟩
      · obtain ⟨(hcap : a.length ≤ cap), (h16 : a.length ≤ 16)⟩ := Nat.le_min.mp hle
        obtain ⟨hclean, hcell⟩ := delivered_of_addr old h2 hcap
        refine ⟨hclean.mpr h16, fun i _ => ?_, copied_of_le hcap⟩
        rw [hcell i]
        split_ifs with hi h16'
        · exact SockAddr.linuxCell_ne_none hi
        · omega
        · exact Option.some_ne_none _

/-- **Capacity.** Whatever the capacity and whatever the kernel supplies, a call keeps to the
caller's buffer and to the kernel's address and sets the length exactly when the address fits. -/
theorem respects_iff_fits (c : AddrCall) (cap : ℕ) (old : ℕ → BitVec 8) (flags : BitVec 32)
    (answer : Answer Received) : c.Respects cap old flags answer ↔ c.Fits cap answer := by
  match c, answer with
  | .recvfrom, .error _ | .accept, .error _ =>
    exact iff_of_true ⟨rfl, fun i _ => Option.some_ne_none (old i), fun _ => nofun⟩ trivial
  | .recvfrom, .ok _ => exact respects_recvfrom_iff
  | .accept, .ok _ => exact respects_accept_iff
  | .sctpRecvmsg, .error _ => exact respects_sctpRecvmsg_error_iff
  | .sctpRecvmsg, .ok _ => exact respects_sctpRecvmsg_iff

/-- The address of an IPv6 peer, `::`. -/
def peer6 : SockAddr := ⟨28, 28 :: List.replicate 26 0, rfl⟩

/-- `recvfrom` with room for an IPv4 address writes an IPv6 address beyond the end of the buffer,
and sets `*len` to 16. -/
theorem recvfrom_overflows :
    let r := run .recvfrom 16 (fun _ => 0) 0 (.ok ⟨some peer6, 1, 0⟩)
    r.heap.faults = [.outside .caller] ∧ r.len = some 16 ∧
      ¬ Respects .recvfrom 16 (fun _ => 0) 0 (.ok ⟨some peer6, 1, 0⟩) := by
  refine ⟨by decide, by decide, fun h => absurd h.clean (by decide)⟩

end AddrCall

end VosStack.Syscall
