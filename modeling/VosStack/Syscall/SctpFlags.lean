import VosStack.Syscall.Messages
import VosStack.Transition.Run

/-!
# The flags variable of `vos_sock_sctp_recvmsg`

The variable is read as the request flags of the receive and written with the flags of the message,
so a caller that passes one variable again and again hands the flags of a message to the kernel as
the request of the next receive. The numbers do not match: the Linux `MSG_EOR` is 0x80, which is
`MSG_DONTWAIT` of FreeBSD. And the wrapper only ever **sets** bits, and only if the number of bytes,
as an `int`, is positive: a message that is not a notification, after one that is, still looks like
one, and one of `2 ^ 32` bytes sets nothing.

`Told` says what a caller may expect along such a sequence of calls, and `Quiet` when it is met: as
long as no message has changed the variable since the caller wrote to it.
-/

namespace VosStack.Syscall

open Memory Transition

/-- A bit of `mask` is set. -/
def Has (flags mask : BitVec 32) : Prop := flags &&& mask ≠ 0

instance (flags mask : BitVec 32) : Decidable (Has flags mask) :=
  inferInstanceAs (Decidable (_ ≠ _))

/-! ### One call -/

/-- The request flags with which the kernel is called. -/
def requested (fromlen : Option ℕ) (msgFlags : BitVec 32) : BitVec 32 :=
  (recvmsgHeader (sctpHeader (some .fromaddr) fromlen) msgFlags).msgFlags

theorem has_or_iff (x y mask : BitVec 32) : Has (x ||| y) mask ↔ Has x mask ∨ Has y mask := by
  rw [Has, BitVec.and_or_distrib_right]
  exact (not_congr BitVec.or_eq_zero_iff).trans not_and_or

/-- A bit that is only ever set. -/
theorem has_set_iff (p : Prop) [Decidable p] (f bit mask : BitVec 32) :
    Has (if p then f ||| bit else f) mask ↔ Has f mask ∨ p ∧ Has bit mask := by
  split_ifs with hp
  · rw [has_or_iff, and_iff_right hp]
  · rw [or_iff_left fun h => hp h.1]

/-- Where the bits of the variable come from. -/
theorem has_linuxFlags_iff (k f mask : BitVec 32) : Has (linuxFlags k f) mask ↔
    (Has f mask ∨ Has k FREEBSD_MSG_NOTIFICATION ∧ Has LINUX_MSG_NOTIFICATION mask) ∨
      Has k FREEBSD_MSG_EOR ∧ Has LINUX_MSG_EOR mask := by
  rw [linuxFlags, has_set_iff, has_set_iff]
  rfl

theorem has_notification_iff (k f : BitVec 32) :
    Has (linuxFlags k f) LINUX_MSG_NOTIFICATION ↔
      Has f LINUX_MSG_NOTIFICATION ∨ Has k FREEBSD_MSG_NOTIFICATION := by
  have hself : Has LINUX_MSG_NOTIFICATION LINUX_MSG_NOTIFICATION := by decide
  have hother : ¬ Has LINUX_MSG_EOR LINUX_MSG_NOTIFICATION := by decide
  rw [has_linuxFlags_iff, and_iff_left hself, or_iff_left fun h => hother h.2]

theorem has_eor_iff (k f : BitVec 32) :
    Has (linuxFlags k f) LINUX_MSG_EOR ↔ Has f LINUX_MSG_EOR ∨ Has k FREEBSD_MSG_EOR := by
  have hself : Has LINUX_MSG_EOR LINUX_MSG_EOR := by decide
  have hother : ¬ Has LINUX_MSG_NOTIFICATION LINUX_MSG_EOR := by decide
  rw [has_linuxFlags_iff, and_iff_left hself, or_congr_left (or_iff_left fun h => hother h.2)]

/-- The variable after a call. -/
def flagsAfter (flags : BitVec 32) : Answer Received → BitVec 32
  | .error _ => flags
  | .ok r => if rcOf r.retval > 0 then linuxFlags r.flags flags else flags

theorem flags_vosSockSctpRecvmsg (h : Heap Var) (from' : Option Var) (fromlen : Option ℕ)
    (flags : BitVec 32) (answer : Answer Received) :
    (vosSockSctpRecvmsg h from' fromlen (some flags) answer).flags =
      some (flagsAfter flags answer) := by
  cases answer with
  | error e => rfl
  | ok r =>
    simp only [vosSockSctpRecvmsg, Option.getD_some, ffSctpRecvmsg_ok, flagsAfter]
    by_cases hneg : rcOf r.retval < 0
    · have hpos : ¬rcOf r.retval > 0 := by omega
      simp only [if_pos hneg, if_neg hpos]
    · simp only [if_neg hneg, Option.map_some, Option.getD_some, apply_ite some]

/-- The flags of the message, if the call succeeds, that is, does not return a negative number. -/
def reported : Answer Received → Option (BitVec 32)
  | .error _ => none
  | .ok r => if rcOf r.retval < 0 then none else some r.flags

/-- The variable has the two bits exactly if the kernel reported them. -/
def Reports (flags k : BitVec 32) : Prop :=
  (Has flags LINUX_MSG_NOTIFICATION ↔ Has k FREEBSD_MSG_NOTIFICATION) ∧
    (Has flags LINUX_MSG_EOR ↔ Has k FREEBSD_MSG_EOR)

/-- The variable has one of the two bits only if the kernel reports it. -/
def Within (flags k : BitVec 32) : Prop :=
  (Has flags LINUX_MSG_NOTIFICATION → Has k FREEBSD_MSG_NOTIFICATION) ∧
    (Has flags LINUX_MSG_EOR → Has k FREEBSD_MSG_EOR)

theorem reports_linuxFlags_iff (k f : BitVec 32) :
    Reports (linuxFlags k f) k ↔ Within f k := by
  rw [Reports, has_notification_iff, has_eor_iff, or_iff_right_iff_imp, or_iff_right_iff_imp]
  rfl

/-- When the variable tells the caller of this message: it has one of the bits before only if the
kernel reports it. If the call returns 0 the bits are not set: then it must have those reported
already. -/
def Accords (flags : BitVec 32) : Answer Received → Prop
  | .error _ => True
  | .ok r =>
      if rcOf r.retval > 0 then Within flags r.flags
      else rcOf r.retval = 0 → Reports flags r.flags

/-- What a single receive tells the caller. -/
theorem reports_flagsAfter_iff (f : BitVec 32) (answer : Answer Received) :
    (∀ k, reported answer = some k → Reports (flagsAfter f answer) k) ↔ Accords f answer := by
  cases answer with
  | error e => exact iff_of_true (fun _ hk => nomatch hk) trivial
  | ok r =>
    rw [reported, flagsAfter, Accords]
    by_cases hneg : rcOf r.retval < 0
    · have hpos : ¬rcOf r.retval > 0 := by omega
      have hzero : rcOf r.retval ≠ 0 := by omega
      simp only [if_pos hneg, if_neg hpos]
      exact iff_of_true (fun _ hk => nomatch hk) fun h0 => absurd h0 hzero
    · have hone (f' : BitVec 32) : (∀ k, some r.flags = some k → Reports f' k) ↔
          Reports f' r.flags :=
        ⟨fun h => h _ rfl, fun h k hk => Option.some.inj hk ▸ h⟩
      rw [if_neg hneg, hone]
      split_ifs with hpos
      · exact reports_linuxFlags_iff r.flags f
      · have hzero : rcOf r.retval = 0 := by omega
        exact ⟨fun h _ => h, fun h => h hzero⟩

/-! ### A sequence of calls -/

/-- A receive: what the caller last wrote to the variable, the request flags with which the kernel
was called, the flags it reported, and the variable afterwards. -/
structure Receive where
  asked : BitVec 32
  requested : BitVec 32
  reported : Option (BitVec 32)
  after : BitVec 32
  deriving DecidableEq, Repr

/-- A caller with its flags variable, and the receives so far. -/
structure Receiver where
  asked : BitVec 32
  flags : BitVec 32
  log : List Receive
  deriving DecidableEq, Repr

/-- What the caller does: it writes to the variable, or it receives. -/
inductive RecvCall
  | write (flags : BitVec 32)
  | recvmsg (h : Heap Var) (from' : Option Var) (fromlen : Option ℕ) (answer : Answer Received)

namespace Receiver

/-- A caller that has only initialised the variable. -/
def start (asked : BitVec 32) : Receiver := ⟨asked, asked, []⟩

def step (s : Receiver) : RecvCall → Option Receiver
  | .write flags => some { s with asked := flags, flags := flags }
  | .recvmsg h from' fromlen answer =>
      let flags := (vosSockSctpRecvmsg h from' fromlen (some s.flags) answer).flags.getD s.flags
      some { s with
        flags := flags
        log := s.log ++ [⟨s.asked, requested fromlen s.flags, reported answer, flags⟩] }

/-- Every receive was made with the flags the caller asked for, and the variable told the caller of
every message whether it was a notification and whether it was complete. -/
def Told (s : Receiver) : Prop :=
  ∀ c ∈ s.log, c.requested = c.asked ∧ ∀ k, c.reported = some k → Reports c.after k

/-- The variable is as the caller wrote it, and accords with what the kernel reports. -/
def Quiet (s : Receiver) : RecvCall → Prop
  | .write _ => True
  | .recvmsg _ _ _ answer => s.flags = s.asked ∧ Accords s.flags answer

theorem step_recvmsg (s : Receiver) (h : Heap Var) (from' : Option Var) (fromlen : Option ℕ)
    (answer : Answer Received) : step s (.recvmsg h from' fromlen answer) =
      some ⟨s.asked, flagsAfter s.flags answer,
        s.log ++ [⟨s.asked, s.flags, reported answer, flagsAfter s.flags answer⟩]⟩ := by
  rw [step, flags_vosSockSctpRecvmsg]
  rfl

/-- A call keeps the promise exactly if the variable is still quiet. -/
theorem quiet_iff {s : Receiver} (hs : s.Told) (a : RecvCall) :
    s.Quiet a ↔ ∀ s' ∈ step s a, s'.Told := by
  cases a with
  | write flags => exact iff_of_true trivial (forall_mem_some_iff.mpr hs)
  | recvmsg h from' fromlen answer =>
    rw [step_recvmsg, forall_mem_some_iff, Told, forall_mem_snoc_iff hs, Quiet,
      reports_flagsAfter_iff]

/-- **Flags across receives.** Along a sequence of receives with one variable, every receive is made
as the caller asked, and the variable has the notification and the end-of-record bit after every
message exactly if the kernel reported them, if and only if before every receive the variable is
still as the caller wrote it and has no result bit that the kernel does not report. -/
theorem always_told_iff (asked : BitVec 32) (as : List RecvCall) :
    Always step Told (start asked) as ↔ Admitted step Quiet (start asked) as :=
  always_iff_admitted (fun _ h => h) (fun _ a hs => quiet_iff hs a) (fun _ _ _ _ _ h => h) as
    fun _ hc => absurd hc List.not_mem_nil

/-- Two messages after each other, the first complete, the second not: the second is received with
0x80, `MSG_DONTWAIT` of the kernel, and looks complete. -/
theorem eor_asks_for_dontwait : ∃ s,
    exec step (start 0)
      [.recvmsg (frame 16 (fun _ => none) none) none (some 16) (.ok ⟨none, 10, FREEBSD_MSG_EOR⟩),
        .recvmsg (frame 16 (fun _ => none) none) none (some 16) (.ok ⟨none, 5, 0⟩)] = some s ∧
    s.log = [⟨0, 0, some FREEBSD_MSG_EOR, LINUX_MSG_EOR⟩,
      ⟨0, LINUX_MSG_EOR, some 0, LINUX_MSG_EOR⟩] ∧
    ¬ s.Told := by
  have hask : LINUX_MSG_EOR ≠ 0 := by decide
  refine ⟨_, rfl, rfl, fun ht => hask ?_⟩
  exact (ht ⟨0, LINUX_MSG_EOR, some 0, LINUX_MSG_EOR⟩ (.tail _ (.head _))).1

end Receiver

end VosStack.Syscall
