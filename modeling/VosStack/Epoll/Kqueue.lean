import Mathlib.Data.Nat.Notation
import Mathlib.Logic.Function.Basic

/-!
# A kqueue as a table of knotes

The part of `kern_event.c` that `vos_epoll` stands on. A kqueue holds at most one *knote* for
each descriptor and filter. `kqueueRegister` applies one change, `kevent` a change list with
no event list, and `scan` is what one turn of the loop of `kqueue_scan` does with a queued
knote.

* A change list without an event list stops at its first error. The changes before it stay.
* A change to a knote that exists sets its enabled state and its user data. The other flags
  are those the knote was created with.
* `scan` drops a knote with `EV_ONESHOT` when it reports it, and no other knote.

Descriptors are open and filters attach, so the errors `EBADF` and `ENOMEM` do not occur. Which
knotes are ready, and with what data, is up to the sockets: `scan` takes both as arguments.
-/

namespace VosStack.Epoll

/-! ### Flags -/

/-- Flags of a change or of a knote, as `sys/event.h` has them. -/
abbrev Flags := BitVec 16

def evAdd : Flags := 0x0001
def evDelete : Flags := 0x0002
def evEnable : Flags := 0x0004
def evDisable : Flags := 0x0008
def evOneshot : Flags := 0x0010
def evClear : Flags := 0x0020
def evDispatch : Flags := 0x0080
def evForceOneshot : Flags := 0x0100
def evSysFlags : Flags := 0xF000
def evError : Flags := 0x4000
def evEof : Flags := 0x8000

/-- Some bit of `mask` is set. -/
def Flags.has (flags mask : Flags) : Bool := flags &&& mask != 0

/-! ### Knotes -/

/-- The two filters that `vos_epoll` uses. -/
inductive Filter
  /-- `EVFILT_READ` -/
  | read
  /-- `EVFILT_WRITE` -/
  | write
  deriving DecidableEq, Repr

/-- `struct kevent`: a change, or a report. -/
structure Kevent where
  ident : ℕ
  filter : Filter
  flags : Flags
  fflags : BitVec 32
  data : BitVec 64
  udata : BitVec 64
  deriving DecidableEq, Repr

/-- A knote: `kn_flags`, the bit `KN_DISABLED` of `kn_status`, and `kn_kevent.udata`. -/
structure Knote where
  flags : Flags
  disabled : Bool
  udata : BitVec 64
  deriving DecidableEq, Repr

/-- The knotes of a kqueue, by descriptor and filter. -/
abbrev Kqueue := ℕ → Filter → Option Knote

/-- Replace the knote of one descriptor and filter. -/
def Kqueue.set (kq : Kqueue) (fd : ℕ) (f : Filter) (kn : Option Knote) : Kqueue :=
  Function.update kq fd (Function.update (kq fd) f kn)

/-! ### Changes -/

/-- The error codes that a change can give here. -/
inductive Errno
  | einval
  | enoent
  deriving DecidableEq, Repr

/-- The knote that `EV_ADD` creates for a change. -/
def newKnote (kev : Kevent) : Knote where
  flags := kev.flags &&& ~~~(evAdd ||| evDelete ||| evEnable ||| evDisable ||| evForceOneshot)
  disabled := kev.flags.has evDisable
  udata := kev.udata

/-- The knote that a change without `EV_DELETE` leaves of an existing one. -/
def Knote.update (kn : Knote) (kev : Kevent) : Knote where
  flags := if kev.flags.has evForceOneshot then kn.flags ||| evOneshot else kn.flags
  disabled :=
    if kev.flags.has evEnable then false
    else if kev.flags.has evDisable then true
    else kn.disabled
  udata := kev.udata

/-- `kqueue_register`: apply one change. -/
def kqueueRegister (kq : Kqueue) (kev : Kevent) : Except Errno Kqueue :=
  if kev.flags.has evEnable ∧ kev.flags.has evDisable then .error .einval
  else
    match kq kev.ident kev.filter with
    | none =>
      if kev.flags.has evAdd then .ok (kq.set kev.ident kev.filter (some (newKnote kev)))
      else .error .enoent
    | some kn =>
      if kev.flags.has evDelete then .ok (kq.set kev.ident kev.filter none)
      else .ok (kq.set kev.ident kev.filter (some (kn.update kev)))

/-- `kqueue_kevent` with a change list and no event list: apply the changes in order and stop
at the first error, with what was applied so far in force. -/
def kevent (kq : Kqueue) : List Kevent → Kqueue × Option Errno
  | [] => (kq, none)
  | kev :: kevs =>
    match kqueueRegister kq { kev with flags := kev.flags &&& ~~~evSysFlags } with
    | .ok kq' => kevent kq' kevs
    | .error e => (kq, some e)

/-! ### Reports -/

/-- What `kqueue_scan` does with the knote of `fd` and `f` when it finds it active: report it
and, if it has `EV_ONESHOT`, drop it. A disabled knote is not reported. `status` are the
flags the filter has added (`EV_EOF`, `EV_ERROR`); `fflags` and `data` are the filter's. -/
def scan (kq : Kqueue) (fd : ℕ) (f : Filter) (status : Flags) (fflags : BitVec 32)
    (data : BitVec 64) : Option (Kqueue × Kevent) :=
  match kq fd f with
  | none => none
  | some kn =>
    if kn.disabled then none
    else
      let kev : Kevent := ⟨fd, f, kn.flags ||| status, fflags, data, kn.udata⟩
      if kn.flags.has evOneshot then some (kq.set fd f none, kev)
      else if kn.flags.has evDispatch then
        some (kq.set fd f (some { kn with disabled := true }), kev)
      else some (kq, kev)

end VosStack.Epoll
