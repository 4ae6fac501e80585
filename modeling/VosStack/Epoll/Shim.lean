import Mathlib.Data.Int.Notation
import VosStack.Epoll.Kqueue

/-!
# `vos_epoll` on top of a kqueue

`vos_epoll_ctl` turns an epoll registration into two changes, one for the read filter and one
for the write filter, and hands them to `ff_kevent` as one change list. A direction that is
not asked for is registered as well, but disabled. `vos_event_to_epoll` turns a reported
`kevent` into the next entry of the caller's array.

The entry's data is a union. The shim writes all 64 bits if the knote's user data is not null
and only the 32 bits of `data.fd` otherwise, so the upper half then keeps what the caller's
array held before.
-/

namespace VosStack.Epoll

/-! ### The interface -/

def soEpollIn : BitVec 32 := 0x001
def soEpollOut : BitVec 32 := 0x004
def soEpollErr : BitVec 32 := 0x008
def soEpollHup : BitVec 32 := 0x010
def soEpollOneshot : BitVec 32 := 0x40000000
def soEpollEt : BitVec 32 := 0x80000000

/-- The operations of `vos_epoll_ctl`. -/
inductive CtlOp
  | add
  | del
  | mod
  deriving DecidableEq, Repr

/-- `struct vos_epoll_event`. -/
structure EpollEvent where
  events : BitVec 32
  /-- `data.ptr`, which is all of the union -/
  data : BitVec 64
  deriving DecidableEq, Repr

/-- Some bit of `mask` is set in `event->events`. -/
def EpollEvent.has (event : EpollEvent) (mask : BitVec 32) : Bool := event.events &&& mask != 0

/-- The direction bit that asks for a filter. -/
def Filter.mask : Filter → BitVec 32
  | .read => soEpollIn
  | .write => soEpollOut

/-! ### Control -/

/-- `read_flags` or `write_flags` of `vos_epoll_ctl`. -/
def ctlFlags (op : CtlOp) (event : EpollEvent) (f : Filter) : Flags :=
  let flags := if event.has soEpollEt then evClear else 0
  let flags := if event.has soEpollOneshot then flags ||| evOneshot else flags
  let flags := if op = .add then flags ||| evAdd else flags
  let flags := flags ||| evDisable
  if event.has f.mask then (flags &&& ~~~evDisable) ||| evEnable else flags

/-- One element of the array `kev` of `vos_epoll_ctl`, for `ADD` and `MOD`. -/
def ctlChange (op : CtlOp) (fd : ℕ) (event : EpollEvent) (f : Filter) : Kevent where
  ident := fd
  filter := f
  flags := ctlFlags op event f
  fflags := 0
  data := 0
  udata := event.data

/-- One element of the array `kev` of `vos_epoll_ctl`, for `DEL`. -/
def delChange (fd : ℕ) (f : Filter) : Kevent := ⟨fd, f, evDelete, 0, 0, 0⟩

/-- `ff_kevent` with no event list: `-1` if a change failed, `0` otherwise. -/
def ffKevent (kq : Kqueue) (kevs : List Kevent) : Kqueue × ℤ :=
  match kevent kq kevs with
  | (kq', none) => (kq', 0)
  | (kq', some _) => (kq', -1)

/-- `vos_epoll_ctl`. -/
def vosEpollCtl (kq : Kqueue) (op : CtlOp) (fd : ℕ) (event : Option EpollEvent) :
    Kqueue × ℤ :=
  match op, event with
  | .del, _ => ffKevent kq [delChange fd .read, delChange fd .write]
  | _, none => (kq, -1)
  | op, some event => ffKevent kq [ctlChange op fd event .read, ctlChange op fd event .write]

/-! ### Reports -/

/-- `event_one` of `vos_event_to_epoll`. -/
def eventOne (kev : Kevent) : BitVec 32 :=
  let one : BitVec 32 :=
    match kev.filter with
    | .read => if kev.data ≠ 0 ∨ ¬ kev.flags.has evEof then soEpollIn else 0
    | .write => soEpollOut
  let one := if kev.flags.has evError then one ||| soEpollErr else one
  if kev.flags.has evEof then
    let one := one ||| soEpollHup
    let one := if kev.fflags ≠ 0 then one ||| soEpollErr else one
    match kev.filter with
    | .read => one ||| soEpollIn
    | .write => one ||| soEpollErr
  else one

/-- `vos_event_to_epoll` on an entry of the caller's array that holds `old`. -/
def vosEventToEpoll (old : EpollEvent) (kev : Kevent) : EpollEvent where
  events := eventOne kev
  data :=
    if kev.udata ≠ 0 then kev.udata
    else (old.data &&& 0xFFFFFFFF00000000) ||| (BitVec.ofNat 32 kev.ident).setWidth 64

end VosStack.Epoll
