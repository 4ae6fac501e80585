import VosStack.Epoll.Kqueue
import VosStack.Transition.Run

/-!
# A kqueue with all threads that use it

`Epoll.Kqueue` has a kqueue as a table and each operation on it as one step. In `kern_event.c`
the operations let go of the kqueue's lock on the way: `kqueue_register` and `kqueue_scan` mark
the knote they work on as *in flux*, call its filter with the lock released, and come back.
Here a step is one section under the lock, and any number of threads take steps in any order.

* A scan puts a *marker* at the tail of the queue and works from the head until it meets its
  marker. At a knote in flux, or at the marker of another scan, it sleeps until somebody
  announces that the flux has changed.
* A knote that is examined has left the queue but keeps `KN_QUEUED`, and counts in `kq_count`.
* `wakeup` wakes all threads that sleep on the kqueue, whatever they wait for.
* A socket that becomes ready calls `knote`, which skips a knote in flux unless it is being
  examined or changed (`KN_SCAN`).

The filter's lock is held from the call of `f_event` to the end of the section that follows,
so the two are one step. Not modelled: filters other than the socket ones, kqueues that watch
kqueues, failing allocations and copies, and `KQ_SEL`, `KQ_ASYNC`, `KQ_CLOSING`.

Two primitives are taken as FreeBSD documents them. The sections under `kq_lock` exclude each
other, which rests on the atomic operations. `msleep` releases the lock and sleeps until a
`wakeup`; in this tree `__sleep` is a stub that returns `EWOULDBLOCK` and keeps the lock, so that
nobody sleeps for an event, and a scan that waits for a flux spins with the lock held.

Besides the kqueue's own data a `World` keeps what its operations have done so far.
-/

namespace VosStack.Epoll

/-- `EV_DROP`. -/
def evDrop : Flags := 0x1000

/-- `KQ_NEVENTS`: so many reports are copied out at a time. -/
def kqNevents : ℕ := 8

/-- What identifies a knote: descriptor and filter. -/
abbrev Key := ℕ × Filter

/-- The knote that a change is about. -/
def Kevent.key (kev : Kevent) : Key := (kev.ident, kev.filter)

/-- What a filter has written to `kn_kevent`. -/
structure Reading where
  status : Flags
  fflags : BitVec 32
  data : BitVec 64
  deriving DecidableEq, Repr

/-- The report of a knote: its `kn_kevent`. -/
def Knote.report (kn : Knote) (k : Key) (r : Reading) : Kevent :=
  ⟨k.1, k.2, kn.flags ||| r.status, r.fflags, r.data, kn.udata⟩

namespace Concurrent

/-- A knote with the rest of `kn_status`, and whether it is in flux. -/
structure LiveKnote extends Knote where
  /-- `KN_ACTIVE` -/
  active : Bool
  /-- `KN_QUEUED` -/
  queued : Bool
  /-- `KN_SCAN` -/
  scan : Bool
  /-- `kn_influx` -/
  influx : Bool
  deriving DecidableEq, Repr

/-- An entry of `kq_head`. -/
inductive Entry (Tid : Type*)
  | knote (k : Key)
  | marker (t : Tid)
  deriving DecidableEq, Repr

/-- The entry is a knote. -/
def Entry.isKnote {Tid : Type*} : Entry Tid → Bool
  | .knote _ => true
  | .marker _ => false

/-- The local variables of `kqueue_scan`. Its `count` is `maxevents` less the reports in `out`,
its `nkev` their number modulo `kqNevents`. -/
structure ScanCall where
  maxevents : ℕ
  out : List Kevent
  influx : Bool
  deriving DecidableEq, Repr

/-- Where a thread goes on after `knote_drop`. -/
inductive After
  /-- in `kqueue_scan`, with the report to return if there is one -/
  | scan (c : ScanCall) (kev : Option Kevent)
  /-- at the end of `kqueue_register` -/
  | register
  /-- in `knote_fdclose` -/
  | close (fd : ℕ)
  deriving DecidableEq, Repr

/-- Where a thread is. -/
inductive Pc
  | idle
  /-- at `retry` of `kqueue_scan` -/
  | retry (maxevents : ℕ)
  /-- asleep until an event comes -/
  | asleep (maxevents : ℕ)
  /-- in the loop of `kqueue_scan` -/
  | loop (c : ScanCall)
  /-- asleep in that loop, until the flux changes -/
  | loopWait (c : ScanCall)
  /-- about to call `f_event` for the knote taken from the head -/
  | exam (k : Key) (c : ScanCall)
  /-- about to count the report of a knote with `EV_ONESHOT` -/
  | oneshot (c : ScanCall) (kev : Kevent)
  /-- in `knote_drop` -/
  | drop (k : Key) (after : After)
  /-- at `findkn` of `kqueue_register` -/
  | findkn (kev : Kevent)
  | findknWait (kev : Kevent)
  /-- about to call `f_event` for the knote that the change has made -/
  | attach (kev : Kevent)
  /-- about to call `f_event` for the knote that the change is made to -/
  | touch (kev : Kevent)
  /-- in the loop of `knote_fdclose`, with its `influx` -/
  | close (fd : ℕ) (influx : Bool)
  | closeWait (fd : ℕ)
  deriving DecidableEq, Repr

/-- What `wakeup` does to a thread. -/
def Pc.woken : Pc → Pc
  | .asleep m => .retry m
  | .loopWait c => .loop c
  | .findknWait kev => .findkn kev
  | .closeWait fd => .close fd false
  | p => p

/-- Where `knote_drop` returns to. -/
def After.next : After → Pc
  | .scan c none => .loop c
  | .scan c (some kev) => .oneshot c kev
  | .register => .idle
  | .close fd => .close fd true

/-- What has been done to the table of knotes. -/
inductive Op
  | change (kev : Kevent)
  | refused (kev : Kevent) (e : Errno)
  | report (k : Key) (r : Reading) (kev : Kevent)
  | dropped (k : Key)
  deriving DecidableEq, Repr

/-- A kqueue, the threads that use it and the sockets it watches. -/
structure World (Tid : Type*) where
  /-- `kq_knlist` -/
  knotes : Key → Option LiveKnote
  /-- `kq_head` -/
  queue : List (Entry Tid)
  /-- `kq_count` -/
  count : ℕ
  /-- `KQ_SLEEP` -/
  sleepFlag : Bool
  /-- `KQ_FLUXWAIT` -/
  fluxFlag : Bool
  pc : Tid → Pc
  /-- what `f_event` returns -/
  ready : Key → Bool
  /-- the knotes that are being examined -/
  exams : List Key
  /-- the sockets that were found or became ready since their last report -/
  fresh : Key → Bool
  /-- for each entry of the queue, what was reported since it entered -/
  since : Entry Tid → List (Entry Tid)
  /-- what the calls of `kqueue_scan` have returned -/
  returned : List (Tid × ℕ × List Kevent)
  /-- the table of knotes as `log` leaves it -/
  table : Kqueue
  log : List Op

namespace World

variable {Tid : Type*} [DecidableEq Tid]

/-- A kqueue without knotes. -/
def init : World Tid where
  knotes := fun _ => none
  queue := []
  count := 0
  sleepFlag := false
  fluxFlag := false
  pc := fun _ => .idle
  ready := fun _ => false
  exams := []
  fresh := fun _ => false
  since := fun _ => []
  returned := []
  table := fun _ _ => none
  log := []

/-! ### Parts of the steps -/

def setPc (w : World Tid) (t : Tid) (p : Pc) : World Tid :=
  { w with pc := Function.update w.pc t p }

def setKnote (w : World Tid) (k : Key) (kn : Option LiveKnote) : World Tid :=
  { w with knotes := Function.update w.knotes k kn }

/-- `wakeup(kq)`. -/
def wakeup (w : World Tid) : World Tid := { w with pc := fun t => (w.pc t).woken }

/-- `KQ_FLUX_WAKEUP`. -/
def fluxWakeup (w : World Tid) : World Tid :=
  if w.fluxFlag then { w.wakeup with fluxFlag := false } else w

/-- `kqueue_wakeup`. -/
def kqueueWakeup (w : World Tid) : World Tid :=
  if w.sleepFlag then { w.wakeup with sleepFlag := false } else w

/-- `TAILQ_INSERT_TAIL`. -/
def insertTail (w : World Tid) (e : Entry Tid) : World Tid :=
  { w with queue := w.queue ++ [e], since := Function.update w.since e [] }

/-- `knote_enqueue`. -/
def knoteEnqueue (w : World Tid) (k : Key) (kn : LiveKnote) : World Tid :=
  { (w.insertTail (.knote k)).setKnote k (some { kn with queued := true }) with
    count := w.count + 1 }.kqueueWakeup

/-- Enqueue an active knote that is neither queued nor disabled. -/
def enqueueIf (w : World Tid) (k : Key) (kn : LiveKnote) : World Tid :=
  if kn.active && !kn.disabled && !kn.queued then w.knoteEnqueue k kn
  else w.setKnote k (some kn)

/-- `KNOTE_ACTIVATE`. -/
def knoteActivate (w : World Tid) (k : Key) (kn : LiveKnote) : World Tid :=
  w.enqueueIf k { kn with active := true }

/-- An operation on the table, which leaves `table`. -/
def record (w : World Tid) (op : Op) (table : Kqueue) : World Tid :=
  { w with log := w.log ++ [op], table := table }

/-- A report of the knote `k`. -/
def served (w : World Tid) (k : Key) : World Tid :=
  { w with
    since := fun e => w.since e ++ [.knote k]
    fresh := Function.update w.fresh k false }

/-- The end of `kqueue_scan`. -/
def scanDone (w : World Tid) (t : Tid) (m : ℕ) (out : List Kevent) : World Tid :=
  ({ w with returned := w.returned ++ [(t, m, out)] }.setPc t .idle).fluxWakeup

/-! ### `kqueue_scan` -/

/-- A call of `kqueue_scan`. -/
def kqueueScan (w : World Tid) (t : Tid) (m : ℕ) : Option (World Tid) :=
  match w.pc t with
  | .idle =>
    if m = 0 then some { w with returned := w.returned ++ [(t, 0, [])] }
    else some (w.setPc t (.retry m))
  | _ => none

/-- From `retry` to the loop, to sleep or, if the call is not to `wait`, to the end. -/
def retry (w : World Tid) (t : Tid) (wait : Bool) : Option (World Tid) :=
  match w.pc t with
  | .retry m =>
    if w.count = 0 then
      if wait then some ({ w with sleepFlag := true }.setPc t (.asleep m))
      else some (w.scanDone t m [])
    else some ((w.insertTail (.marker t)).setPc t (.loop ⟨m, [], false⟩))
  | _ => none

/-- The time of a sleeping call is over. -/
def timeout (w : World Tid) (t : Tid) : Option (World Tid) :=
  match w.pc t with
  | .asleep m => some (w.scanDone t m [])
  | _ => none

/-- Sleep until the flux changes. -/
def waitFlux (w : World Tid) (t : Tid) (c : ScanCall) : World Tid :=
  { if c.influx then w.fluxWakeup else w with fluxFlag := true }.setPc t
    (.loopWait { c with influx := false })

/-- The scan has met its own marker, with `rest` behind it. -/
def atMarker (w : World Tid) (t : Tid) (c : ScanCall) (rest : List (Entry Tid)) : World Tid :=
  if c.out = [] then ({ w with queue := rest }.setPc t (.retry c.maxevents)).fluxWakeup
  else { w with queue := rest }.scanDone t c.maxevents c.out

/-- The knote at the head is disabled: it leaves the queue. -/
def takeDisabled (w : World Tid) (k : Key) (kn : LiveKnote) (rest : List (Entry Tid)) :
    World Tid :=
  { w.setKnote k (some { kn with queued := false }) with queue := rest, count := w.count - 1 }

/-- The knote at the head leaves the queue and is to be dropped. -/
def takeLast (w : World Tid) (t : Tid) (c : ScanCall) (k : Key) (kn : LiveKnote)
    (rest : List (Entry Tid)) (kev : Option Kevent) : World Tid :=
  { w.setKnote k (some { kn with queued := false, influx := true }) with
    queue := rest
    count := w.count - 1 }.setPc t (.drop k (.scan c kev))

/-- The knote at the head has `EV_DROP`: it is dropped without a report. -/
def takeDrop (w : World Tid) (t : Tid) (c : ScanCall) (k : Key) (kn : LiveKnote)
    (rest : List (Entry Tid)) : World Tid :=
  (w.record (.dropped k) (w.table.set k.1 k.2 none)).takeLast t c k kn rest none

/-- The knote at the head has `EV_ONESHOT`: it is reported as it is, and dropped. -/
def takeOneshot (w : World Tid) (t : Tid) (c : ScanCall) (k : Key) (kn : LiveKnote)
    (rest : List (Entry Tid)) (r : Reading) : World Tid :=
  ((w.record (.report k r (kn.report k r)) (w.table.set k.1 k.2 none)).served k).takeLast t c k kn
    rest (some (kn.report k r))

/-- The knote at the head is to be examined. -/
def takeExam (w : World Tid) (t : Tid) (c : ScanCall) (k : Key) (kn : LiveKnote)
    (rest : List (Entry Tid)) : World Tid :=
  { w.setKnote k (some { kn with scan := true, influx := true }) with
    queue := rest
    exams := k :: w.exams }.setPc t (.exam k c)

/-- One turn of the loop of `kqueue_scan`; `r` is what the filter last wrote to the knote at
the head. -/
def loopTurn (w : World Tid) (t : Tid) (r : Reading) : Option (World Tid) :=
  match w.pc t with
  | .loop c =>
    if c.out.length = c.maxevents then
      some ({ w with queue := w.queue.erase (.marker t) }.scanDone t c.maxevents c.out)
    else
      match w.queue with
      | [] => none
      | .marker u :: rest =>
        if u = t then some (w.atMarker t c rest) else some (w.waitFlux t c)
      | .knote k :: rest =>
        match w.knotes k with
        | none => none
        | some kn =>
          if kn.influx then some (w.waitFlux t c)
          else if kn.disabled then some (w.takeDisabled k kn rest)
          else if kn.flags.has evDrop then some (w.takeDrop t c k kn rest)
          else if kn.flags.has evOneshot then some (w.takeOneshot t c k kn rest r)
          else some (w.takeExam t c k kn rest)
  | _ => none

/-- Count a report, and copy out when `kqNevents` are there. -/
def countReport (w : World Tid) (t : Tid) (c : ScanCall) (kev : Kevent) : World Tid :=
  let out := c.out ++ [kev]
  if out.length % kqNevents = 0 then
    (w.setPc t (.loop { c with out := out, influx := false })).fluxWakeup
  else w.setPc t (.loop { c with out := out })

/-- The examined knote is not ready. -/
def examIdle (w : World Tid) (t : Tid) (c : ScanCall) (k : Key) (kn : LiveKnote) : World Tid :=
  { w.setKnote k (some { kn with
      active := false, queued := false, scan := false, influx := false }) with
    count := w.count - 1
    exams := w.exams.erase k }.setPc t (.loop { c with influx := true })

/-- The examined knote is reported and leaves the queue. -/
def examClear (w : World Tid) (k : Key) (kn : LiveKnote) (r : Reading) : World Tid :=
  let kn' : LiveKnote := { kn with
    active := false, queued := false, scan := false, influx := false
    disabled := kn.disabled || kn.flags.has evDispatch }
  let table :=
    if kn.flags.has evDispatch then
      w.table.set k.1 k.2 (some { kn.toKnote with disabled := true })
    else w.table
  ({ w.setKnote k (some kn') with count := w.count - 1, exams := w.exams.erase k }.served
    k).record (.report k r (kn.report k r)) table

/-- The examined knote is reported and goes back to the tail. -/
def examAgain (w : World Tid) (k : Key) (kn : LiveKnote) (r : Reading) : World Tid :=
  (({ w.setKnote k (some { kn with scan := false, influx := false }) with
    exams := w.exams.erase k }.served k).insertTail (.knote k)).record
      (.report k r (kn.report k r)) w.table

/-- From the call of `f_event` in `kqueue_scan` to the next turn of the loop. -/
def exam (w : World Tid) (t : Tid) (r : Reading) : Option (World Tid) :=
  match w.pc t with
  | .exam k c =>
    match w.knotes k with
    | none => none
    | some kn =>
      if w.ready k then
        some ((if kn.flags.has (evClear ||| evDispatch) then w.examClear k kn r
          else w.examAgain k kn r).countReport t { c with influx := true } (kn.report k r))
      else some (w.examIdle t c k kn)
  | _ => none

/-- After the knote with `EV_ONESHOT` has been dropped. -/
def countOneshot (w : World Tid) (t : Tid) : Option (World Tid) :=
  match w.pc t with
  | .oneshot c kev => some (w.countReport t c kev)
  | _ => none

/-! ### `knote_drop` -/

/-- `knote_dequeue`, for a knote that is queued. -/
def dequeueIf (w : World Tid) (k : Key) (kn : LiveKnote) : World Tid :=
  if kn.queued then { w with queue := w.queue.erase (.knote k), count := w.count - 1 } else w

/-- `knote_drop_detached`. -/
def knoteDrop (w : World Tid) (t : Tid) : Option (World Tid) :=
  match w.pc t with
  | .drop k after =>
    match w.knotes k with
    | none => none
    | some kn => some (((w.dequeueIf k kn).setKnote k none).setPc t after.next).fluxWakeup
  | _ => none

/-! ### `kqueue_register` -/

/-- A call of `kqueue_register` by `kqueue_kevent`. -/
def kqueueRegister (w : World Tid) (t : Tid) (kev : Kevent) : Option (World Tid) :=
  match w.pc t with
  | .idle =>
    let kev : Kevent := { kev with flags := kev.flags &&& ~~~evSysFlags }
    if kev.flags.has evEnable ∧ kev.flags.has evDisable then
      some (w.record (.refused kev .einval) w.table)
    else some (w.setPc t (.findkn kev))
  | _ => none

/-- The change makes a knote. -/
def attachNew (w : World Tid) (t : Tid) (kev : Kevent) : World Tid :=
  ((w.record (.change kev) (w.table.set kev.ident kev.filter (some (newKnote kev)))).setKnote
    kev.key (some { newKnote kev with
      active := false, queued := false, scan := false, influx := true })).setPc t (.attach kev)

/-- The change deletes the knote. -/
def deleteOld (w : World Tid) (t : Tid) (kev : Kevent) (kn : LiveKnote) : World Tid :=
  ((w.record (.change kev) (w.table.set kev.ident kev.filter none)).setKnote kev.key
    (some { kn with influx := true })).setPc t (.drop kev.key .register)

/-- The knote that a change leaves when it gives up the kqueue's lock. Its `udata` is written
later. -/
def touched (kev : Kevent) (kn : LiveKnote) : LiveKnote :=
  { kn with
    disabled :=
      if kev.flags.has evEnable then false
      else if kev.flags.has evDisable then true
      else kn.disabled
    scan := true
    influx := true }

/-- The change is made to the knote. With `EV_FORCEONESHOT` the knote is activated before it is
enabled or disabled. -/
def touchOld (w : World Tid) (t : Tid) (kev : Kevent) (kn : LiveKnote) : World Tid :=
  let table := w.table.set kev.ident kev.filter (some (kn.toKnote.update kev))
  let release (w : World Tid) (kn : LiveKnote) : World Tid :=
    ((w.record (.change kev) table).setKnote kev.key (some (touched kev kn))).setPc t (.touch kev)
  if kev.flags.has evForceOneshot then
    let kn : LiveKnote := { kn with flags := kn.flags ||| evOneshot, active := true }
    if kn.disabled || kn.queued then release w kn
    else release (w.knoteEnqueue kev.key kn) { kn with queued := true }
  else release w kn

/-- From `findkn` of `kqueue_register` to where it gives up the kqueue's lock. -/
def findkn (w : World Tid) (t : Tid) : Option (World Tid) :=
  match w.pc t with
  | .findkn kev =>
    match w.knotes kev.key with
    | none =>
      if kev.flags.has evAdd then some (w.attachNew t kev)
      else some ((w.record (.refused kev .enoent) w.table).setPc t .idle)
    | some kn =>
      if kn.influx then some ({ w with fluxFlag := true }.setPc t (.findknWait kev))
      else if kev.flags.has evDelete then some (w.deleteOld t kev kn)
      else some (w.touchOld t kev kn)
  | _ => none

/-- The knote after a change, with what `f_event` has returned. -/
def settled (kev : Kevent) (kn : LiveKnote) (ready : Bool) : LiveKnote :=
  { kn with
    udata := kev.udata
    active := kn.active || (!kn.disabled && ready)
    scan := false
    influx := false }

/-- The end of a change, with what `f_event` has returned. -/
def settleKnote (w : World Tid) (t : Tid) (kev : Kevent) (kn : LiveKnote) : World Tid :=
  let fresh := w.fresh kev.key || (!kn.disabled && w.ready kev.key)
  (({ w with fresh := Function.update w.fresh kev.key fresh }.setPc t .idle).enqueueIf kev.key
    (settled kev kn (w.ready kev.key))).fluxWakeup

/-- From the call of `f_event` in `kqueue_register` to its end. -/
def settle (w : World Tid) (t : Tid) : Option (World Tid) :=
  match w.pc t with
  | .attach kev | .touch kev =>
    match w.knotes kev.key with
    | none => none
    | some kn => some (w.settleKnote t kev kn)
  | _ => none

/-! ### `knote_fdclose` and `knote` -/

/-- A call of `knote_fdclose`. -/
def knoteFdclose (w : World Tid) (t : Tid) (fd : ℕ) : Option (World Tid) :=
  match w.pc t with
  | .idle => some (w.setPc t (.close fd false))
  | _ => none

/-- Sleep until the flux changes. -/
def closeWait (w : World Tid) (t : Tid) (fd : ℕ) (influx : Bool) : World Tid :=
  { if influx then w.wakeup else w with fluxFlag := true }.setPc t (.closeWait fd)

/-- Drop the knote of the descriptor that is closed. -/
def closeDrop (w : World Tid) (t : Tid) (fd : ℕ) (f : Filter) (kn : LiveKnote) : World Tid :=
  ((w.record (.dropped (fd, f)) (w.table.set fd f none)).setKnote (fd, f)
    (some { kn with influx := true })).setPc t (.drop (fd, f) (.close fd))

/-- One turn of the loop of `knote_fdclose`, at the knote of the filter `f`. -/
def closeTurn (w : World Tid) (t : Tid) (f : Filter) : Option (World Tid) :=
  match w.pc t with
  | .close fd influx =>
    match w.knotes (fd, f) with
    | none => none
    | some kn =>
      if kn.influx then some (w.closeWait t fd influx) else some (w.closeDrop t fd f kn)
  | _ => none

/-- The loop of `knote_fdclose` finds no knote. -/
def closeDone (w : World Tid) (t : Tid) : Option (World Tid) :=
  match w.pc t with
  | .close fd _ =>
    if w.knotes (fd, .read) = none ∧ w.knotes (fd, .write) = none then
      some (w.setPc t .idle).fluxWakeup
    else none
  | _ => none

/-- The socket behind `k` is ready with something new, or is not ready. -/
def setReady (w : World Tid) (k : Key) (ready : Bool) : World Tid :=
  { w with
    ready := Function.update w.ready k ready
    fresh := Function.update w.fresh k (w.fresh k || ready) }

/-- The socket behind `k` becomes ready, or gets more data, and calls `knote`; or it ceases to
be ready. -/
def signal (w : World Tid) (k : Key) (ready : Bool) : World Tid :=
  match w.knotes k with
  | none => w.setReady k ready
  | some kn =>
    if kn.influx && !kn.scan then w.setReady k ready
    else if ready then (w.setReady k true).knoteActivate k kn
    else w.setReady k false

/-- The steps. -/
inductive Action (Tid : Type*)
  | kqueueScan (t : Tid) (maxevents : ℕ)
  | retry (t : Tid) (wait : Bool)
  | timeout (t : Tid)
  | loopTurn (t : Tid) (r : Reading)
  | exam (t : Tid) (r : Reading)
  | countOneshot (t : Tid)
  | knoteDrop (t : Tid)
  | kqueueRegister (t : Tid) (kev : Kevent)
  | findkn (t : Tid)
  | settle (t : Tid)
  | knoteFdclose (t : Tid) (fd : ℕ)
  | closeTurn (t : Tid) (f : Filter)
  | closeDone (t : Tid)
  | signal (k : Key) (ready : Bool)
  deriving DecidableEq, Repr

def step (w : World Tid) : Action Tid → Option (World Tid)
  | .kqueueScan t m => w.kqueueScan t m
  | .retry t wait => w.retry t wait
  | .timeout t => w.timeout t
  | .loopTurn t r => w.loopTurn t r
  | .exam t r => w.exam t r
  | .countOneshot t => w.countOneshot t
  | .knoteDrop t => w.knoteDrop t
  | .kqueueRegister t kev => w.kqueueRegister t kev
  | .findkn t => w.findkn t
  | .settle t => w.settle t
  | .knoteFdclose t fd => w.knoteFdclose t fd
  | .closeTurn t f => w.closeTurn t f
  | .closeDone t => w.closeDone t
  | .signal k ready => some (w.signal k ready)

end World

end Concurrent

end VosStack.Epoll
